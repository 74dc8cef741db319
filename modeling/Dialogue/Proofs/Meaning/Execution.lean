import Dialogue.Proofs.Meaning.Running

/-!
The code of a statement does what the statement does. The host always lets the machine go on, and a
native function takes as many arguments as it is given; the term holds no assembly and no menu.
-/
namespace Dialogue

namespace Term

mutual

def forms : Term → List (String × Nat)
  | list _ (symbol _ name :: operands) => (name, operands.length) :: formsOf operands
  | list _ items => formsOf items
  | _ => []

def formsOf : List Term → List (String × Nat)
  | [] => []
  | t :: ts => t.forms ++ formsOf ts

end

def Ordinary (t : Term) : Prop :=
  ∀ form ∈ t.forms, Operator.ofName? form.1 ≠ some .assembly ∧
    Operator.ofName? form.1 ≠ some .choose

def Suits {σ : Type} (t : Term) (natives : Machine.Natives σ) : Prop :=
  ∀ form ∈ t.forms, Operator.ofName? form.1 = none →
    ∀ f, natives.lookup form.1 = some f → f.signature.length = form.2

variable {t : Term} {ts : List Term} {span place : Span} {name : String} {form : String × Nat}

theorem mem_formsOf (operand : t ∈ ts) (mem : form ∈ t.forms) : form ∈ formsOf ts := by
  induction ts with
  | nil => cases operand
  | cons u us ih =>
    rw [formsOf, List.mem_append]
    rcases List.mem_cons.mp operand with same | later
    · subst u; exact Or.inl mem
    · exact Or.inr (ih later)

theorem mem_forms_self : (name, ts.length) ∈ (list span (symbol place name :: ts)).forms := by
  rw [forms]
  exact List.mem_cons_self

theorem mem_forms_of_operand (operand : t ∈ ts) (mem : form ∈ t.forms) :
    form ∈ (list span (symbol place name :: ts)).forms := by
  rw [forms]
  exact List.mem_cons_of_mem _ (mem_formsOf operand mem)

theorem Ordinary.operand (ordinary : (list span (symbol place name :: ts)).Ordinary)
    (operand : t ∈ ts) : t.Ordinary :=
  fun form mem => ordinary form (mem_forms_of_operand operand mem)

theorem Suits.operand {σ : Type} {natives : Machine.Natives σ}
    (suits : (list span (symbol place name :: ts)).Suits natives) (operand : t ∈ ts) :
    t.Suits natives :=
  fun form mem => suits form (mem_forms_of_operand operand mem)

end Term

namespace Machine
variable {σ : Type}

/-- The host lets the machine go on after every line, and so does every native that does not
fail. -/
structure Unhindered (m : Machine σ) : Prop where
  line : ∀ view text memory, (m.host.line view text memory).1 = .proceed
  native : ∀ name f, m.natives.lookup name = some f →
    ∀ arguments memory, (f.invoke arguments memory).1 ≠ .ok .pause

end Machine

namespace Meaning
open Machine (Path Event Fault)
open Form (WellFormed plan seriesPlan)

theorem mismatch?_eq (start : Nat) (arguments : List Value) (kinds : List Kind) :
    Machine.Core.mismatch? start arguments kinds =
      (((arguments.zip kinds).zipIdx start).find? fun a => a.1.1.kind != a.1.2).map fun a =>
        (a.2, a.1.2, a.1.1.kind) := by
  induction arguments generalizing start kinds with
  | nil => simp [Machine.Core.mismatch?]
  | cons v vs ih =>
    cases kinds with
    | nil => simp [Machine.Core.mismatch?]
    | cons k ks =>
      by_cases same : v.kind = k
      · simp [Machine.Core.mismatch?, same, ih]
      · simp [Machine.Core.mismatch?, same]

variable {σ : Type} {m : Machine σ} {st : State σ} {allowed : Nat → Prop}
variable {pc after least : Nat} {stack stack' : List Value}

theorem runs_of_fault {goal : State σ → Machine σ} {fault : Fault} (running : m.status = .running)
    (inside : allowed pc) (effect : (m.stand pc stack st).effect? =
      some (.error fault, (m.stand after stack' st).core)) :
    Runs allowed least m goal (m.stand pc stack st) (some ⟨[], .failed fault st⟩) := by
  obtain ⟨i, failed⟩ := Machine.step_of_fault (m := m.stand pc stack st) running effect
  refine ⟨0, [], _, after, stack', _, .stay _, inside, ?_, failed, rfl⟩
  rw [Machine.events_of_fault effect]
  rfl

theorem runs_store {target : String} {v : Value} (running : m.status = .running)
    (inside : allowed pc) (here : m.program.code[pc]? = some (.storeVariable target)) :
    Runs allowed least m (fun st => m.stand (pc + 1) stack st) (m.stand pc (v :: stack) st)
      (finish { st with store := st.store.set target v }) := by
  have effect : (m.stand pc (v :: stack) st).effect? = some (.ok .nothing,
      (m.stand (pc + 1) stack { st with store := st.store.set target v }).core) :=
    effect?_stand here (v :: stack) st
  have path := path_of_answer running inside effect rfl
  rw [Machine.events_of_nothing effect] at path
  exact runs_finish path

theorem runs_line (unhindered : m.Unhindered) (running : m.status = .running) (inside : allowed pc)
    (here : m.program.code[pc]? = some .showLine) (v : Value) :
    Runs allowed least m (fun st => m.stand (pc + 1) stack st) (m.stand pc (v :: stack) st)
      (given st (say (m.world stack) st) (string v)) := by
  have effect := effect?_stand here (v :: stack) st
  cases v with
  | string s =>
    let heard := m.host.line ((m.world stack).view st) s st.memory
    have shown : (m.stand pc (.string s :: stack) st).effect? =
        some (.ok (.line s), (m.stand (pc + 1) stack { st with memory := heard.2 }).core) :=
      effect.trans rfl
    have goes : heard.1 = .proceed := unhindered.line _ _ _
    have answer : (m.stand (pc + 1) stack st).ask (.line s) = (.ok .proceeded, heard.2) := by
      show (Except.ok heard.1.outcome, heard.2) = _
      rw [goes]
      rfl
    have path := path_of_answer running inside shown answer
    rw [Machine.events_of_request shown nofun] at path
    exact ⟨1, path⟩
  | boolean | number | nil | symbol => exact runs_of_fault running inside (effect.trans rfl)

theorem execute_call {c : Machine.Core} {signatures : Machine.Signatures} {name : String}
    {kinds : List Kind} {arguments rest : List Value} (signature : signatures name = some kinds)
    (suits : kinds.length = arguments.length) (operands : c.stack = arguments.reverse ++ rest) :
    c.execute signatures (.call name) = match wrongArgument? arguments kinds with
      | some (index, expected, found) => (.error (.argumentType name index expected found), c)
      | none => (.ok (.call name arguments), { c with stack := rest }) := by
  -- The last argument is on top, so the arguments come off the stack backwards.
  have reversed : kinds.length = arguments.reverse.length := by rw [suits, List.length_reverse]
  have enough : ¬ c.stack.length < kinds.length := by
    rw [operands, List.length_append]
    omega
  have taken : (c.stack.take kinds.length).reverse = arguments := by
    rw [operands, reversed, List.take_left, List.reverse_reverse]
  have left : c.stack.drop kinds.length = rest := by
    rw [operands, reversed, List.drop_left]
  show c.call signatures name = _
  unfold Machine.Core.call
  simp only [signature, if_neg enough, taken, left, mismatch?_eq, wrongArgument?]
  rfl

theorem execute_call_unknown {c : Machine.Core} {signatures : Machine.Signatures} {name : String}
    (unknown : signatures name = none) :
    c.execute signatures (.call name) = (.error (.unknownFunction name), c) := by
  show c.call signatures name = _
  simp only [Machine.Core.call, unknown, Machine.Core.fault]

theorem runs_invoke {name : String} {arguments : List Value} {f : Machine.Native σ}
    (unhindered : m.Unhindered) (running : m.status = .running) (inside : allowed pc)
    (found : m.natives.lookup name = some f)
    (called : (m.stand pc (arguments.reverse ++ stack) st).effect? =
      some (.ok (.call name arguments), (m.stand (pc + 1) stack st).core)) :
    Runs allowed least m (fun st => m.stand (pc + 1) stack st)
      (m.stand pc (arguments.reverse ++ stack) st)
      (match f.invoke arguments st.memory with
      | (.ok _, memory) =>
        some ⟨[⟨(m.world stack).view st, .call name arguments⟩], .done { st with memory }⟩
      | (.error message, memory) =>
        some ⟨[⟨(m.world stack).view st, .call name arguments⟩],
          .failed (.native name message) { st with memory }⟩) := by
  have proceeds := unhindered.native name f found arguments st.memory
  have lookup : (m.stand (pc + 1) stack st).natives.lookup name = some f := found
  cases invoked : f.invoke arguments st.memory with
  | mk result memory =>
    have same : f.invoke arguments (m.stand (pc + 1) stack st).memory = (result, memory) := invoked
    rw [invoked] at proceeds
    cases result with
    | ok signal =>
      have answer : (m.stand (pc + 1) stack st).ask (.call name arguments) =
          (.ok .proceeded, memory) := by
        cases signal with
        | proceed => simp [Machine.ask, lookup, same, Machine.Signal.outcome]
        | pause => exact absurd rfl proceeds
      have path : Path allowed 1 _ _ (m.stand (pc + 1) stack { st with memory }) :=
        path_of_answer running inside called answer
      rw [Machine.events_of_request called nofun] at path
      exact ⟨1, path⟩
    | error message =>
      have answer : (m.stand (pc + 1) stack st).ask (.call name arguments) =
          (.error (.native name message), memory) := by
        simp [Machine.ask, lookup, same]
      obtain ⟨i, failed⟩ := Machine.step_of_refusal
        (m := m.stand pc (arguments.reverse ++ stack) st) running called answer
      refine ⟨0, [], _, pc + 1, stack, _, .stay _, inside, ?_, failed, rfl⟩
      rw [Machine.events_of_request called nofun]
      rfl

theorem runs_call {name : String} {arguments : List Value} (unhindered : m.Unhindered)
    (running : m.status = .running) (inside : allowed pc)
    (here : m.program.code[pc]? = some (.call name))
    (suits : ∀ f, m.natives.lookup name = some f → f.signature.length = arguments.length) :
    Runs allowed least m (fun st => m.stand (pc + 1) stack st)
      (m.stand pc (arguments.reverse ++ stack) st) (call (m.world stack) st name arguments) := by
  have effect := effect?_stand here (arguments.reverse ++ stack) st
  unfold call
  simp only [Machine.world]
  cases found : m.natives.lookup name with
  | none =>
    have unknown : m.natives.signatures name = none := by simp [Machine.Natives.signatures, found]
    rw [execute_call_unknown unknown] at effect
    exact runs_of_fault running inside effect
  | some f =>
    have signature : m.natives.signatures name = some f.signature := by
      simp [Machine.Natives.signatures, found]
    rw [execute_call signature (suits f found) rfl] at effect
    dsimp only
    cases wrong : wrongArgument? arguments f.signature with
    | some mismatch =>
      rw [wrong] at effect
      exact runs_of_fault running inside effect
    | none =>
      rw [wrong] at effect
      exact runs_invoke unhindered running inside found effect

variable {resolve : String → Option Nat} {node? : Option String} {n : Nat}

def Executes (resolve : String → Option Nat) (node? : Option String) (m : Machine σ) (n : Nat)
    (t : Term) : Prop :=
  ∀ (low : Nat) (stack : List Value) (st : State σ),
    m.program.Holds low ((plan node? t).instructions resolve low) →
    Runs (Inside low (low + (plan node? t).size)) n m
      (fun st => m.stand (low + (plan node? t).size) stack st) (m.stand low stack st)
      (perform (m.world stack) n t st)

section
variable {span place spot : Span} {name target : String} {ts : List Term}

theorem settles_series (parts : ∀ t ∈ ts, Pushes resolve node? m st t) {low : Nat}
    (holds : m.program.Holds low ((seriesPlan node? ts).instructions resolve low))
    (stack : List Value) :
    Settles (Inside low (low + (seriesPlan node? ts).size)) m st
      (fun vs => m.stand (low + (seriesPlan node? ts).size) (vs.reverse ++ stack) st)
      (m.stand low stack st) (values st.store ts) := by
  induction ts generalizing low stack with
  | nil => exact ⟨0, .stay _⟩
  | cons t ts ih =>
    obtain ⟨operand, others⟩ := Plan.holds_both holds
    rw [values, seriesPlan]
    simp only [Plan.size, ← Nat.add_assoc]
    have first := parts t List.mem_cons_self low stack operand
    refine (first.mono (Inside.widen (Nat.le_refl _) (by omega))).bind fun v _ => ?_
    have later := fun u mem => parts u (List.mem_cons_of_mem t mem)
    refine ((ih later others _).mono (Inside.widen (by omega) (Nat.le_refl _))).bind fun vs _ => ?_
    show ∃ n, Path _ n _ [] (m.stand _ ((v :: vs).reverse ++ stack) st)
    rw [List.reverse_cons, List.append_assoc]
    exact ⟨0, .stay _⟩

theorem executes_call (unhindered : m.Unhindered) (running : m.status = .running)
    (unknown : Operator.ofName? name = none)
    (suits : ∀ f, m.natives.lookup name = some f → f.signature.length = ts.length)
    (parts : ∀ st, ∀ t ∈ ts, Pushes resolve node? m st t) :
    Executes resolve node? m n (.list span (.symbol place name :: ts)) := by
  intro low stack st holds
  rw [plan, Form.formPlan_call unknown] at holds ⊢
  rw [perform_call unknown]
  obtain ⟨operands, here⟩ := Plan.holds_both holds
  rw [Plan.size, ← Nat.add_assoc]
  have known := settles_series (parts st) operands stack
  refine (known.mono (Inside.widen (Nat.le_refl _) (Nat.le_add_right _ _))).given fun vs known => ?_
  refine runs_call unhindered running ⟨Nat.le_add_right _ _, Nat.lt_succ_self _⟩
    (Plan.holds_one here) fun f found => ?_
  rw [suits f found, length_values known]

theorem executes_assign {t : Term} (running : m.status = .running)
    (known : Operator.ofName? name = some .assign) (source : ∀ st, Pushes resolve node? m st t) :
    Executes resolve node? m n (.list span [.symbol place name, .symbol spot target, t]) := by
  intro low stack st holds
  rw [plan, Form.formPlan_assign known] at holds ⊢
  rw [perform_assign known]
  obtain ⟨operand, here⟩ := Plan.holds_both holds
  rw [Plan.size, ← Nat.add_assoc]
  have first := source st low stack operand
  refine (first.mono (Inside.widen (Nat.le_refl _) (Nat.le_add_right _ _))).given fun v _ => ?_
  exact runs_store running ⟨Nat.le_add_right _ _, Nat.lt_succ_self _⟩ (Plan.holds_one here)

theorem executes_print {t : Term} (unhindered : m.Unhindered) (running : m.status = .running)
    (known : Operator.ofName? name = some .print) (text : ∀ st, Pushes resolve node? m st t) :
    Executes resolve node? m n (.list span [.symbol place name, t]) := by
  intro low stack st holds
  rw [plan, Form.formPlan_print known] at holds ⊢
  rw [perform_print known, given_bind]
  obtain ⟨operand, here⟩ := Plan.holds_both holds
  rw [Plan.size, ← Nat.add_assoc]
  have first := text st low stack operand
  refine (first.mono (Inside.widen (Nat.le_refl _) (Nat.le_add_right _ _))).given fun v _ => ?_
  exact runs_line unhindered running ⟨Nat.le_add_right _ _, Nat.lt_succ_self _⟩
    (Plan.holds_one here) v

theorem executes_conditional {condition consequence alternative : Term}
    (running : m.status = .running) (known : Operator.ofName? name = some .conditional)
    (test : ∀ st, Pushes resolve node? m st condition)
    (left : Executes resolve node? m n consequence)
    (right : Executes resolve node? m n alternative) :
    Executes resolve node? m n
      (.list span [.symbol place name, condition, consequence, alternative]) := by
  intro low stack st holds
  rw [plan, Form.formPlan_conditional known] at holds ⊢
  rw [perform_conditional known]
  obtain ⟨deciding, branches⟩ := Plan.holds_both holds
  obtain ⟨jump, inner, skip, outer⟩ := Plan.holds_branches branches
  simp only [Plan.size, ← Nat.add_assoc]
  have tested := settles_condition running (test st) deciding jump stack
  refine (tested.mono (Inside.widen (Nat.le_refl _) (by omega))).given fun b _ => ?_
  cases b with
  | true =>
    have followed := left _ stack st inner
    refine (followed.mono (Inside.widen (by omega) (by omega))).further fun _ => ⟨1, ?_⟩
    exact path_of_jump running ⟨by omega, by omega⟩ skip
  | false =>
    have followed := right _ stack st outer
    exact followed.mono (Inside.widen (by omega) (Nat.le_refl _))

theorem executes_loop {condition body : Term} (running : m.status = .running)
    (known : Operator.ofName? name = some .whileLoop)
    (test : ∀ st, Pushes resolve node? m st condition)
    (inner : Executes resolve node? m n body) :
    Executes resolve node? m n (.list span [.symbol place name, condition, body]) := by
  intro low stack st holds
  rw [plan, Form.formPlan_loop known] at holds ⊢
  rw [perform_loop known]
  obtain ⟨deciding, leave, around, back⟩ := Plan.holds_loop holds
  simp only [Plan.size, ← Nat.add_assoc]
  let last := low + (plan node? condition).size + 1 + (plan node? body).size
  have within : ∀ a, Inside low (low + (plan node? condition).size + 1) a →
      Inside low (last + 1) a := Inside.widen (Nat.le_refl _) (by omega)
  have inside : ∀ a, Inside (low + (plan node? condition).size + 1) last a →
      Inside low (last + 1) a := Inside.widen (by omega) (Nat.le_succ _)
  have jumps : ∀ st : State σ,
      Path (Inside low (last + 1)) 1 (m.stand last stack st) [] (m.stand low stack st) :=
    fun _ => path_of_jump running ⟨by omega, Nat.lt_succ_self _⟩ back
  exact runs_iterate
    (fun st => (settles_condition running (test st) deciding leave stack).mono within)
    (fun st => (inner _ stack st around).mono inside) jumps (Nat.le_refl n) st

theorem executes_sequence (known : Operator.ofName? name = some .sequence)
    (parts : ∀ t ∈ ts, Executes resolve node? m n t) :
    Executes resolve node? m n (.list span (.symbol place name :: ts)) := by
  intro low stack st holds
  rw [plan, Form.formPlan_sequence known] at holds ⊢
  rw [perform_sequence known]
  induction ts generalizing low st with
  | nil => exact runs_finish (.stay _)
  | cons t ts ih =>
    obtain ⟨statement, others⟩ := Plan.holds_both holds
    rw [performAll, seriesPlan]
    simp only [Plan.size, ← Nat.add_assoc]
    have first := parts t List.mem_cons_self low stack st statement
    refine (first.mono (Inside.widen (Nat.le_refl _) (by omega))).next fun st' => ?_
    have later := ih (fun u mem => parts u (List.mem_cons_of_mem t mem)) _ st' others
    exact later.mono (Inside.widen (by omega) (Nat.le_refl _))

end

theorem executes_of_wellFormed {k : Class} {t : Term} (unhindered : m.Unhindered)
    (running : m.status = .running) (formed : WellFormed node? k t) (statement : k = .statement)
    (ordinary : t.Ordinary) (suits : t.Suits m.natives) : Executes resolve node? m n t := by
  have pushes : ∀ {u : Term}, WellFormed node? .expression u →
      ∀ st, Pushes resolve node? m st u :=
    fun formed _ => pushes_of_wellFormed running formed rfl
  induction formed with
  | symbol | literal | operation => cases statement
  | conditional known test _ _ _ left right =>
    refine executes_conditional running known (pushes test) ?_ ?_
    · exact left statement (ordinary.operand (by simp)) (suits.operand (by simp))
    · exact right statement (ordinary.operand (by simp)) (suits.operand (by simp))
  | assign known source => exact executes_assign running known (pushes source)
  | loop known test _ _ inner =>
    refine executes_loop running known (pushes test) ?_
    exact inner rfl (ordinary.operand (by simp)) (suits.operand (by simp))
  | sequence known _ _ parts =>
    exact executes_sequence known fun t mem =>
      parts t mem rfl (ordinary.operand mem) (suits.operand mem)
  | print known text => exact executes_print unhindered running known (pushes text)
  | call unknown parts =>
    refine executes_call unhindered running unknown ?_ fun st t mem => pushes (parts t mem) st
    exact suits _ Term.mem_forms_self unknown
  | choose known => exact absurd known (ordinary _ Term.mem_forms_self).2
  | assembly known => exact absurd known (ordinary _ Term.mem_forms_self).1

/-- Wherever a statement that is accepted is compiled, its code does what the statement does: it
comes to its end exactly when the statement does, with the same variables and having asked the
same of the host; it fails by the same fault after the same requests; and it goes on for ever
exactly when the statement does. Stack, choices and node are as they were. -/
theorem statement_performs {d d' : Draft} {t : Term} (accepted : d.statement t = (.ok (), d'))
    (holds : m.program.Holds d.size (d'.code.drop d.size)) (running : m.status = .running)
    (start : m.core.pc = d.size) (unhindered : m.Unhindered) (ordinary : t.Ordinary)
    (suits : t.Suits m.natives) :
    let outcome n := perform (m.world m.core.stack) n t m.state
    (∀ es m', m.Reaches d'.size es m' ↔ ∃ n st, outcome n = some ⟨es, .done st⟩ ∧
      m' = { m with
        core := { m.core with pc := d'.size, store := st.store }
        memory := st.memory }) ∧
    (∀ es fault st,
      (∃ trace m', m.Fails d'.size es trace m' ∧ trace.fault = fault ∧ m'.state = st) ↔
        ∃ n, outcome n = some ⟨es, .failed fault st⟩) ∧
    (m.RunsOn d'.size ↔ ∀ n, outcome n = none) := by
  intro outcome
  obtain ⟨⟨f, made⟩, high, emitted⟩ := Draft.run_ok (Form.builds_statement d.node? t) accepted
  have formed := Form.wellFormed_of_require (Form.wellFormed_of_walk d.node? t) made
  rw [emitted] at holds
  have runs : ∀ n, Runs (Inside d.size d'.size) n m (fun st => m.stand d'.size m.core.stack st) m
      (outcome n) := by
    intro n
    have executes : Executes (fun _ => none) d.node? m n t :=
      executes_of_wellFormed unhindered running formed rfl ordinary suits
    have followed := executes d.size m.core.stack m.state holds
    have here : m.stand d.size m.core.stack m.state = m := by rw [← start]; exact m.stand_self
    rwa [← high, here] at followed
  have outside : ∀ a, Inside d.size d'.size a → a ≠ d'.size := fun _ inside => Nat.ne_of_lt inside.2
  exact ⟨fun es m' => reaches_iff outside (fun _ => rfl) runs,
    fun es fault st => fails_iff outside (fun _ => rfl) runs,
    runsOn_iff outside (fun _ => rfl) runs⟩

/-- A loop that is gone round once, at address one. -/
theorem statement_performs_loop :
    let flag : Term := .symbol default "on"
    let line : Term := .list default [.symbol default "print", .literal default (.string "once")]
    let off : Term :=
      .list default [.symbol default "set!", flag, .literal default (.boolean false)]
    let body : Term := .list default [.symbol default "do", line, off]
    let t : Term := .list default [.symbol default "while", flag, body]
    let d := Draft.empty.emit .endDialogue
    let on : Machine.Variables := ⟨[("on", .boolean true)]⟩
    let m : Machine Unit := ⟨⟨0, (d.statement t).2.code⟩, .patient, [], .running,
      { Machine.Core.start 1 with store := on }, ()⟩
    m.Reaches 8 [⟨⟨none, on, 0⟩, .line "once"⟩] { m with
      core := { m.core with pc := 8, store := ⟨[("on", .boolean false)]⟩ } } := by
  intro flag line off body t d on m
  have accepted : d.statement t = (.ok (), (d.statement t).2) := rfl
  have unhindered : m.Unhindered := ⟨fun _ _ _ => rfl, fun _ _ found => nomatch found⟩
  have ordinary : t.Ordinary := by
    show ∀ form ∈ [("while", 2), ("do", 2), ("print", 1), ("set!", 2)], _
    decide
  have suits : t.Suits m.natives := fun _ _ _ _ found => nomatch found
  have performs := statement_performs (m := m) accepted (Program.holds_drop _ _ _) rfl rfl
    unhindered ordinary suits
  exact (performs.1 _ _).mpr ⟨2, ⟨⟨[("on", .boolean false)]⟩, ()⟩, rfl, rfl⟩

end Meaning
end Dialogue
