import Dialogue.Code.Draft
import Dialogue.Proofs.Code.TermPlan
import Dialogue.Proofs.Code.WellFormed
import Dialogue.Proofs.Meaning.Settling

/-!
The code of an expression works out its value. Wherever the code stands and whatever the machine
holds, control leaves it only at its end, with the value on top of the stack and nothing else
changed, or by the fault that evaluation meets; the host is not asked anything on the way.
-/
namespace Dialogue

namespace Plan
variable {program : Program} {resolve : String → Option Nat} {start : Nat} {p q : Plan}

theorem holds_one {origin : Origin} {i : Instruction}
    (holds : program.Holds start ((one origin i).instructions resolve start)) :
    program.code[start]? = some i :=
  holds.head

theorem holds_both (holds : program.Holds start ((both p q).instructions resolve start)) :
    program.Holds start (p.instructions resolve start) ∧
      program.Holds (start + p.size) (q.instructions resolve (start + p.size)) := by
  rw [instructions_both] at holds
  have back := holds.right
  rw [length_instructions] at back
  exact ⟨holds.left, back⟩

theorem holds_loop (holds : program.Holds start ((loop p q).instructions resolve start)) :
    program.Holds start (p.instructions resolve start) ∧
      program.code[start + p.size]? = some (.jumpIfFalse (start + p.size + 1 + q.size + 1)) ∧
      program.Holds (start + p.size + 1) (q.instructions resolve (start + p.size + 1)) ∧
      program.code[start + p.size + 1 + q.size]? = some (.jump start) := by
  rw [instructions_loop] at holds
  have leave := holds.right
  have back := leave.tail.right.head
  have inner := leave.tail.left
  simp only [length_instructions] at leave inner back
  exact ⟨holds.left, leave.head, inner, back⟩

theorem holds_branches (holds : program.Holds start ((branches p q).instructions resolve start)) :
    program.code[start]? = some (.jumpIfFalse (start + 1 + p.size + 1)) ∧
      program.Holds (start + 1) (p.instructions resolve (start + 1)) ∧
      program.code[start + 1 + p.size]? = some (.jump (start + 1 + p.size + 1 + q.size)) ∧
      program.Holds (start + 1 + p.size + 1) (q.instructions resolve (start + 1 + p.size + 1)) := by
  rw [instructions_branches] at holds
  have around := holds.tail.right
  simp only [length_instructions] at around
  exact ⟨holds.head, holds.tail.left, around.head, around.tail⟩

end Plan

namespace Meaning
open Machine (Path Variables)
open Form (WellFormed plan foldedPlan)

def Inside (low high a : Nat) : Prop :=
  low ≤ a ∧ a < high

theorem Inside.widen {low high low' high' : Nat} (lower : low' ≤ low) (upper : high ≤ high') :
    ∀ a, Inside low high a → Inside low' high' a :=
  fun _ inside => ⟨Nat.le_trans lower inside.1, Nat.lt_of_lt_of_le inside.2 upper⟩

variable {σ : Type} {m : Machine σ} {st : State σ} {allowed : Nat → Prop} {pc next : Nat}
variable {stack stack' rest : List Value} {i : Instruction}

theorem path_of_answer {st' : State σ} {r : Machine.Request} (running : m.status = .running)
    (inside : allowed pc)
    (effect : (m.stand pc stack st).effect? = some (.ok r, (m.stand next stack' st').core))
    (answer : (m.stand next stack' { st' with memory := st.memory }).ask r =
      (.ok .proceeded, st'.memory)) :
    Path allowed 1 (m.stand pc stack st) (m.stand pc stack st).events
      (m.stand next stack' st') := by
  have first := Machine.step_of_request (m := m.stand pc stack st) running effect answer
  have path : Path allowed 1 _ _ _ := Path.one inside first
  have same : ({ m.stand pc stack st with
      core := (m.stand next stack' st').core
      memory := st'.memory
      status := Machine.Outcome.proceeded.status } : Machine σ) = m.stand next stack' st' := by
    simp [Machine.stand, Machine.Outcome.status, running]
  rwa [same] at path

theorem path_of_silent (running : m.status = .running) (inside : allowed pc)
    (effect : (m.stand pc stack st).effect? =
      some (.ok .nothing, (m.stand next stack' st).core)) :
    Path allowed 1 (m.stand pc stack st) [] (m.stand next stack' st) := by
  have path := path_of_answer running inside effect rfl
  rwa [Machine.events_of_nothing effect] at path

theorem settles_of_fault {α : Type} {goal : α → Machine σ} {expected found : Kind}
    (running : m.status = .running) (inside : allowed pc)
    (effect : (m.stand pc stack st).effect? =
      some (.error (.typeMismatch expected found), (m.stand next stack' st).core)) :
    Settles allowed m st goal (m.stand pc stack st) (.error (.mismatch expected found)) := by
  obtain ⟨i, failed⟩ := Machine.step_of_fault (m := m.stand pc stack st) running effect
  exact ⟨0, _, next, stack', _, .stay _, inside, Machine.events_of_fault effect, failed, rfl⟩

theorem effect?_stand (here : m.program.code[pc]? = some i) (stack : List Value) (st : State σ) :
    (m.stand pc stack st).effect? =
      some ((m.stand (pc + 1) stack st).core.execute m.natives.signatures i) :=
  Machine.effect?_of_code here

theorem settles_of_does {r : Except NoValue Value} (running : m.status = .running)
    (inside : allowed pc) (here : m.program.code[pc]? = some i)
    (does : Does (m.stand (pc + 1) stack st).core rest
      ((m.stand (pc + 1) stack st).core.execute m.natives.signatures i) r) :
    Settles allowed m st (fun v => m.stand (pc + 1) (v :: rest) st) (m.stand pc stack st) r := by
  match r, does with
  | .ok v, does =>
    exact ⟨1, path_of_silent running inside ((effect?_stand here _ _).trans (congrArg some does))⟩
  | .error (.mismatch expected found), ⟨stack', does⟩ =>
    exact settles_of_fault running inside ((effect?_stand here _ _).trans (congrArg some does))

theorem settles_test {target : Nat} {v : Value} (running : m.status = .running)
    (inside : allowed pc) (here : m.program.code[pc]? = some (.jumpIfFalse target)) :
    Settles allowed m st (fun b => m.stand (if b then pc + 1 else target) rest st)
      (m.stand pc (v :: rest) st) (boolean v) := by
  have effect := effect?_stand here (v :: rest) st
  cases v with
  | boolean b =>
    refine ⟨1, path_of_silent running inside (effect.trans ?_)⟩
    cases b <;> rfl
  | number | string | nil | symbol =>
    exact settles_of_fault running inside (effect.trans rfl)

theorem path_of_jump {target : Nat} (running : m.status = .running) (inside : allowed pc)
    (here : m.program.code[pc]? = some (.jump target)) :
    Path allowed 1 (m.stand pc stack st) [] (m.stand target stack st) :=
  path_of_silent running inside (effect?_stand here _ _)

variable {resolve : String → Option Nat} {node? : Option String}

def Pushes (resolve : String → Option Nat) (node? : Option String) (m : Machine σ) (st : State σ)
    (t : Term) : Prop :=
  ∀ (low : Nat) (stack : List Value),
    m.program.Holds low ((plan node? t).instructions resolve low) →
    Settles (Inside low (low + (plan node? t).size)) m st
      (fun v => m.stand (low + (plan node? t).size) (v :: stack) st) (m.stand low stack st)
      (value st.store t)

theorem pushes_one {t : Term} {v : Value} (running : m.status = .running)
    (code : plan node? t = .one .other i) (known : value st.store t = .ok v)
    (does : ∀ pc stack, (m.stand pc stack st).core.execute m.natives.signatures i =
      (.ok .nothing, (m.stand pc (v :: stack) st).core)) :
    Pushes resolve node? m st t := by
  intro low stack holds
  rw [code] at holds ⊢
  rw [known]
  have here := Plan.holds_one holds
  exact settles_of_does running ⟨Nat.le_refl _, Nat.lt_succ_self _⟩ here (does _ _)

theorem settles_folded {o : Operator} {ts : List Term} {sofar : Value}
    (running : m.status = .running) (operation : Form.instruction? o = some i)
    (counted : o.arity.accepts 2) (parts : ∀ t ∈ ts, Pushes resolve node? m st t)
    {low : Nat} (holds : m.program.Holds low
      ((foldedPlan node? i true ts).instructions resolve low)) :
    Settles (Inside low (low + (foldedPlan node? i true ts).size)) m st
      (fun v => m.stand (low + (foldedPlan node? i true ts).size) (v :: stack) st)
      (m.stand low (sofar :: stack) st) (foldValue st.store o sofar ts) := by
  induction ts generalizing low sofar with
  | nil => exact ⟨0, .stay _⟩
  | cons t ts ih =>
    rw [foldedPlan, if_pos rfl] at holds ⊢
    obtain ⟨operand, later⟩ := Plan.holds_both holds
    obtain ⟨operator, others⟩ := Plan.holds_both later
    simp only [Plan.size, ← Nat.add_assoc] at others ⊢
    rw [foldValue]
    have first := parts t List.mem_cons_self low (sofar :: stack) operand
    refine (first.mono (Inside.widen (Nat.le_refl _) (by omega))).bind fun v _ => ?_
    refine (settles_of_does running ?_ (Plan.holds_one operator)
      (does_combine operation counted rfl)).bind fun sum _ => ?_
    · exact ⟨by omega, by omega⟩
    · have rest := fun u mem => parts u (List.mem_cons_of_mem t mem)
      exact (ih rest others).mono (Inside.widen (by omega) (Nat.le_refl _))

theorem pushes_unary {span place : Span} {name : String} {o : Operator} {t : Term}
    (running : m.status = .running) (known : Operator.ofName? name = some o)
    (operation : Form.instruction? o = some i) (counted : o.arity.accepts 1)
    (part : Pushes resolve node? m st t) :
    Pushes resolve node? m st (.list span [.symbol place name, t]) := by
  intro low stack holds
  rw [plan, Form.formPlan_unary known operation] at holds ⊢
  rw [value_single known]
  cases single : o.isVariadic with
  | true =>
    simp only [single, if_true] at holds ⊢
    refine (part low stack holds).bind fun v _ => ?_
    rw [change_of_variadic single]
    exact ⟨0, .stay _⟩
  | false =>
    rw [single, if_neg Bool.false_ne_true] at holds
    obtain ⟨operand, here⟩ := Plan.holds_both holds
    rw [if_neg Bool.false_ne_true, Plan.size, ← Nat.add_assoc]
    have first := part low stack operand
    refine (first.mono (Inside.widen (Nat.le_refl _) (Nat.le_add_right _ _))).bind fun v _ => ?_
    exact settles_of_does running ⟨Nat.le_add_right _ _, Nat.lt_succ_self _⟩ (Plan.holds_one here)
      (does_change operation counted single rfl)

theorem pushes_several {span place : Span} {name : String} {o : Operator} {ts : List Term}
    (running : m.status = .running) (known : Operator.ofName? name = some o)
    (operation : Form.instruction? o = some i) (counted : o.arity.accepts ts.length)
    (several : ts.length ≠ 1) (parts : ∀ t ∈ ts, Pushes resolve node? m st t) :
    Pushes resolve node? m st (.list span (.symbol place name :: ts)) := by
  intro low stack holds
  match ts, counted, several, parts with
  | [], counted, _, _ => cases o <;> first | cases operation; done | cases counted
  | [_], _, several, _ => exact absurd rfl several
  | t :: u :: us, counted, several, parts =>
    have plain : o ≠ .conditional := by
      rintro rfl
      cases operation
    rw [plan, Form.formPlan_folded known operation several] at holds ⊢
    rw [value_folded known plain (List.cons_ne_nil u us)]
    rw [foldedPlan, if_neg Bool.false_ne_true] at holds ⊢
    obtain ⟨operand, later⟩ := Plan.holds_both holds
    rw [Plan.size, ← Nat.add_assoc]
    have first := parts t List.mem_cons_self low stack operand
    refine (first.mono (Inside.widen (Nat.le_refl _) (by omega))).bind fun v _ => ?_
    refine (settles_folded running operation (accepts_two operation counted)
      (fun w mem => parts w (List.mem_cons_of_mem t mem)) later).mono ?_
    exact Inside.widen (by omega) (Nat.le_refl _)

theorem settles_condition {t : Term} {low target : Nat} (running : m.status = .running)
    (test : Pushes resolve node? m st t)
    (holds : m.program.Holds low ((plan node? t).instructions resolve low))
    (jump : m.program.code[low + (plan node? t).size]? = some (.jumpIfFalse target))
    (stack : List Value) :
    Settles (Inside low (low + (plan node? t).size + 1)) m st
      (fun b => m.stand (if b then low + (plan node? t).size + 1 else target) stack st)
      (m.stand low stack st) (truth st.store t) := by
  have first := test low stack holds
  refine (first.mono (Inside.widen (Nat.le_refl _) (Nat.le_succ _))).bind fun v _ => ?_
  exact settles_test running ⟨by omega, by omega⟩ jump

theorem pushes_conditional {span place : Span} {name : String}
    {condition consequence alternative : Term} (running : m.status = .running)
    (known : Operator.ofName? name = some .conditional)
    (test : Pushes resolve node? m st condition) (left : Pushes resolve node? m st consequence)
    (right : Pushes resolve node? m st alternative) :
    Pushes resolve node? m st
      (.list span [.symbol place name, condition, consequence, alternative]) := by
  intro low stack holds
  rw [plan, Form.formPlan_conditional known] at holds ⊢
  rw [value_conditional known]
  obtain ⟨deciding, branches⟩ := Plan.holds_both holds
  obtain ⟨jump, inner, skip, outer⟩ := Plan.holds_branches branches
  simp only [Plan.size, ← Nat.add_assoc]
  have tested := settles_condition running test deciding jump stack
  refine (tested.mono (Inside.widen (Nat.le_refl _) (by omega))).bind fun b _ => ?_
  cases b with
  | true =>
    -- The consequence comes to its end, from where a jump leads past the alternative.
    have settled := left _ stack inner
    refine (settled.mono (Inside.widen (by omega) (by omega))).further fun w => ⟨1, ?_⟩
    exact path_of_jump running ⟨by omega, by omega⟩ skip
  | false =>
    have settled := right _ stack outer
    exact settled.mono (Inside.widen (by omega) (Nat.le_refl _))

theorem pushes_literal (running : m.status = .running) (span : Span) (v : Value) :
    Pushes resolve node? m st (.literal span v) := by
  cases v <;> exact pushes_one running (by rw [plan, Form.push]) (by rw [value]; rfl) fun _ _ => rfl

theorem pushes_of_wellFormed {k : Class} {t : Term} (running : m.status = .running)
    (formed : WellFormed node? k t) (expression : k = .expression) :
    Pushes resolve node? m st t := by
  induction formed with
  | symbol => exact pushes_one running (by rw [plan]) (by rw [value]; rfl) fun _ _ => rfl
  | literal span v => exact pushes_literal running span v
  | @operation _ _ _ _ _ operands known operation counted _ parts =>
    by_cases single : operands.length = 1
    · obtain ⟨t, rfl⟩ := List.length_eq_one_iff.mp single
      exact pushes_unary running known operation counted (parts t List.mem_cons_self rfl)
    · exact pushes_several running known operation counted single fun t mem => parts t mem rfl
  | conditional known _ _ _ test left right =>
    exact pushes_conditional running known (test rfl) (left expression) (right expression)
  | assign | loop | sequence | print | call | choose | assembly => cases expression

/-- Wherever an expression that is accepted is compiled, its code computes its value: control comes
to the end of the code with the value on the stack, or the machine fails by the mismatch on which
evaluation fails. Nothing but the stack has changed, and the host has not been asked anything. -/
theorem expression_computes {d d' : Draft} {t : Term} (accepted : d.expression t = (.ok (), d'))
    (holds : m.program.Holds d.size (d'.code.drop d.size)) (running : m.status = .running)
    (start : m.core.pc = d.size) :
    (∀ v, value m.core.store t = .ok v →
      m.Reaches d'.size [] { m with
        core := { m.core with pc := d'.size, stack := v :: m.core.stack } }) ∧
    (∀ expected found, value m.core.store t = .error (.mismatch expected found) →
      ∃ pc stack trace, trace.fault = .typeMismatch expected found ∧
        m.Fails d'.size [] trace { m with
          status := .faulted
          core := { m.core with pc := pc, stack := stack } }) ∧
    value m.core.store t ≠ .error .noExpression := by
  obtain ⟨⟨f, made⟩, high, emitted⟩ := Draft.run_ok (Form.builds_expression d.node? t) accepted
  have formed := Form.wellFormed_of_require (Form.wellFormed_of_walk d.node? t) made
  rw [emitted] at holds
  have pushes : Pushes (fun _ => none) d.node? m m.state t :=
    pushes_of_wellFormed running formed rfl
  have settles := pushes d.size m.core.stack holds
  have here : m.stand d.size m.core.stack m.state = m := by rw [← start]; exact m.stand_self
  rw [← high, here] at settles
  have outside : ∀ a, Inside d.size d'.size a → a ≠ d'.size := fun _ inside => Nat.ne_of_lt inside.2
  change Settles _ m m.state _ m (value m.core.store t) at settles
  refine ⟨?_, ?_, ?_⟩
  · intro v known
    rw [known] at settles
    obtain ⟨n, path⟩ := settles
    exact ⟨rfl, n, path.mono outside⟩
  · intro expected found known
    rw [known] at settles
    obtain ⟨n, before, pc, stack, trace, path, inside, silent, failed, fault⟩ := settles
    refine ⟨pc, stack, trace, fault, n, before, [], path.mono outside, outside _ inside, failed, ?_⟩
    rw [silent]
    rfl
  · intro unknown
    rw [unknown] at settles
    exact settles

/-- A conditional at address one, on a stack that is not empty, and a mismatch in the same place. -/
theorem expression_computes_conditional :
    let size : Term := .literal default (.string "large")
    let test (v : Value) : Term := .list default [.symbol default "not", .literal default v]
    let t (v : Value) : Term :=
      .list default [.symbol default "if", test v, .symbol default "unset", size]
    let d := Draft.empty.emit .endDialogue
    let m (v : Value) : Machine Unit := ⟨⟨0, (d.expression (t v)).2.code⟩, .patient, [], .running,
      { Machine.Core.start 1 with stack := [.nil] }, ()⟩
    (m (.boolean true)).Reaches 7 [] { m (.boolean true) with
      core := { Machine.Core.start 7 with stack := [.string "large", .nil] } } ∧
    ∃ trace after, (m .nil).Fails 7 [] trace after ∧
      trace.fault = .typeMismatch .boolean .nil := by
  intro size test t d m
  have computes (v : Value) (accepted : d.expression (t v) = (.ok (), (d.expression (t v)).2)) :=
    expression_computes (m := m v) accepted (Program.holds_drop _ _ _) rfl rfl
  refine ⟨(computes (.boolean true) rfl).1 _ rfl, ?_⟩
  obtain ⟨_, _, trace, fault, fails⟩ := (computes .nil rfl).2.1 _ _ rfl
  exact ⟨trace, _, fails, fault⟩

end Meaning
end Dialogue
