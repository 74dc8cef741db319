import Dialogue.Proofs.Code.Forms
import Dialogue.Proofs.Machine.Path
import Dialogue.Proofs.Meaning.Settling
import Dialogue.Proofs.Meaning.Value

/-!
What a statement does, said of the term itself: it changes variables, says lines and calls the
host's functions, in the order in which it is written. A loop may go on for ever, so there is a
bound on how often each loop is gone round; whatever comes of a statement within a bound comes of
it within a greater one.
-/
namespace Dialogue.Meaning
open Machine (Event View Fault Host Natives)

/-- What a statement has around it and does not change. -/
structure World (σ : Type) where
  host : Host σ
  natives : Natives σ
  node? : Option String
  /-- The number of values on the stack. -/
  depth : Nat

inductive Ending (σ : Type) where
  | done (st : State σ)
  | failed (fault : Fault) (st : State σ)
  /-- The term is no statement. -/
  | meaningless

/-- What was asked of the host, and how it ended. -/
structure Course (σ : Type) where
  events : List Event
  ending : Ending σ

variable {σ α : Type}

def World.view (w : World σ) (st : State σ) : View :=
  ⟨w.node?, st.store, w.depth⟩

def finish (st : State σ) : Option (Course σ) :=
  some ⟨[], .done st⟩

def after (es : List Event) (r : Option (Course σ)) : Option (Course σ) :=
  r.map fun c => ⟨es ++ c.events, c.ending⟩

def next (k : State σ → Option (Course σ)) : Option (Course σ) → Option (Course σ)
  | some ⟨es, .done st⟩ => after es (k st)
  | other => other

def given (st : State σ) (k : α → Option (Course σ)) : Except NoValue α → Option (Course σ)
  | .ok a => k a
  | .error (.mismatch expected found) => some ⟨[], .failed (.typeMismatch expected found) st⟩
  | .error .noExpression => some ⟨[], .meaningless⟩

theorem given_bind {β : Type} (st : State σ) (r : Except NoValue β) (f : β → Except NoValue α)
    (k : α → Option (Course σ)) :
    given st k (r >>= f) = given st (fun b => given st k (f b)) r := by
  match r with
  | .ok _ => rfl
  | .error (.mismatch _ _) | .error .noExpression => rfl

def say (w : World σ) (st : State σ) (text : String) : Option (Course σ) :=
  some ⟨[⟨w.view st, .line text⟩],
    .done { st with memory := (w.host.line (w.view st) text st.memory).2 }⟩

def wrongArgument? (arguments : List Value) (kinds : List Kind) : Option (Nat × Kind × Kind) :=
  ((arguments.zip kinds).zipIdx.find? fun a => a.1.1.kind != a.1.2).map fun a =>
    (a.2, a.1.2, a.1.1.kind)

def call (w : World σ) (st : State σ) (name : String) (arguments : List Value) :
    Option (Course σ) :=
  match w.natives.lookup name with
  | none => some ⟨[], .failed (.unknownFunction name) st⟩
  | some f =>
    match wrongArgument? arguments f.signature with
    | some (index, expected, found) =>
      some ⟨[], .failed (.argumentType name index expected found) st⟩
    | none =>
      let called : Event := ⟨w.view st, .call name arguments⟩
      match f.invoke arguments st.memory with
      | (.ok _, memory) => some ⟨[called], .done { st with memory }⟩
      | (.error message, memory) =>
        some ⟨[called], .failed (.native name message) { st with memory }⟩

/-- The body for as long as the test holds, at most so many times. -/
def iterate (test : State σ → Except NoValue Bool) (body : State σ → Option (Course σ)) :
    Nat → State σ → Option (Course σ)
  | 0, _ => none
  | n + 1, st => given st (fun b => if b then next (iterate test body n) (body st) else finish st)
      (test st)

theorem after_nil (r : Option (Course σ)) : after [] r = r := by
  cases r <;> rfl

mutual

/-- What comes of a statement, each loop being gone round fewer than `n` times; nothing when that is
not enough. -/
def perform (w : World σ) (n : Nat) : Term → State σ → Option (Course σ)
  | .list _ items, st => performForm w n items st
  | _, _ => some ⟨[], .meaningless⟩

def performForm (w : World σ) (n : Nat) : List Term → State σ → Option (Course σ)
  | .symbol _ name :: operands, st =>
    match Operator.ofName? name with
    | none => given st (call w st name) (values st.store operands)
    | some o =>
      match o, operands with
      | .assign, [.symbol _ target, t] =>
        given st (fun v => finish { st with store := st.store.set target v }) (value st.store t)
      | .whileLoop, [condition, body] =>
        iterate (fun st => truth st.store condition) (perform w n body) n st
      | .conditional, [condition, consequence, alternative] =>
        given st (fun b => if b then perform w n consequence st else perform w n alternative st)
          (truth st.store condition)
      | .sequence, operands => performAll w n operands st
      | .print, [line] => given st (say w st) (do string (← value st.store line))
      | _, _ => some ⟨[], .meaningless⟩
  | _, _ => some ⟨[], .meaningless⟩

def performAll (w : World σ) (n : Nat) : List Term → State σ → Option (Course σ)
  | [], st => finish st
  | t :: ts, st => next (performAll w n ts) (perform w n t st)

end

section
variable {w : World σ} {n : Nat} {st : State σ} {span place spot : Span} {name target : String}
variable {operands : List Term}

theorem perform_call (unknown : Operator.ofName? name = none) :
    perform w n (.list span (.symbol place name :: operands)) st =
      given st (call w st name) (values st.store operands) := by
  rw [perform]
  unfold performForm
  simp only [unknown]

theorem perform_head {o : Operator} (known : Operator.ofName? name = some o) :
    perform w n (.list span (.symbol place name :: operands)) st =
      perform w n (.list span (.symbol place o.name :: operands)) st := by
  rw [perform, perform]
  unfold performForm
  rw [known, Operator.ofName?_name]

theorem perform_assign (known : Operator.ofName? name = some .assign) (t : Term) :
    perform w n (.list span [.symbol place name, .symbol spot target, t]) st =
      given st (fun v => finish { st with store := st.store.set target v })
        (value st.store t) :=
  (perform_head known).trans rfl

theorem perform_loop (known : Operator.ofName? name = some .whileLoop) (condition body : Term) :
    perform w n (.list span [.symbol place name, condition, body]) st =
      iterate (fun st => truth st.store condition) (perform w n body) n st :=
  (perform_head known).trans rfl

theorem perform_conditional (known : Operator.ofName? name = some .conditional)
    (condition consequence alternative : Term) :
    perform w n (.list span [.symbol place name, condition, consequence, alternative]) st =
      given st (fun b => if b then perform w n consequence st else perform w n alternative st)
        (truth st.store condition) :=
  (perform_head known).trans rfl

theorem perform_sequence (known : Operator.ofName? name = some .sequence) :
    perform w n (.list span (.symbol place name :: operands)) st =
      performAll w n operands st :=
  (perform_head known).trans rfl

theorem perform_print (known : Operator.ofName? name = some .print) (line : Term) :
    perform w n (.list span [.symbol place name, line]) st =
      given st (say w st) (do string (← value st.store line)) :=
  (perform_head known).trans rfl

end

def Extends (r r' : Option (Course σ)) : Prop :=
  ∀ c, r = some c → r' = some c

theorem Extends.refl (r : Option (Course σ)) : Extends r r :=
  fun _ ended => ended

theorem Extends.next {k k' : State σ → Option (Course σ)} {r r' : Option (Course σ)}
    (first : Extends r r') (later : ∀ st, Extends (k st) (k' st)) :
    Extends (next k r) (next k' r') := by
  cases r with
  | none => intro c ended; cases ended
  | some course =>
    rw [first course rfl]
    obtain ⟨es, ending⟩ := course
    cases ending with
    | done st =>
      intro c ended
      obtain ⟨c', rest, same⟩ := Option.map_eq_some_iff.mp ended
      show after es (k' st) = some c
      rw [later st c' rest, ← same]
      rfl
    | failed | meaningless => exact .refl _

theorem Extends.given {k k' : α → Option (Course σ)} (st : State σ) (r : Except NoValue α)
    (later : ∀ a, Extends (k a) (k' a)) : Extends (given st k r) (given st k' r) := by
  match r with
  | .ok a => exact later a
  | .error (.mismatch _ _) | .error .noExpression => exact .refl _

theorem Extends.iterate {test : State σ → Except NoValue Bool}
    {body body' : State σ → Option (Course σ)} (inner : ∀ st, Extends (body st) (body' st))
    {n k : Nat} (more : n ≤ k) (st : State σ) :
    Extends (iterate test body n st) (iterate test body' k st) := by
  induction n generalizing k st with
  | zero => intro c ended; cases ended
  | succ n ih =>
    obtain ⟨k, rfl⟩ : ∃ j, k = j + 1 := ⟨k - 1, by omega⟩
    refine .given st (test st) fun b => ?_
    cases b with
    | true => exact (inner st).next fun st' => ih (by omega) st'
    | false => exact .refl _

theorem performAll_extends {w : World σ} {n k : Nat} {ts : List Term}
    (parts : ∀ t ∈ ts, ∀ st, Extends (perform w n t st) (perform w k t st)) (st : State σ) :
    Extends (performAll w n ts st) (performAll w k ts st) := by
  induction ts generalizing st with
  | nil => exact .refl _
  | cons t ts ih =>
    have first := parts t List.mem_cons_self st
    exact first.next (ih fun u mem => parts u (List.mem_cons_of_mem t mem))

theorem performForm_extends {w : World σ} {n k : Nat} (more : n ≤ k) {items : List Term}
    (parts : ∀ t ∈ items, ∀ st, Extends (perform w n t st) (perform w k t st)) (st : State σ) :
    Extends (performForm w n items st) (performForm w k items st) := by
  match items, parts with
  | [], _ | .literal _ _ :: _, _ | .list _ _ :: _, _ => exact .refl _
  | .symbol _ name :: operands, parts =>
    unfold performForm
    cases Operator.ofName? name with
    | none => exact .refl _
    | some o =>
      dsimp only
      split
      · exact .refl _
      · rename_i condition body
        exact .iterate (parts body (by simp)) more st
      · rename_i condition consequence alternative
        refine .given st _ fun b => ?_
        cases b with
        | true => exact parts consequence (by simp) st
        | false => exact parts alternative (by simp) st
      · exact performAll_extends (fun t mem => parts t (List.mem_cons_of_mem _ mem)) st
      · exact .refl _
      · exact .refl _

/-- What a statement comes to does not depend on the bound, once it is great enough. -/
theorem perform_extends (w : World σ) {n k : Nat} (more : n ≤ k) (t : Term) (st : State σ) :
    Extends (perform w n t st) (perform w k t st) := by
  induction t using Term.induction_on_size generalizing st with
  | step t ih =>
    cases t with
    | symbol | literal => exact .refl _
    | list span items =>
      rw [perform, perform]
      refine performForm_extends more (fun u mem => ih u ?_) st
      have := List.sizeOf_lt_of_mem mem
      simp only [Term.list.sizeOf_spec]
      omega

end Dialogue.Meaning
