import Dialogue.Code.Form
import Dialogue.Proofs.Machine.Path
import Dialogue.Proofs.Meaning.Value

/-!
How a machine works something out: in silence it comes to a state given by what was worked out, or
it fails with the mismatch that stood in the way. Working out one thing after the other composes as
the evaluation of terms does, so the code of a term is followed operand by operand.
-/
namespace Dialogue

/-- What a term can change: the variables, and the host's memory. -/
structure State (σ : Type) where
  store : Machine.Variables
  memory : σ

namespace Machine
variable {σ : Type}

def stand (m : Machine σ) (pc : Nat) (stack : List Value) (st : State σ) : Machine σ :=
  { m with
    core := { m.core with pc := pc, stack := stack, store := st.store }
    memory := st.memory }

def state (m : Machine σ) : State σ :=
  ⟨m.core.store, m.memory⟩

theorem stand_self (m : Machine σ) : m.stand m.core.pc m.core.stack m.state = m := rfl

theorem stand_start {m : Machine σ} {pc : Nat} (start : m.core.pc = pc) :
    m.stand pc m.core.stack m.state = m := by
  subst start
  exact m.stand_self

end Machine

namespace Meaning
open Machine (Path Variables Signatures)

section
variable {c : Machine.Core} {v left right : Value} {rest : List Value} {signatures : Signatures}

/-- The effect on a core whose stack is `rest` below the operands: the value that was worked out is
pushed, or the mismatch is the fault. -/
def Does (c : Machine.Core) (rest : List Value) (e : Machine.Effect) : Except NoValue Value → Prop
  | .ok v => e = (.ok .nothing, { c with stack := v :: rest })
  | .error (.mismatch expected found) =>
    ∃ stack, e = (.error (.typeMismatch expected found), { c with stack := stack })
  | .error .noExpression => False

theorem does_numbers (f : Float → Float → Value) (operands : c.stack = right :: left :: rest) :
    Does c rest (c.popTwo .number Value.number? f) (numbers f left right) := by
  cases right <;> cases left <;>
    simp [Does, numbers, number, Machine.Core.popTwo, Machine.Core.popAs, Value.number?,
      Machine.Core.pop, Machine.Core.fault, Machine.Core.push, Machine.Core.proceed, operands, bind,
      Except.bind, pure, Except.pure, Value.kind]

theorem does_booleans (f : Bool → Bool → Bool) (operands : c.stack = right :: left :: rest) :
    Does c rest (c.popTwo .boolean Value.boolean? fun x y => .boolean (f x y))
      (booleans f left right) := by
  cases right <;> cases left <;>
    simp [Does, booleans, boolean, Machine.Core.popTwo, Machine.Core.popAs, Value.boolean?,
      Machine.Core.pop, Machine.Core.fault, Machine.Core.push, Machine.Core.proceed, operands, bind,
      Except.bind, pure, Except.pure, Value.kind]

theorem accepts_two {o : Operator} {i : Instruction} {count : Nat}
    (operation : Form.instruction? o = some i) (counted : o.arity.accepts (count + 2)) :
    o.arity.accepts 2 := by
  cases o <;> first | (cases operation; done) | simp_all [Operator.arity, Arity.accepts]

theorem does_combine {o : Operator} {i : Instruction} (operation : Form.instruction? o = some i)
    (counted : o.arity.accepts 2) (operands : c.stack = right :: left :: rest) :
    Does c rest (c.execute signatures i) (combine left right o) := by
  have deep : 2 ≤ c.stack.length := by simp [operands]
  cases o with
  | not | increment | decrement => cases counted
  | assign | whileLoop | conditional | sequence | assembly | print | choose => cases operation
  | equal | concat =>
    cases operation
    rw [Machine.Core.execute_of_deep]
    · simp [Machine.Core.perform, Machine.Core.pop, operands, Machine.Core.push,
        Machine.Core.proceed, combine, Does, pure, Except.pure]
    · exact deep
  | and | or =>
    cases operation
    rw [Machine.Core.execute_of_deep]
    · exact does_booleans _ operands
    · exact deep
  | greaterThan | lessThan | add | subtract | multiply | divide =>
    cases operation
    rw [Machine.Core.execute_of_deep]
    · exact does_numbers _ operands
    · exact deep

theorem does_change {o : Operator} {i : Instruction} (operation : Form.instruction? o = some i)
    (counted : o.arity.accepts 1) (single : o.isVariadic = false)
    (operands : c.stack = v :: rest) :
    Does c rest (c.execute signatures i) (change v o) := by
  have deep : 1 ≤ c.stack.length := by simp [operands]
  cases o with
  | not =>
    cases operation
    rw [Machine.Core.execute_of_deep]
    · cases v <;>
        simp [Machine.Core.perform, Machine.Core.popAs, Value.boolean?, Machine.Core.pop, operands,
          Machine.Core.push, Machine.Core.proceed, Machine.Core.fault, change, boolean, Does, bind,
          Except.bind, pure, Except.pure, Value.kind]
    · exact deep
  | increment | decrement =>
    cases operation
    rw [Machine.Core.execute_of_deep]
    · cases v <;>
        simp [Machine.Core.perform, Machine.Core.popAs, Value.number?, Machine.Core.pop, operands,
          Machine.Core.push, Machine.Core.proceed, Machine.Core.fault, change, number, Does, bind,
          Except.bind, pure, Except.pure, Value.kind]
    · exact deep
  | assign | whileLoop | conditional | sequence | assembly | print | choose => cases operation
  | equal | greaterThan | lessThan => cases counted
  | _ => cases single

end

variable {σ : Type} {α β : Type}

/-- From `x` the machine comes to `goal a` when `r` is `a`, and fails as `r` does otherwise. -/
def Settles (allowed : Nat → Prop) (m : Machine σ) (st : State σ) (goal : α → Machine σ)
    (x : Machine σ) : Except NoValue α → Prop
  | .ok a => ∃ n, Path allowed n x [] (goal a)
  | .error (.mismatch expected found) =>
    ∃ n y pc stack t, Path allowed n x [] y ∧ allowed y.core.pc ∧ y.events = [] ∧
      y.step = (.error t, { m.stand pc stack st with status := .faulted }) ∧
      t.fault = .typeMismatch expected found
  | .error .noExpression => False

variable {allowed wider : Nat → Prop} {m x y : Machine σ} {st : State σ}
variable {goal : α → Machine σ} {goal' : β → Machine σ} {r : Except NoValue α}

theorem Settles.mono (weaken : ∀ a, allowed a → wider a) (settles : Settles allowed m st goal x r) :
    Settles wider m st goal x r := by
  match r, settles with
  | .ok _, ⟨n, path⟩ => exact ⟨n, path.mono weaken⟩
  | .error (.mismatch _ _), ⟨n, y, pc, stack, t, path, inside, rest⟩ =>
    exact ⟨n, y, pc, stack, t, path.mono weaken, weaken _ inside, rest⟩

theorem Settles.of_path {n : Nat} (path : Path allowed n x [] y)
    (settles : Settles allowed m st goal y r) : Settles allowed m st goal x r := by
  match r, settles with
  | .ok _, ⟨k, path'⟩ => exact ⟨n + k, path.trans path'⟩
  | .error (.mismatch _ _), ⟨k, z, pc, stack, t, path', rest⟩ =>
    exact ⟨n + k, z, pc, stack, t, path.trans path', rest⟩

theorem Settles.further {goal' : α → Machine σ} (settles : Settles allowed m st goal x r)
    (more : ∀ a, ∃ n, Path allowed n (goal a) [] (goal' a)) : Settles allowed m st goal' x r := by
  match r, settles with
  | .ok a, ⟨n, path⟩ =>
    obtain ⟨k, path'⟩ := more a
    exact ⟨n + k, path.trans path'⟩
  | .error (.mismatch _ _), failed => exact failed

theorem Settles.bind {k : α → Except NoValue β} (first : Settles allowed m st goal x r)
    (next : ∀ a, r = .ok a → Settles allowed m st goal' (goal a) (k a)) :
    Settles allowed m st goal' x (r >>= k) := by
  match r, first with
  | .ok a, ⟨_, path⟩ => exact (next a rfl).of_path path
  | .error (.mismatch _ _), failed => exact failed

end Meaning
end Dialogue
