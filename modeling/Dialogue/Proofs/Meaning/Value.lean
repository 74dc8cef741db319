import Dialogue.Machine.Core
import Dialogue.Term.Basic
import Dialogue.Term.Operator

/-!
What a term stands for, said of the term itself. Operands are looked at from left to right. An
operation is done as soon as its right operand is known, and looks at the right operand first.
-/
namespace Dialogue.Meaning
open Machine (Variables)

inductive NoValue where
  | mismatch (expected found : Kind)
  | noExpression
deriving DecidableEq, Repr

def number : Value → Except NoValue Float
  | .number x => .ok x
  | v => .error (.mismatch .number v.kind)

def boolean : Value → Except NoValue Bool
  | .boolean b => .ok b
  | v => .error (.mismatch .boolean v.kind)

def string : Value → Except NoValue String
  | .string s => .ok s
  | v => .error (.mismatch .string v.kind)

def numbers (f : Float → Float → Value) (left right : Value) : Except NoValue Value := do
  let y ← number right
  let x ← number left
  pure (f x y)

def booleans (f : Bool → Bool → Bool) (left right : Value) : Except NoValue Value := do
  let y ← boolean right
  let x ← boolean left
  pure (.boolean (f x y))

/-- An operation on two values. Texts are joined with the later one in front. -/
def combine (left right : Value) : Operator → Except NoValue Value
  | .greaterThan => numbers (fun x y => .boolean (x > y)) left right
  | .lessThan => numbers (fun x y => .boolean (x < y)) left right
  | .equal => pure (.boolean (left.equal right))
  | .and => booleans (fun x y => x && y) left right
  | .or => booleans (fun x y => x || y) left right
  | .add => numbers (fun x y => .number (x + y)) left right
  | .subtract => numbers (fun x y => .number (x - y)) left right
  | .multiply => numbers (fun x y => .number (x * y)) left right
  | .divide => numbers (fun x y => .number (x / y)) left right
  | .concat => pure (.string (right.text ++ left.text))
  | _ => .error .noExpression

/-- An operation on one value. An operation that folds its operands returns a single one as it
is. -/
def change (v : Value) : Operator → Except NoValue Value
  | .not => do pure (.boolean !(← boolean v))
  | .increment => do pure (.number ((← number v) + 1))
  | .decrement => do pure (.number ((← number v) + -1))
  | o => if o.isVariadic then pure v else .error .noExpression

theorem change_of_variadic {o : Operator} (folds : o.isVariadic) (v : Value) :
    change v o = pure v := by
  cases o <;> first | (cases folds; done) | rfl

/-- A variable that was never set is nil. -/
def variableValue (store : Variables) (name : String) : Value :=
  (store.get? name).getD .nil

def literalValue (store : Variables) : Value → Value
  | .symbol name => variableValue store name
  | v => v

mutual

def value (store : Variables) : Term → Except NoValue Value
  | .symbol _ name => pure (variableValue store name)
  | .literal _ v => pure (literalValue store v)
  | .list _ items => formValue store items

def formValue (store : Variables) : List Term → Except NoValue Value
  | .symbol _ name :: operands =>
    match Operator.ofName? name with
    | none => .error .noExpression
    | some o =>
      match o, operands with
      | .conditional, [condition, consequence, alternative] => do
        let v ← value store condition
        if ← boolean v then value store consequence else value store alternative
      | o, [operand] => do
        let v ← value store operand
        change v o
      | o, first :: others => do
        let v ← value store first
        foldValue store o v others
      | _, [] => .error .noExpression
  | _ => .error .noExpression

def foldValue (store : Variables) (o : Operator) (sofar : Value) : List Term → Except NoValue Value
  | [] => pure sofar
  | t :: ts => do
    let v ← value store t
    let next ← combine sofar v o
    foldValue store o next ts

end

def truth (store : Variables) (t : Term) : Except NoValue Bool := do
  boolean (← value store t)

def values (store : Variables) : List Term → Except NoValue (List Value)
  | [] => pure []
  | t :: ts => do
    let v ← value store t
    let vs ← values store ts
    pure (v :: vs)

section
variable {store : Variables} {span place : Span} {name : String} {o : Operator} {t : Term}
variable {ts : List Term}

theorem value_head (known : Operator.ofName? name = some o) :
    value store (.list span (.symbol place name :: ts)) =
      value store (.list span (.symbol place o.name :: ts)) := by
  rw [value, value]
  unfold formValue
  rw [known, Operator.ofName?_name]

theorem value_conditional (known : Operator.ofName? name = some .conditional)
    (condition consequence alternative : Term) :
    value store (.list span [.symbol place name, condition, consequence, alternative]) =
      (do
        if ← truth store condition then value store consequence
        else value store alternative) := by
  rw [value_head known, truth, bind_assoc]
  rfl

theorem value_single (known : Operator.ofName? name = some o) :
    value store (.list span [.symbol place name, t]) =
      (do
        let v ← value store t
        change v o) := by
  rw [value_head known]
  cases o <;> rfl

theorem value_folded (known : Operator.ofName? name = some o) (plain : o ≠ .conditional)
    (further : ts ≠ []) :
    value store (.list span (.symbol place name :: t :: ts)) =
      (do
        let v ← value store t
        foldValue store o v ts) := by
  rw [value_head known]
  cases ts with
  | nil => exact absurd rfl further
  | cons u us => cases o <;> first | exact absurd rfl plain | rfl

variable {vs : List Value} {v : Value}

theorem values_cons (known : values store (t :: ts) = .ok vs) :
    ∃ v us, value store t = .ok v ∧ values store ts = .ok us ∧ vs = v :: us := by
  rw [values] at known
  cases first : value store t with
  | error => rw [first] at known; cases known
  | ok v =>
    cases rest : values store ts with
    | error => rw [first, rest] at known; cases known
    | ok us =>
      rw [first, rest] at known
      cases known
      exact ⟨v, us, rfl, rfl, rfl⟩

theorem values_one (known : values store [t] = .ok vs) : ∃ v, value store t = .ok v ∧ vs = [v] := by
  obtain ⟨v, _, first, nothing, rfl⟩ := values_cons known
  cases nothing
  exact ⟨v, first, rfl⟩

theorem values_concat (known : values store ts = .ok vs) (last : value store t = .ok v) :
    values store (ts ++ [t]) = .ok (vs ++ [v]) := by
  induction ts generalizing vs with
  | nil =>
    cases known
    rw [List.nil_append, values, last]
    rfl
  | cons u us ih =>
    obtain ⟨w, ws, first, rest, rfl⟩ := values_cons known
    rw [List.cons_append, values, first, ih rest]
    rfl

theorem length_values (known : values store ts = .ok vs) : vs.length = ts.length := by
  induction ts generalizing vs with
  | nil => cases known; rfl
  | cons t ts ih =>
    obtain ⟨_, us, _, rest, rfl⟩ := values_cons known
    rw [List.length_cons, List.length_cons, ih rest]

end

end Dialogue.Meaning
