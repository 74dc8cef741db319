import Dialogue.Code.Form

/-!
The ways in which a form can be written, and what is emitted for each. Everything else that is
said of forms is said of these ways.
-/
namespace Dialogue

theorem Term.induction_on_size {P : Term → Prop}
    (step : ∀ t, (∀ u, sizeOf u < sizeOf t → P u) → P t) (t : Term) : P t :=
  (measure sizeOf).wf.induction t step

namespace Form
open Emit

variable {node? : Option String}

def inOrder (node? : Option String) (wanted : Class) : List Term → Emit Unit
  | [] => pure ()
  | t :: ts => do
    require wanted t.span (walk node? t)
    inOrder node? wanted ts

theorem arguments_eq (ts : List Term) : arguments node? ts = inOrder node? .expression ts := by
  induction ts with
  | nil => rfl
  | cons t ts ih => rw [arguments, inOrder, ih]

theorem statements_eq (ts : List Term) : statements node? ts = inOrder node? .statement ts := by
  induction ts with
  | nil => rfl
  | cons t ts ih => rw [statements, inOrder, ih]

/-- The emitters of forms. A list that is no form is refused before anything is emitted. -/
inductive Shape (node? : Option String) : List Term → Emit Class → Prop where
  | refused (items : List Term) (cause : Cause) (span : Span) :
      Shape node? items (fail cause span)
  | call {place : Span} {name : String} {operands : List Term}
      (unknown : Operator.ofName? name = none) :
      Shape node? (.symbol place name :: operands)
        (do inOrder node? .expression operands; emit (.call name); pure .statement)
  | assign {place spot : Span} {name target : String} {value : Term}
      (known : Operator.ofName? name = some .assign) :
      Shape node? [.symbol place name, .symbol spot target, value]
        (do
          require .expression value.span (walk node? value)
          emit (.storeVariable target)
          pure .statement)
  | loop {place : Span} {name : String} {condition body : Term}
      (known : Operator.ofName? name = some .whileLoop) :
      Shape node? [.symbol place name, condition, body]
        (do
          Emit.loop (require .expression condition.span (walk node? condition))
            (require .statement body.span (walk node? body))
          pure .statement)
  | conditional {place : Span} {name : String} {condition consequence alternative : Term}
      (known : Operator.ofName? name = some .conditional) :
      Shape node? [.symbol place name, condition, consequence, alternative]
        (do
          require .expression condition.span (walk node? condition)
          branches (walk node? consequence) fun wanted =>
            require wanted alternative.span (walk node? alternative))
  | sequence {place : Span} {name : String} {operands : List Term}
      (known : Operator.ofName? name = some .sequence) (nonempty : operands ≠ []) :
      Shape node? (.symbol place name :: operands)
        (do inOrder node? .statement operands; pure .statement)
  | print {place : Span} {name : String} {line : Term}
      (known : Operator.ofName? name = some .print) :
      Shape node? [.symbol place name, line]
        (do
          require .expression line.span (walk node? line)
          emit .showLine
          pure .statement)
  | choose {place : Span} {name node : String} {operands : List Term}
      (known : Operator.ofName? name = some .choose) (inside : node? = some node)
      (nonempty : operands ≠ []) :
      Shape node? (.symbol place name :: operands)
        (do
          options (some node) operands
          emit (.showChoice node)
          pure .statement)
  | assembly {place : Span} {name : String} {operands : List Term}
      (known : Operator.ofName? name = some .assembly) :
      Shape node? (.symbol place name :: operands)
        (do Assembly.elements operands; pure .statement)
  | unary {place : Span} {name : String} {o : Operator} {i : Instruction} {operand : Term}
      (known : Operator.ofName? name = some o) (operation : instruction? o = some i)
      (counted : o.arity.accepts 1) :
      Shape node? [.symbol place name, operand]
        (do
          require .expression operand.span (walk node? operand)
          if o.isVariadic then pure () else emit i
          pure .expression)
  | folded {place : Span} {name : String} {o : Operator} {i : Instruction} {operands : List Term}
      (known : Operator.ofName? name = some o) (operation : instruction? o = some i)
      (counted : o.arity.accepts operands.length) (several : operands.length ≠ 1) :
      Shape node? (.symbol place name :: operands)
        (do Form.folded node? i false operands; pure .expression)

theorem nonempty_of_accepts {ts : List Term} (counted : (Arity.atLeast 1).accepts ts.length) :
    ts ≠ [] := by
  rintro rfl
  simp [Arity.accepts] at counted

theorem formClass_of_operation {o : Operator} {i : Instruction}
    (operation : instruction? o = some i) :
    o.formClass = .expression := by
  cases o <;> first | rfl | cases operation

theorem shape_form (node? : Option String) (span : Span) (items : List Term) :
    Shape node? items (form node? span items) := by
  unfold form
  split
  · exact .refused _ _ _
  · rename_i place name operands
    cases known : Operator.ofName? name with
    | none => rw [arguments_eq]; exact .call known
    | some o =>
      dsimp only
      cases counted : o.arity.accepts operands.length with
      | false => exact .refused _ _ _
      | true =>
        rw [Bool.not_true, if_neg Bool.false_ne_true]
        split
        · split
          · exact .assign known
          · exact .refused _ _ _
          · exact .refused _ _ _
        · split
          · exact .loop known
          · exact .refused _ _ _
        · split
          · exact .conditional known
          · exact .refused _ _ _
        · rw [statements_eq]
          exact .sequence known (nonempty_of_accepts counted)
        · split
          · exact .print known
          · exact .refused _ _ _
        · split
          · exact .refused _ _ _
          · exact .choose known rfl (nonempty_of_accepts counted)
        · exact .assembly known
        · split
          · exact .refused _ _ _
          · rename_i operation
            rw [formClass_of_operation operation]
            split
            · exact .unary known operation counted
            · rename_i several
              refine .folded known operation counted fun single => ?_
              obtain ⟨operand, same⟩ := List.length_eq_one_iff.mp single
              exact several operand same
  · exact .refused _ _ _

end Form
end Dialogue
