import Dialogue.Proofs.Code.Applications
import Dialogue.Proofs.Code.TermPlan

/-!
What is true of everything that is planned. A property that plans have as soon as their parts have
it, and that holds of each thing a term can add, holds of the plan of every term; so properties of
plans are shown for single instructions and references only. A property that loops need not have
holds still of the plans of terms without them.
-/
namespace Dialogue

/-- The instruction names neither an address nor a node, and the dialogue goes on after it. -/
def Instruction.isPlain : Instruction → Bool
  | jump _ | jumpIfFalse _ | pushChoice _ => false
  | showChoice _ | enterNode _ | exitNode _ | endDialogue => false
  | _ => true

/-- A property of the plans that are made in the node `title`, loops left out. -/
structure Plan.Straight (title : String) (P : Plan → Prop) : Prop where
  empty : P .empty
  both {p q : Plan} (first : P p) (second : P q) : P (.both p q)
  branches {p q : Plan} (consequence : P p) (alternative : P q) : P (.branches p q)
  plain {i : Instruction} (plain : i.isPlain) : P (.one .other i)
  menu : P (.one .other (.showChoice title))
  leave : P (.one .other (.exitNode title))
  link (target : String) (span : Span) : P (.reference (.link target) (.jump 0) target span)
  item (target : String) (span : Span) : P (.reference (.item target) (.pushChoice 0) target span)
  option (target : String) (span : Span) :
    P (.reference (.option target) (.pushChoice 0) target span)
  assembly (ts : List Term) : P (Assembly.plan ts)

structure Plan.Hereditary (title : String) (P : Plan → Prop) : Prop
    extends Plan.Straight title P where
  loop {p q : Plan} (condition : P p) (body : P q) : P (.loop p q)

namespace Form
variable {node? : Option String} {P : Plan → Prop} {i : Instruction}

theorem isPlain_of_operation {o : Operator} (operation : instruction? o = some i) : i.isPlain := by
  cases o <;> cases operation <;> rfl

theorem isPlain_push (v : Value) : (push v).isPlain := by
  cases v <;> rfl

section
variable (straight : Plan.Straight (node?.getD "") P)
include straight

theorem straight_seriesPlan {ts : List Term} (parts : ∀ t ∈ ts, P (plan node? t)) :
    P (seriesPlan node? ts) := by
  induction ts with
  | nil => exact straight.empty
  | cons t ts ih =>
    exact straight.both (parts t List.mem_cons_self)
      (ih fun u mem => parts u (List.mem_cons_of_mem t mem))

theorem straight_foldedPlan (plain : i.isPlain) (further : Bool) {ts : List Term}
    (parts : ∀ t ∈ ts, P (plan node? t)) : P (foldedPlan node? i further ts) := by
  induction ts generalizing further with
  | nil => exact straight.empty
  | cons t ts ih =>
    have first := parts t List.mem_cons_self
    have later := ih true fun u mem => parts u (List.mem_cons_of_mem t mem)
    rw [foldedPlan]
    cases further with
    | false => exact straight.both first later
    | true => exact straight.both first (straight.both (straight.plain plain) later)

theorem straight_optionsPlan {ts : List Term}
    (parts : ∀ whole text d, .list whole [text, d] ∈ ts → P (plan node? text)) :
    P (optionsPlan node? ts) := by
  induction ts with
  | nil => exact straight.empty
  | cons t ts ih =>
    have later := ih fun whole text d mem => parts whole text d (List.mem_cons_of_mem t mem)
    unfold optionsPlan
    split
    · rename_i same
      cases same
      have first := parts _ _ _ List.mem_cons_self
      exact straight.both first (straight.both (straight.option _ _) later)
    · exact straight.empty

theorem straight_formPlan {place : Span} {name : String} {operands : List Term}
    (loops : Operator.ofName? name = some .whileLoop → ∀ p q, P p → P q → P (.loop p q))
    (parts : Operator.ofName? name ≠ some .choose → ∀ t ∈ operands, P (plan node? t))
    (texts : Operator.ofName? name = some .choose → ∀ whole text d,
      .list whole [text, d] ∈ operands → P (plan node? text)) :
    P (formPlan node? (.symbol place name :: operands)) := by
  unfold formPlan
  cases known : Operator.ofName? name with
  | none =>
    have operand := parts (by simp [known])
    exact straight.both (straight_seriesPlan straight operand) (straight.plain rfl)
  | some o =>
    by_cases menu : o = .choose
    · subst menu
      exact straight.both (straight_optionsPlan straight (texts known)) straight.menu
    · have operand := parts (by simp [known, menu])
      dsimp only
      split
      · split
        · exact straight.both (operand _ (by simp)) (straight.plain rfl)
        · exact straight.empty
      · split
        · exact loops known _ _ (operand _ (by simp)) (operand _ (by simp))
        · exact straight.empty
      · split
        · exact straight.both (operand _ (by simp))
            (straight.branches (operand _ (by simp)) (operand _ (by simp)))
        · exact straight.empty
      · exact straight_seriesPlan straight operand
      · split
        · exact straight.both (operand _ (by simp)) (straight.plain rfl)
        · exact straight.empty
      · exact absurd rfl menu
      · exact straight.assembly operands
      · split
        · exact straight.empty
        · rename_i i operation
          have plain := isPlain_of_operation operation
          split
          · split
            · exact operand _ (by simp)
            · exact straight.both (operand _ (by simp)) (straight.plain plain)
          · exact straight_foldedPlan straight plain false operand

theorem straight_plan (t : Term)
    (loops : (∀ p q, P p → P q → P (.loop p q)) ∨ t.WithoutLoops) : P (plan node? t) := by
  induction t using Term.induction_on_size with
  | step t ih =>
    cases t with
    | symbol => rw [plan]; exact straight.plain rfl
    | literal _ v => rw [plan]; exact straight.plain (isPlain_push v)
    | list span items =>
      rw [plan]
      rcases items with _ | ⟨head, operands⟩
      · unfold formPlan
        exact straight.empty
      · cases head with
        | literal | list =>
          unfold formPlan
          exact straight.empty
        | symbol place name =>
          have smaller {u : Term} (mem : u ∈ operands) :
              sizeOf u < sizeOf (Term.list span (.symbol place name :: operands)) := by
            have := List.sizeOf_lt_of_mem mem
            simp only [Term.list.sizeOf_spec, List.cons.sizeOf_spec]
            omega
          refine straight_formPlan straight ?_ ?_ ?_
          · intro known
            exact loops.resolve_right fun plain => plain _ Term.mem_applications_self known
          · intro other u mem
            refine ih u (smaller mem) (loops.imp_right fun plain f inside => ?_)
            exact plain f (Term.mem_applications_of_operand other mem inside)
          · intro menu whole text d mem
            refine ih text ?_ (loops.imp_right fun plain f inside => ?_)
            · have := smaller mem
              simp only [Term.list.sizeOf_spec, List.cons.sizeOf_spec] at this ⊢
              omega
            · exact plain f (Term.mem_applications_of_option menu mem inside)

end

theorem hereditary_plan (hereditary : Plan.Hereditary (node?.getD "") P) (t : Term) :
    P (plan node? t) :=
  straight_plan hereditary.toStraight t (Or.inl fun _ _ => hereditary.loop)

end Form
end Dialogue
