import Dialogue.Term.Basic
import Dialogue.Term.Operator

/-!
What can be read off a term without compiling it: the forms in it, and the menus among them, each a
list of options with the text and the destination of every option.
-/
namespace Dialogue

structure Offer where
  text : Term
  destination : String
deriving Repr, Inhabited

namespace Term

mutual

/-- The name and the operands of every form in a term. An option of a menu is no form itself. -/
def applications : Term → List (String × List Term)
  | list _ (symbol _ name :: operands) =>
    (name, operands) ::
      (if Operator.ofName? name = some .choose then applicationsInOptions operands
        else applicationsIn operands)
  | _ => []

def applicationsIn : List Term → List (String × List Term)
  | [] => []
  | t :: ts => t.applications ++ applicationsIn ts

def applicationsInOptions : List Term → List (String × List Term)
  | list _ [text, _] :: ts => text.applications ++ applicationsInOptions ts
  | _ :: ts => applicationsInOptions ts
  | [] => []

end

def offers : List Term → List Offer
  | list _ [text, symbol _ destination] :: ts => ⟨text, destination⟩ :: offers ts
  | _ => []

def menus (t : Term) : List (List Offer) :=
  t.applications.filterMap fun f =>
    if Operator.ofName? f.1 = some .choose then some (offers f.2) else none

def WithoutAssembly (t : Term) : Prop :=
  ∀ f ∈ t.applications, Operator.ofName? f.1 ≠ some .assembly

instance : DecidablePred WithoutAssembly := fun t =>
  inferInstanceAs (Decidable (∀ f ∈ t.applications, Operator.ofName? f.1 ≠ some .assembly))

def WithoutLoops (t : Term) : Prop :=
  ∀ f ∈ t.applications, Operator.ofName? f.1 ≠ some .whileLoop

instance : DecidablePred WithoutLoops := fun t =>
  inferInstanceAs (Decidable (∀ f ∈ t.applications, Operator.ofName? f.1 ≠ some .whileLoop))

variable {t : Term} {ts : List Term} {span place : Span} {name : String} {f : String × List Term}

theorem mem_applications_self :
    (name, ts) ∈ (list span (symbol place name :: ts)).applications := by
  rw [applications]
  exact List.mem_cons_self

theorem mem_applicationsIn : f ∈ applicationsIn ts ↔ ∃ t ∈ ts, f ∈ t.applications := by
  induction ts with
  | nil => simp [applicationsIn]
  | cons t ts ih => simp [applicationsIn, ih]

theorem mem_applications_of_operand (other : Operator.ofName? name ≠ some .choose)
    (operand : t ∈ ts) (mem : f ∈ t.applications) :
    f ∈ (list span (symbol place name :: ts)).applications := by
  rw [applications, if_neg other]
  exact List.mem_cons_of_mem _ (mem_applicationsIn.mpr ⟨t, operand, mem⟩)

theorem mem_applications_of_option {whole : Span} {text d : Term}
    (menu : Operator.ofName? name = some .choose) (option : list whole [text, d] ∈ ts)
    (mem : f ∈ text.applications) :
    f ∈ (list span (symbol place name :: ts)).applications := by
  have texts : f ∈ applicationsInOptions ts := by
    induction ts with
    | nil => cases option
    | cons t ts ih =>
      rcases List.mem_cons.mp option with same | later
      · subst same
        rw [applicationsInOptions]
        exact List.mem_append_left _ mem
      · have further := ih later
        unfold applicationsInOptions
        split
        · rename_i same
          cases same
          exact List.mem_append_right _ further
        · rename_i same
          cases same
          exact further
        · rename_i same
          cases same
  rw [applications, if_pos menu]
  exact List.mem_cons_of_mem _ texts

theorem WithoutAssembly.operand (plain : (list span (symbol place name :: ts)).WithoutAssembly)
    (other : Operator.ofName? name ≠ some .choose) (operand : t ∈ ts) : t.WithoutAssembly :=
  fun f mem => plain f (mem_applications_of_operand other operand mem)

end Term
end Dialogue
