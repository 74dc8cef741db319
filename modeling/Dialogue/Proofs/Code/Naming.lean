import Dialogue.Proofs.Code.Heredity
import Dialogue.Proofs.Term.Subterms

/-!
The names in code. An instruction that has a name for its operand has it from a symbol in the term
that it was made for, or it is the name of the node it is in.
-/
namespace Dialogue

namespace Instruction
variable {allowed : String → Prop} {opcode : Opcode} {i : Instruction} {s : String}

def Named (allowed : String → Prop) (i : Instruction) : Prop :=
  ∀ s, i.operand? = some (.symbol s) → allowed s

theorem named_of_address (pointer : i.address?.isSome) : i.Named allowed := by
  intro s operand
  cases i <;> first | cases operand; done | cases pointer

theorem named_pointed (pointer : i.address?.isSome) (target : Nat) :
    (i.pointed target).Named allowed := by
  apply named_of_address
  rw [address?_pointed pointer target]
  rfl

theorem named_of_build? {operand? : Option Value} (built : build? opcode operand? = some i)
    (given : ∀ s, operand? = some (.symbol s) → allowed s) : i.Named allowed := by
  intro s operand
  unfold build? at built
  split at built
  · cases opcode <;> cases built <;> cases operand
  · split at built <;> cases built
    cases operand
  · split at built <;> cases built
    cases operand
  · split at built
    · cases built
      cases operand
    · obtain ⟨_, _, built⟩ := Option.bind_eq_some_iff.mp built
      cases opcode <;> cases built <;> cases operand
  · rename_i name
    have same : name = s := by
      cases opcode <;> cases built <;> cases operand <;> rfl
    exact given s (by rw [same])
  · cases built

end Instruction

namespace Plan
variable {allowed : String → Prop} {resolve : String → Option Nat} {p : Plan} {start : Nat}

def Named (allowed : String → Prop) : Plan → Prop
  | empty | label _ _ => True
  | one _ i => i.Named allowed
  | reference _ i _ _ => i.address?.isSome = true
  | both p q | loop p q | branches p q => p.Named allowed ∧ q.Named allowed

theorem named_code (named : p.Named allowed) (start : Nat) :
    ∀ x ∈ p.code resolve start, x.instruction.Named allowed := by
  have jump : ∀ a, (Instruction.jump a).Named allowed := fun _ => Instruction.named_of_address rfl
  have test : ∀ a, (Instruction.jumpIfFalse a).Named allowed :=
    fun _ => Instruction.named_of_address rfl
  induction p generalizing start with
  | empty | label => intro x mem; cases mem
  | one =>
    intro x mem
    rw [List.mem_singleton.mp mem]
    exact named
  | reference origin i target =>
    intro x mem
    rw [List.mem_singleton.mp mem]
    cases resolve target with
    | none => exact Instruction.named_of_address named
    | some a => exact Instruction.named_pointed named a
  | both p q first second =>
    intro x mem
    rcases List.mem_append.mp mem with front | back
    · exact first named.1 _ x front
    · exact second named.2 _ x back
  | loop c b condition body =>
    intro x mem
    rcases List.mem_append.mp mem with front | back
    · exact condition named.1 _ x front
    · rcases List.mem_cons.mp back with rfl | back
      · exact test _
      · rcases List.mem_append.mp back with inner | last
        · exact body named.2 _ x inner
        · rw [List.mem_singleton.mp last]
          exact jump _
  | branches p q consequence alternative =>
    intro x mem
    rcases List.mem_cons.mp mem with rfl | mem
    · exact test _
    · rcases List.mem_append.mp mem with front | back
      · exact consequence named.1 _ x front
      · rcases List.mem_cons.mp back with rfl | back
        · exact jump _
        · exact alternative named.2 _ x back

end Plan

/-- All symbols in a term are allowed, and no literal in it is a symbol. -/
structure Term.Uses (allowed : String → Prop) (t : Term) : Prop where
  symbols : ∀ span name, (Term.symbol span name).Within t → allowed name
  literals : ∀ span name, ¬ (Term.literal span (.symbol name)).Within t

variable {allowed : String → Prop} {node? : Option String} {t u : Term} {ts : List Term}
  {span place : Span}
variable {name : String} {i : Instruction}

theorem Term.Uses.item (uses : (Term.list span ts).Uses allowed) (mem : t ∈ ts) : t.Uses allowed :=
  ⟨fun s name within => uses.symbols s name (.item mem within),
    fun s name within => uses.literals s name (.item mem within)⟩

theorem Term.Uses.symbol (uses : (Term.symbol span name).Uses allowed) : allowed name :=
  uses.symbols span name .self

namespace Assembly

theorem allowed_of_operand? {operand : Option Value} (uses : ∀ t ∈ ts, t.Uses allowed)
    (written : operand? ts = some operand) (s : String) (name : operand = some (.symbol s)) :
    allowed s := by
  unfold operand? at written
  split at written
  · cases written
    cases name
  · cases written
    cases name
    exact (uses _ List.mem_cons_self).symbol
  · cases written
    cases name
    exact absurd .self ((uses _ List.mem_cons_self).literals _ _)
  · cases written

theorem named_linePlan (uses : ∀ t ∈ ts, t.Uses allowed) :
    (linePlan span name ts).Named allowed := by
  unfold linePlan
  cases written : operand? ts with
  | none => trivial
  | some operand =>
    have given := allowed_of_operand? uses written
    dsimp only
    split
    · split <;> trivial
    · cases Opcode.ofName? name with
      | none => trivial
      | some opcode =>
        dsimp only
        split
        · rename_i pointer
          exact pointer_of_ofAddress? pointer
        · trivial
        · split
          · rename_i built
            exact Instruction.named_of_build? built given
          · trivial

theorem named_plan (uses : ∀ t ∈ ts, t.Uses allowed) : (plan ts).Named allowed := by
  induction ts with
  | nil => trivial
  | cons t ts ih =>
    have first := uses t List.mem_cons_self
    have later := ih fun u mem => uses u (List.mem_cons_of_mem t mem)
    rcases t with _ | _ | ⟨span, _ | ⟨head, arguments⟩⟩
    · trivial
    · trivial
    · trivial
    · cases head with
      | symbol _ name =>
        exact ⟨named_linePlan fun u mem => first.item (List.mem_cons_of_mem _ mem), later⟩
      | literal | list => trivial

end Assembly

namespace Form

theorem named_of_operation {o : Operator} (operation : instruction? o = some i) :
    i.Named allowed := by
  intro s operand
  cases o <;> cases operation <;> cases operand

theorem named_seriesPlan (parts : ∀ t ∈ ts, (plan node? t).Named allowed) :
    (seriesPlan node? ts).Named allowed := by
  induction ts with
  | nil => trivial
  | cons t ts ih =>
    exact ⟨parts t List.mem_cons_self, ih fun u mem => parts u (List.mem_cons_of_mem t mem)⟩

theorem named_foldedPlan (named : i.Named allowed) (further : Bool)
    (parts : ∀ t ∈ ts, (plan node? t).Named allowed) :
    (foldedPlan node? i further ts).Named allowed := by
  induction ts generalizing further with
  | nil => trivial
  | cons t ts ih =>
    have first := parts t List.mem_cons_self
    have later := ih true fun u mem => parts u (List.mem_cons_of_mem t mem)
    rw [foldedPlan]
    cases further with
    | false => exact ⟨first, later⟩
    | true => exact ⟨first, named, later⟩

theorem named_optionsPlan
    (texts : ∀ whole text d, .list whole [text, d] ∈ ts → (plan node? text).Named allowed) :
    (optionsPlan node? ts).Named allowed := by
  induction ts with
  | nil => trivial
  | cons t ts ih =>
    have later := ih fun whole text d mem => texts whole text d (List.mem_cons_of_mem t mem)
    unfold optionsPlan
    split
    · rename_i same
      cases same
      exact ⟨texts _ _ _ List.mem_cons_self, rfl, later⟩
    · trivial

theorem named_formPlan (title : allowed (node?.getD "")) (head : allowed name)
    (uses : ∀ t ∈ ts, t.Uses allowed)
    (parts : ∀ u, sizeOf u < sizeOf ts → u.Uses allowed → (plan node? u).Named allowed) :
    (formPlan node? (.symbol place name :: ts)).Named allowed := by
  have operand : ∀ t ∈ ts, (plan node? t).Named allowed :=
    fun t mem => parts t (List.sizeOf_lt_of_mem mem) (uses t mem)
  unfold formPlan
  cases Operator.ofName? name with
  | none =>
    refine ⟨named_seriesPlan operand, fun s named => ?_⟩
    cases named
    exact head
  | some o =>
    dsimp only
    split
    · split
      · refine ⟨operand _ (by simp), fun s named => ?_⟩
        cases named
        exact (uses _ List.mem_cons_self).symbol
      · trivial
    · split
      · exact ⟨operand _ (by simp), operand _ (by simp)⟩
      · trivial
    · split
      · exact ⟨operand _ (by simp), operand _ (by simp), operand _ (by simp)⟩
      · trivial
    · exact named_seriesPlan operand
    · split
      · refine ⟨operand _ (by simp), fun s named => ?_⟩
        cases named
      · trivial
    · refine ⟨named_optionsPlan fun whole text d mem => parts text ?_ ?_, fun s named => ?_⟩
      · have small := List.sizeOf_lt_of_mem mem
        simp only [Term.list.sizeOf_spec, List.cons.sizeOf_spec] at small
        omega
      · exact (uses _ mem).item List.mem_cons_self
      · cases named
        exact title
    · exact Assembly.named_plan uses
    · split
      · trivial
      · rename_i i operation
        have named : i.Named allowed := named_of_operation operation
        split
        · split
          · exact operand _ (by simp)
          · exact ⟨operand _ (by simp), named⟩
        · exact named_foldedPlan named false operand

/-- The names in the code of a term are symbols in it, or the title of the node. -/
theorem named_plan (title : allowed (node?.getD "")) (uses : t.Uses allowed) :
    (plan node? t).Named allowed := by
  induction t using Term.induction_on_size with
  | step t ih =>
    cases t with
    | symbol span name =>
      rw [plan]
      intro s named
      cases named
      exact uses.symbol
    | literal span v =>
      rw [plan]
      intro s named
      cases v with
      | symbol name => exact absurd .self (uses.literals span name)
      | _ => cases named
    | list span items =>
      rw [plan]
      rcases items with _ | ⟨head, operands⟩
      · unfold formPlan
        trivial
      · cases head with
        | literal | list =>
          unfold formPlan
          trivial
        | symbol place name =>
          refine named_formPlan title (uses.item List.mem_cons_self).symbol
            (fun t mem => uses.item (List.mem_cons_of_mem _ mem)) fun u small used => ih u ?_ used
          simp only [Term.list.sizeOf_spec, List.cons.sizeOf_spec]
          omega

end Form
end Dialogue
