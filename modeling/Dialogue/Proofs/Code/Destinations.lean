import Dialogue.Proofs.Code.Elsewhere
import Dialogue.Proofs.Code.Language

/-!
Where the menus of a term lead. The names that the code of a well-formed term refers to are the
destinations of its menus, as they can be read off the term, and an expression has none.
-/
namespace Dialogue

namespace Term
variable {t : Term} {ts : List Term} {span place : Span} {head name : String}
  {f : String × List Term}

def destinations (t : Term) : List String :=
  t.menus.flatten.map Offer.destination

theorem mem_destinations : name ∈ t.destinations ↔ ∃ f ∈ t.applications,
    Operator.ofName? f.1 = some .choose ∧ ∃ o ∈ offers f.2, o.destination = name := by
  rw [destinations, List.mem_map]
  constructor
  · rintro ⟨o, mem, same⟩
    obtain ⟨menu, listed, inside⟩ := List.mem_flatten.mp mem
    obtain ⟨f, form, shown⟩ := List.mem_filterMap.mp listed
    split at shown
    · rename_i known
      cases shown
      exact ⟨f, form, known, o, inside, same⟩
    · cases shown
  · rintro ⟨f, form, known, o, inside, same⟩
    refine ⟨o, List.mem_flatten.mpr ⟨offers f.2, ?_, inside⟩, same⟩
    exact List.mem_filterMap.mpr ⟨f, form, if_pos known⟩

theorem mem_destinations_form (other : Operator.ofName? head ≠ some .choose) :
    name ∈ (list span (symbol place head :: ts)).destinations ↔
      ∃ t ∈ ts, name ∈ t.destinations := by
  simp only [mem_destinations]
  constructor
  · rintro ⟨f, form, known, leads⟩
    rw [applications, if_neg other] at form
    rcases List.mem_cons.mp form with rfl | inner
    · exact absurd known other
    · obtain ⟨t, operand, inside⟩ := mem_applicationsIn.mp inner
      exact ⟨t, operand, f, inside, known, leads⟩
  · rintro ⟨t, operand, f, inside, known, leads⟩
    exact ⟨f, mem_applications_of_operand other operand inside, known, leads⟩

theorem destinations_of_expression (expression : t.Expression) : ¬ name ∈ t.destinations := by
  induction expression with
  | symbol | literal =>
    rw [mem_destinations]
    rintro ⟨f, form, _⟩
    cases form
  | operation takes _ parts =>
    obtain ⟨o, i, known, operation, _⟩ := Operator.takes_iff.mp takes
    have other : some o ≠ some Operator.choose := by
      rintro ⟨⟩
      cases operation
    rw [mem_destinations_form (known ▸ other)]
    rintro ⟨t, operand, leads⟩
    exact parts t operand leads
  | conditional _ _ _ test left right =>
    rw [mem_destinations_form (by decide)]
    rintro ⟨t, operand, leads⟩
    simp only [List.mem_cons, List.not_mem_nil, or_false] at operand
    rcases operand with rfl | rfl | rfl
    · exact test leads
    · exact left leads
    · exact right leads

theorem mem_destinations_choose (options : ∀ t ∈ ts, ∃ whole text spot destination,
      t = list whole [text, symbol spot destination] ∧ text.Expression) :
    name ∈ (list span (symbol place "choose" :: ts)).destinations ↔
      ∃ o ∈ offers ts, o.destination = name := by
  have known : Operator.ofName? "choose" = some .choose := Operator.ofName?_name .choose
  -- An option is no form, so all that could hold a further menu is its text.
  have texts : ∀ f ∈ applicationsInOptions ts, Operator.ofName? f.1 = some .choose →
      ∀ o ∈ offers f.2, o.destination ≠ name := by
    induction ts with
    | nil => exact nofun
    | cons t ts ih =>
      obtain ⟨whole, text, spot, destination, rfl, expression⟩ := options t List.mem_cons_self
      intro f form choose o mem same
      rw [applicationsInOptions] at form
      rcases List.mem_append.mp form with first | later
      · exact destinations_of_expression expression
          (mem_destinations.mpr ⟨f, first, choose, o, mem, same⟩)
      · exact ih (fun u mem => options u (List.mem_cons_of_mem _ mem)) f later choose o mem same
  rw [mem_destinations]
  constructor
  · rintro ⟨f, form, choose, o, mem, same⟩
    rw [applications, if_pos known] at form
    rcases List.mem_cons.mp form with rfl | inner
    · exact ⟨o, mem, same⟩
    · exact absurd same (texts f inner choose o mem)
  · rintro ⟨o, mem, same⟩
    exact ⟨_, mem_applications_self, known, o, mem, same⟩

end Term

namespace Form
variable {node? : Option String} {t : Term} {ts : List Term} {name : String} {inside : Bool}

theorem mem_targets_seriesPlan :
    name ∈ (seriesPlan node? ts).targets ↔ ∃ t ∈ ts, name ∈ (plan node? t).targets := by
  induction ts with
  | nil => simp [seriesPlan, Plan.targets]
  | cons t ts ih => simp [seriesPlan, Plan.targets, ih]

theorem targets_foldedPlan (i : Instruction) (further : Bool)
    (parts : ∀ t ∈ ts, ¬ name ∈ (plan node? t).targets) :
    ¬ name ∈ (foldedPlan node? i further ts).targets := by
  induction ts generalizing further with
  | nil => simp [foldedPlan, Plan.targets]
  | cons t ts ih =>
    have first := parts t List.mem_cons_self
    have later := ih true fun u mem => parts u (List.mem_cons_of_mem t mem)
    rw [foldedPlan]
    cases further with
    | false => simp [Plan.targets, first, later]
    | true => simp [Plan.targets, first, later]

theorem targets_of_expression (expression : t.Expression) : ¬ name ∈ (plan node? t).targets := by
  induction expression with
  | symbol | literal =>
    rw [plan]
    exact List.not_mem_nil
  | @operation _ _ _ operands takes _ parts =>
    obtain ⟨o, i, known, operation, _⟩ := Operator.takes_iff.mp takes
    rw [plan]
    by_cases single : operands.length = 1
    · obtain ⟨operand, rfl⟩ := List.length_eq_one_iff.mp single
      have first := parts operand List.mem_cons_self
      rw [formPlan_unary known operation]
      split
      · exact first
      · simp [Plan.targets, first]
    · rw [formPlan_folded known operation single]
      exact targets_foldedPlan i false parts
  | conditional _ _ _ test left right =>
    have known : Operator.ofName? "if" = some .conditional := Operator.ofName?_name .conditional
    rw [plan, formPlan_conditional known]
    simp [Plan.targets, test, left, right]

theorem mem_targets_optionsPlan (options : ∀ t ∈ ts, ∃ whole text spot destination,
      t = .list whole [text, .symbol spot destination] ∧ text.Expression) :
    name ∈ (optionsPlan node? ts).targets ↔ ∃ o ∈ Term.offers ts, o.destination = name := by
  induction ts with
  | nil => simp [optionsPlan, Plan.targets, Term.offers]
  | cons t ts ih =>
    obtain ⟨whole, text, spot, destination, rfl, expression⟩ := options t List.mem_cons_self
    have later := ih fun u mem => options u (List.mem_cons_of_mem _ mem)
    have first : ¬ name ∈ (plan node? text).targets := targets_of_expression expression
    rw [optionsPlan, Term.offers]
    simp [Plan.targets, first, later, eq_comm]

theorem mem_targets_of_statement (statement : t.Statement inside) :
    name ∈ (plan node? t).targets ↔ name ∈ t.destinations := by
  have bare {u : Term} (expression : u.Expression) : name ∈ (plan node? u).targets ↔
      name ∈ u.destinations :=
    iff_of_false (targets_of_expression expression) (Term.destinations_of_expression expression)
  induction statement with
  | conditional test _ _ left right =>
    have known : Operator.ofName? "if" = some .conditional := Operator.ofName?_name .conditional
    rw [plan, formPlan_conditional known, Term.mem_destinations_form (by simp [known])]
    simp [Plan.targets, bare test, left, right]
  | @assign _ _ spot target _ source =>
    have known : Operator.ofName? "set!" = some .assign := Operator.ofName?_name .assign
    have assigned : ¬ name ∈ (Term.symbol spot target).destinations :=
      Term.destinations_of_expression (.symbol spot target)
    rw [plan, formPlan_assign known, Term.mem_destinations_form (by simp [known])]
    simp [Plan.targets, bare source, assigned]
  | print text =>
    have known : Operator.ofName? "print" = some .print := Operator.ofName?_name .print
    rw [plan, formPlan_print known, Term.mem_destinations_form (by simp [known])]
    simp [Plan.targets, bare text]
  | loop test _ inner =>
    have known : Operator.ofName? "while" = some .whileLoop := Operator.ofName?_name .whileLoop
    rw [plan, formPlan_loop known, Term.mem_destinations_form (by simp [known])]
    simp [Plan.targets, bare test, inner]
  | sequence _ _ parts =>
    have known : Operator.ofName? "do" = some .sequence := Operator.ofName?_name .sequence
    rw [plan, formPlan_sequence known, Term.mem_destinations_form (by simp [known]),
      mem_targets_seriesPlan]
    exact exists_congr fun t => and_congr_right fun mem => parts t mem
  | call free parts =>
    have unknown := Operator.ofName?_eq_none_iff.mpr free
    rw [plan, formPlan_call unknown, Term.mem_destinations_form (by simp [unknown])]
    rw [Plan.targets, Plan.targets, List.append_nil, mem_targets_seriesPlan]
    exact exists_congr fun t => and_congr_right fun mem => bare (parts t mem)
  | choose _ _ options =>
    have known : Operator.ofName? "choose" = some .choose := Operator.ofName?_name .choose
    rw [plan, formPlan_choose known, Plan.targets, Plan.targets, List.append_nil]
    rw [Term.mem_destinations_choose options, mem_targets_optionsPlan options]

end Form
end Dialogue
