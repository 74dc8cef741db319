import Dialogue.Proofs.Code.Applications
import Dialogue.Proofs.Code.TermPlan
import Dialogue.Proofs.Code.WellFormed

/-!
What is planned for terms that are accepted. An expression takes up some room, and nothing but
assembly binds a name.
-/
namespace Dialogue.Form

variable {node? : Option String} {start : Nat} {k : Class} {t : Term} {ts : List Term}

theorem labels_seriesPlan (parts : ∀ t ∈ ts, ∀ start, (plan node? t).labels start = []) :
    (seriesPlan node? ts).labels start = [] := by
  induction ts generalizing start with
  | nil => rfl
  | cons t ts ih =>
    rw [seriesPlan, Plan.labels, parts t List.mem_cons_self,
      ih fun u mem => parts u (List.mem_cons_of_mem t mem)]
    rfl

theorem labels_foldedPlan {i : Instruction} {further : Bool}
    (parts : ∀ t ∈ ts, ∀ start, (plan node? t).labels start = []) :
    (foldedPlan node? i further ts).labels start = [] := by
  induction ts generalizing start further with
  | nil => rfl
  | cons t ts ih =>
    have first := parts t List.mem_cons_self
    have later : ∀ start, (foldedPlan node? i true ts).labels start = [] := fun _ =>
      ih fun u mem => parts u (List.mem_cons_of_mem t mem)
    rw [foldedPlan]
    cases further with
    | false =>
      simp only [Bool.false_eq_true, if_false, Plan.labels, first, later, List.append_nil]
    | true => simp only [if_true, Plan.labels, first, later, List.append_nil]

theorem labels_optionsPlan (parts : ∀ whole text spot target,
      .list whole [text, .symbol spot target] ∈ ts → ∀ start, (plan node? text).labels start = []) :
    (optionsPlan node? ts).labels start = [] := by
  induction ts generalizing start with
  | nil => rfl
  | cons t ts ih =>
    have later : ∀ start, (optionsPlan node? ts).labels start = [] := fun _ =>
      ih fun w x s d mem => parts w x s d (List.mem_cons_of_mem t mem)
    unfold optionsPlan
    split
    · rename_i same
      cases same
      simp only [Plan.labels, parts _ _ _ _ List.mem_cons_self, later, List.append_nil]
    · rfl

theorem withoutAssembly_of_expression (other : Class.expression = .statement) :
    t.WithoutAssembly := by
  cases other

theorem labels_of_wellFormed (formed : WellFormed node? k t)
    (plain : k = .statement → t.WithoutAssembly)
    (start : Nat) : (plan node? t).labels start = [] := by
  induction formed generalizing start with
  | symbol => rw [plan]; rfl
  | literal => rw [plan]; rfl
  | @operation _ _ _ _ _ operands known operation _ _ parts =>
    rw [plan]
    have parts := fun t mem => parts t mem withoutAssembly_of_expression
    by_cases single : operands.length = 1
    · obtain ⟨t, rfl⟩ := List.length_eq_one_iff.mp single
      have first := parts t List.mem_cons_self
      rw [formPlan_unary known operation]
      split
      · exact first start
      · rw [Plan.labels, first]
        rfl
    · rw [formPlan_folded known operation single]
      exact labels_foldedPlan parts
  | conditional known _ _ _ test left right =>
    have operand {u : Term} mem statement :=
      Term.WithoutAssembly.operand (t := u) (plain statement) (by simp [known]) mem
    rw [plan, formPlan_conditional known]
    simp only [Plan.labels, test withoutAssembly_of_expression, left (operand (by simp)),
      right (operand (by simp)), List.append_nil]
  | assign known _ source =>
    rw [plan, formPlan_assign known]
    simp only [Plan.labels, source withoutAssembly_of_expression, List.append_nil]
  | loop known _ _ test inner =>
    have operand {u : Term} mem statement :=
      Term.WithoutAssembly.operand (t := u) (plain statement) (by simp [known]) mem
    rw [plan, formPlan_loop known]
    simp only [Plan.labels, test withoutAssembly_of_expression, inner (operand (by simp)),
      List.append_nil]
  | sequence known _ _ parts =>
    rw [plan, formPlan_sequence known]
    exact labels_seriesPlan fun t mem => parts t mem fun statement =>
      Term.WithoutAssembly.operand (plain statement) (by simp [known]) mem
  | print known _ text =>
    rw [plan, formPlan_print known]
    simp only [Plan.labels, text withoutAssembly_of_expression, List.append_nil]
  | call unknown _ parts =>
    rw [plan, formPlan_call unknown]
    simp only [Plan.labels, labels_seriesPlan fun t mem =>
      parts t mem withoutAssembly_of_expression, List.append_nil]
  | choose known _ _ _ _ parts =>
    rw [plan, formPlan_choose known]
    simp only [Plan.labels, List.append_nil]
    exact labels_optionsPlan fun w x s d mem => parts w x s d mem withoutAssembly_of_expression
  | assembly known =>
    exact absurd known (plain rfl _ Term.mem_applications_self)

theorem size_pos_of_wellFormed (formed : WellFormed node? k t) (expression : k = .expression) :
    0 < (plan node? t).size := by
  induction formed with
  | symbol | literal => rw [plan]; exact Nat.one_pos
  | @operation _ _ _ o _ operands known operation counted _ parts =>
    rw [plan]
    rcases operands with _ | ⟨t, _ | ⟨u, us⟩⟩
    · cases o <;> first | cases operation; done | cases counted
    · have first := parts t List.mem_cons_self rfl
      rw [formPlan_unary known operation]
      split
      · exact first
      · exact Nat.add_pos_left first _
    · have first := parts t List.mem_cons_self rfl
      rw [formPlan_folded known operation (by simp)]
      exact Nat.add_pos_left first _
  | conditional known _ _ _ test =>
    rw [plan, formPlan_conditional known]
    exact Nat.add_pos_left (test rfl) _
  | assign | loop | sequence | print | call | choose | assembly => cases expression

end Dialogue.Form
