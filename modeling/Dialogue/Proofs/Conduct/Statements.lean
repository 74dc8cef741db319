import Dialogue.Proofs.Conduct.Chart

/-!
The code of statements is charted. A statement leads from a state in which nothing is under way to
such a state right after its code; a loop comes back to where it began, and a menu leads nowhere but
through the doors of its options.
-/
namespace Dialogue.Conduct
open Form (WellFormed plan seriesPlan optionsPlan)

namespace Setting

/-- The code of the plan stands at `a`, and all names in it are known. -/
structure Sits (g : Setting) (a : Nat) (p : Plan) : Prop where
  holds : g.program.Holds a (p.instructions g.resolve a)
  bound : ∀ r ∈ p.references a, ∃ target, g.resolve r.target = some target

/-- Control that is at `a` keeps to a chart until it comes to `b`, if it does not go through a
door. -/
def Leads (g : Setting) (a : Nat) (x : Point) (b : Nat) (y : Point) : Prop :=
  Ahead g (fun c z => c = b ∧ z = y ∨ g.Door c z) a x

/-- Nothing is in the term that may not be met in the node `node?`. -/
structure Allows (g : Setting) (node? : Option String) (t : Term) : Prop where
  plain : t.WithoutAssembly
  calls : ∀ f ∈ t.applications, Operator.ofName? f.1 = none → g.calls f.1 f.2.length
  menus : ∀ node, node? = some node → ∀ offers ∈ t.menus, offers ≠ [] → g.menus node offers

end Setting

variable {g : Setting} {a b c : Nat} {x y z : Point} {p q : Plan} {origin : Origin}
variable {i : Instruction} {node? : Option String} {node destination : String} {span place : Span}
variable {name : String} {t : Term} {ts : List Term} {offers : List Offer}

namespace Setting

theorem Sits.one (sits : g.Sits a (.one origin i)) : g.program.code[a]? = some i :=
  Plan.holds_one sits.holds

theorem Sits.reference (sits : g.Sits a (.reference origin i destination span)) :
    ∃ target, g.resolve destination = some target ∧
      g.program.code[a]? = some (i.pointed target) := by
  obtain ⟨target, bound⟩ := sits.bound _ List.mem_cons_self
  have here := sits.holds.head
  rw [show g.resolve destination = some target from bound] at here
  exact ⟨target, bound, here⟩

theorem Sits.both (sits : g.Sits a (.both p q)) : g.Sits a p ∧ g.Sits (a + p.size) q := by
  obtain ⟨first, second⟩ := Plan.holds_both sits.holds
  exact ⟨⟨first, fun r mem => sits.bound r (List.mem_append_left _ mem)⟩,
    ⟨second, fun r mem => sits.bound r (List.mem_append_right _ mem)⟩⟩

theorem Sits.loop (sits : g.Sits a (.loop p q)) :
    g.Sits a p ∧
      g.program.code[a + p.size]? = some (.jumpIfFalse (a + p.size + 1 + q.size + 1)) ∧
      g.Sits (a + p.size + 1) q ∧
      g.program.code[a + p.size + 1 + q.size]? = some (.jump a) := by
  obtain ⟨condition, test, body, back⟩ := Plan.holds_loop sits.holds
  exact ⟨⟨condition, fun r mem => sits.bound r (List.mem_append_left _ mem)⟩, test,
    ⟨body, fun r mem => sits.bound r (List.mem_append_right _ mem)⟩, back⟩

theorem Sits.branches (sits : g.Sits a (.branches p q)) :
    g.program.code[a]? = some (.jumpIfFalse (a + 1 + p.size + 1)) ∧ g.Sits (a + 1) p ∧
      g.program.code[a + 1 + p.size]? = some (.jump (a + 1 + p.size + 1 + q.size)) ∧
      g.Sits (a + 1 + p.size + 1) q := by
  obtain ⟨test, consequence, skip, alternative⟩ := Plan.holds_branches sits.holds
  exact ⟨test, ⟨consequence, fun r mem => sits.bound r (List.mem_append_left _ mem)⟩, skip,
    ⟨alternative, fun r mem => sits.bound r (List.mem_append_right _ mem)⟩⟩

theorem Leads.here : g.Leads a x a x :=
  Ahead.here (Or.inl ⟨rfl, rfl⟩)

theorem Leads.trans (first : g.Leads a x b y) (second : g.Leads b y c z) : g.Leads a x c z := by
  refine first.further fun d w at_goal => ?_
  rcases at_goal with ⟨rfl, rfl⟩ | door
  · exact second
  · exact .here (Or.inr door)

theorem Leads.behind (first : g.Leads a x b y) (second : Ahead g g.Door b y) :
    Ahead g g.Door a x := by
  refine first.further fun d w at_goal => ?_
  rcases at_goal with ⟨rfl, rfl⟩ | door
  · exact second
  · exact .here door

theorem Leads.value (formed : WellFormed x.node? .expression t)
    (holds : g.program.Holds a ((plan x.node? t).instructions g.resolve a)) :
    g.Leads a x (a + (plan x.node? t).size) (x.hold t) :=
  Ahead.way (.value formed holds Leads.here)

theorem Leads.act (act : Act g (fun c z => g.Leads c z b y) a x) : g.Leads a x b y :=
  Ahead.act act

theorem Allows.operand (allows : g.Allows node? (.list span (.symbol place name :: ts)))
    (plain : Operator.ofName? name ≠ some .choose) (operand : t ∈ ts) : g.Allows node? t := by
  have inside {f : String × List Term} (mem : f ∈ t.applications) :
      f ∈ (Term.list span (.symbol place name :: ts)).applications :=
    Term.mem_applications_of_operand plain operand mem
  refine ⟨fun f mem => allows.plain f (inside mem), fun f mem => allows.calls f (inside mem), ?_⟩
  intro node here offers mem
  obtain ⟨f, within, same⟩ := List.mem_filterMap.mp mem
  exact allows.menus node here offers (List.mem_filterMap.mpr ⟨f, inside within, same⟩)

end Setting
open Setting

theorem leads_series (parts : ∀ t ∈ ts, ∀ a, g.Sits a (plan node? t) →
      g.Leads a (.idle node?) (a + (plan node? t).size) (.idle node?))
    (sits : g.Sits a (seriesPlan node? ts)) :
    g.Leads a (.idle node?) (a + (seriesPlan node? ts).size) (.idle node?) := by
  induction ts generalizing a with
  | nil => exact .here
  | cons t ts ih =>
    obtain ⟨first, rest⟩ := sits.both
    rw [seriesPlan, Plan.size, ← Nat.add_assoc]
    exact (parts t List.mem_cons_self a first).trans
      (ih (fun u mem => parts u (List.mem_cons_of_mem t mem)) rest)

theorem leads_operands {held : List Term} (parts : ∀ t ∈ ts, WellFormed node? .expression t)
    (sits : g.Sits a (seriesPlan node? ts)) :
    g.Leads a ⟨node?, held, []⟩ (a + (seriesPlan node? ts).size) ⟨node?, held ++ ts, []⟩ := by
  induction ts generalizing a held with
  | nil =>
    rw [List.append_nil]
    exact .here
  | cons t ts ih =>
    obtain ⟨first, rest⟩ := sits.both
    rw [seriesPlan, Plan.size, ← Nat.add_assoc, List.append_cons]
    have next := Leads.value (x := ⟨node?, held, []⟩) (parts t List.mem_cons_self) first.holds
    exact next.trans (ih (fun u mem => parts u (List.mem_cons_of_mem t mem)) rest)

theorem leads_choice {rest : Plan} {option : String → Origin}
    (sits : g.Sits a
      (.both (.reference (option destination) (.pushChoice 0) destination span) rest)) :
    g.Leads a ⟨some node, [t], offers⟩ (a + 1) ⟨some node, [], offers ++ [⟨t, destination⟩]⟩ ∧
      g.Sits (a + 1) rest := by
  obtain ⟨choice, later⟩ := sits.both
  obtain ⟨target, bound, here⟩ := choice.reference
  exact ⟨.act (.choice bound here .here), later⟩

theorem leads_options
    (shaped : ∀ t ∈ ts, ∃ whole text spot target, t = .list whole [text, .symbol spot target])
    (parts : ∀ whole text spot target, .list whole [text, .symbol spot target] ∈ ts →
      WellFormed (some node) .expression text)
    (sits : g.Sits a (optionsPlan (some node) ts)) :
    g.Leads a ⟨some node, [], offers⟩ (a + (optionsPlan (some node) ts).size)
      ⟨some node, [], offers ++ Term.offers ts⟩ := by
  induction ts generalizing a offers with
  | nil =>
    rw [show Term.offers [] = [] from rfl, List.append_nil]
    exact .here
  | cons t ts ih =>
    obtain ⟨whole, text, spot, target, rfl⟩ := shaped t List.mem_cons_self
    rw [optionsPlan] at sits ⊢
    obtain ⟨value, further⟩ := sits.both
    obtain ⟨choice, rest⟩ := leads_choice further
    have first := Leads.value (x := ⟨some node, [], offers⟩) (parts _ _ _ _ List.mem_cons_self)
      value.holds
    rw [Term.offers, List.append_cons, Plan.size, Plan.size, Plan.size, ← Nat.add_assoc,
      ← Nat.add_assoc]
    exact (first.trans choice).trans (ih (fun u mem => shaped u (List.mem_cons_of_mem _ mem))
      (fun w x s d mem => parts w x s d (List.mem_cons_of_mem _ mem)) rest)

theorem offers_ne_nil (nonempty : ts ≠ [])
    (shaped : ∀ t ∈ ts, ∃ whole text spot target, t = .list whole [text, .symbol spot target]) :
    Term.offers ts ≠ [] := by
  cases ts with
  | nil => exact absurd rfl nonempty
  | cons t ts =>
    obtain ⟨whole, text, spot, target, rfl⟩ := shaped t List.mem_cons_self
    exact nofun

theorem leads_conditional {condition consequence alternative : Term}
    (known : Operator.ofName? name = some .conditional)
    (test : WellFormed node? .expression condition)
    (left : ∀ a, g.Sits a (plan node? consequence) →
      g.Leads a (.idle node?) (a + (plan node? consequence).size) (.idle node?))
    (right : ∀ a, g.Sits a (plan node? alternative) →
      g.Leads a (.idle node?) (a + (plan node? alternative).size) (.idle node?))
    (sits : g.Sits a
      (plan node? (.list span [.symbol place name, condition, consequence, alternative]))) :
    g.Leads a (.idle node?)
      (a + (plan node? (.list span [.symbol place name, condition, consequence, alternative])).size)
      (.idle node?) := by
  rw [plan, Form.formPlan_conditional known] at sits ⊢
  obtain ⟨deciding, branches⟩ := sits.both
  obtain ⟨jump, inner, skip, outer⟩ := branches.branches
  simp only [Plan.size, ← Nat.add_assoc]
  have first := Leads.value (x := .idle node?) test deciding.holds
  refine first.trans (.act (.test jump ?_ (right _ outer)))
  exact (left _ inner).trans (.act (.jump skip .here))

theorem leads_loop {condition body : Term} (known : Operator.ofName? name = some .whileLoop)
    (test : WellFormed node? .expression condition)
    (inner : ∀ a, g.Sits a (plan node? body) →
      g.Leads a (.idle node?) (a + (plan node? body).size) (.idle node?))
    (sits : g.Sits a (plan node? (.list span [.symbol place name, condition, body]))) :
    g.Leads a (.idle node?)
      (a + (plan node? (.list span [.symbol place name, condition, body])).size) (.idle node?) := by
  rw [plan, Form.formPlan_loop known] at sits ⊢
  obtain ⟨deciding, jump, within, back⟩ := sits.loop
  simp only [Plan.size, ← Nat.add_assoc]
  -- The jump at the end of the body leads back to the condition, so the loop is charted at once.
  refine .cycle (.value test deciding.holds (.act (.test jump ?_ ?_)))
  · refine (inner _ within).further fun c z at_goal => ?_
    rcases at_goal with ⟨rfl, rfl⟩ | door
    · exact .act (.jump back (.here (Or.inr ⟨rfl, rfl⟩)))
    · exact .here (Or.inl (Or.inr door))
  · exact .here (Or.inl (Or.inl ⟨rfl, rfl⟩))

theorem leads_menu {operands : List Term} (known : Operator.ofName? name = some .choose)
    (nonempty : operands ≠ [])
    (shaped : ∀ t ∈ operands, ∃ whole text spot target, t = .list whole [text, .symbol spot target])
    (parts : ∀ whole text spot target, .list whole [text, .symbol spot target] ∈ operands →
      WellFormed (some node) .expression text)
    (allows : g.Allows (some node) (.list span (.symbol place name :: operands)))
    (sits : g.Sits a (plan (some node) (.list span (.symbol place name :: operands)))) :
    g.Leads a (.idle (some node))
      (a + (plan (some node) (.list span (.symbol place name :: operands))).size)
      (.idle (some node)) := by
  rw [plan, Form.formPlan_choose known] at sits ⊢
  obtain ⟨options, shows⟩ := sits.both
  have mem : Term.offers operands ∈ (Term.list span (.symbol place name :: operands)).menus :=
    List.mem_filterMap.mpr ⟨_, Term.mem_applications_self, if_pos known⟩
  have allowed := allows.menus node rfl _ mem (offers_ne_nil nonempty shaped)
  have put : g.Leads a ⟨some node, [], []⟩ _ ⟨some node, [], [] ++ Term.offers operands⟩ :=
    leads_options shaped parts options
  rw [List.nil_append] at put
  exact put.trans (.act (.menu allowed shows.one))

/-- A statement that is accepted leads to the end of its code, where nothing is under way again. -/
theorem leads_statement {k : Class} (formed : WellFormed node? k t) (statement : k = .statement)
    (allows : g.Allows node? t) (sits : g.Sits a (plan node? t)) :
    g.Leads a (.idle node?) (a + (plan node? t).size) (.idle node?) := by
  induction formed generalizing a with
  | symbol | literal | operation => cases statement
  | conditional known test _ _ _ left right =>
    have operand {u : Term} := allows.operand (t := u) (by simp [known])
    exact leads_conditional known test (fun _ => left statement (operand (by simp)))
      (fun _ => right statement (operand (by simp))) sits
  | assign known source =>
    rw [plan, Form.formPlan_assign known] at sits ⊢
    obtain ⟨value, store⟩ := sits.both
    have first := Leads.value (x := .idle node?) source value.holds
    exact first.trans (.act (.store store.one .here))
  | loop known test _ _ inner =>
    have operand {u : Term} := allows.operand (t := u) (by simp [known])
    exact leads_loop known test (fun _ => inner rfl (operand (by simp))) sits
  | sequence known _ _ parts =>
    have operand {u : Term} := allows.operand (t := u) (by simp [known])
    rw [plan, Form.formPlan_sequence known] at sits ⊢
    exact leads_series (fun t mem _ => parts t mem rfl (operand mem)) sits
  | print known text =>
    rw [plan, Form.formPlan_print known] at sits ⊢
    obtain ⟨value, line⟩ := sits.both
    have first := Leads.value (x := .idle node?) text value.holds
    exact first.trans (.act (.line line.one .here))
  | @call _ _ _ operands unknown parts =>
    have counted := allows.calls _ Term.mem_applications_self unknown
    rw [plan, Form.formPlan_call unknown] at sits ⊢
    obtain ⟨series, call⟩ := sits.both
    have first : g.Leads a (.idle node?) _ ⟨node?, [] ++ operands, []⟩ :=
      leads_operands parts series
    exact first.trans (.act (.call counted call.one .here))
  | choose known inside nonempty shaped parts =>
    subst inside
    exact leads_menu known nonempty shaped parts allows sits
  | assembly known => exact absurd known (allows.plain _ Term.mem_applications_self)

end Dialogue.Conduct
