import Dialogue.Proofs.Code.Extent
import Dialogue.Proofs.Machine.Bounds
import Dialogue.Proofs.Script.Layout

/-!
A dialogue with a heading never runs off its code. Whatever its texts hold, assembly included, the
end of the last node comes after everything that a label, a loop or a branch can lead to.
-/
namespace Dialogue.Script
open Machine (Host Natives Event Operation Reply Trace)

variable {resolve : String → Option Nat} {start bound : Nat} {es : List Element}

theorem open_stretchPlan (node? : Option String) (es : List Element) :
    (stretchPlan node? es).Open :=
  hereditary_stretchPlan (Plan.hereditary_open _) es

theorem size_node (n : Node) : n.plan.size = 1 + (stretchPlan (some n.name) n.body).size + 2 := by
  simp only [Node.plan, Plan.size]
  omega

theorem below_node (n : Node) (room : start + n.plan.size ≤ bound) :
    n.plan.Below resolve start bound := by
  rw [size_node] at room
  have entrance : (Plan.both (.label n.name n.span) (.one .other (.enterNode n.name))).Below
      resolve start bound := Plan.below_of_open ⟨trivial, rfl⟩ (by simp only [Plan.size]; omega)
  have body : (stretchPlan (some n.name) n.body).Below resolve (start + 1) bound :=
    Plan.below_of_open (open_stretchPlan _ _) (by omega)
  exact entrance.both (body.both ((Plan.below_one rfl).both (Plan.below_one rfl)))

theorem below_nodes (ns : List Node) (room : start + (nodesPlan ns).size ≤ bound) :
    (nodesPlan ns).Below resolve start bound := by
  induction ns generalizing start with
  | nil => exact ⟨nofun, nofun⟩
  | cons n ns ih =>
    rw [nodesPlan, Plan.size] at room
    exact (below_node n (by omega)).both (ih (by omega))

theorem nodes_end {ns : List Node} (nonempty : ns ≠ []) (resolve : String → Option Nat)
    (start : Nat) : ((nodesPlan ns).code resolve start).getLast? = some ⟨.other, .endDialogue⟩ := by
  induction ns generalizing start with
  | nil => exact absurd rfl nonempty
  | cons n ns ih =>
    rw [nodesPlan, Plan.code, List.getLast?_append]
    by_cases last : ns = []
    · subst ns
      rw [code_node, List.getLast?_cons, List.getLast?_append]
      rfl
    · rw [ih last, Option.some_or]

theorem nodes_of_heading {e : Element} (mem : e ∈ es) (heading : e.isHeading) :
    (sections es).2 ≠ [] := by
  intro none
  have whole := sections_join es
  rw [none, List.flatMap_nil, List.append_nil] at whole
  have plain := (sections_plain es).1 e (by rw [whole]; exact mem)
  rw [plain] at heading
  cases heading

theorem sealed_of_compile {p : Program} (compiled : compile es = .ok p)
    (headed : (sections es).2 ≠ []) : p.Sealed := by
  obtain ⟨_, _, rfl⟩ := compile_ok compiled
  let names := (dialoguePlan es).labels 0
  have ends := nodes_end headed (Fragment.address? names)
    (0 + (stretchPlan none (sections es).1).size)
  have more : 0 < (nodesPlan (sections es).2).size := by
    rw [← Plan.length_code (Fragment.address? names)]
    exact List.length_pos_of_mem (List.mem_of_getLast? ends)
  have whole : (dialoguePlan es).size =
      (stretchPlan none (sections es).1).size + (nodesPlan (sections es).2).size := rfl
  have below : (dialoguePlan es).Below (Fragment.address? names) 0 (dialoguePlan es).size :=
    (Plan.below_of_open (open_stretchPlan _ _) (by omega)).both (below_nodes _ (by omega))
  refine ⟨?_, ?_, ?_⟩
  · show 0 < List.length _
    rw [Plan.length_instructions]
    omega
  · intro i mem a leads
    obtain ⟨x, placed, rfl⟩ := List.mem_map.mp mem
    show a < List.length _
    rw [Plan.length_instructions]
    rcases below.leads x placed a leads with near | ⟨name, found⟩
    · exact near
    · obtain ⟨l, bound, rfl⟩ := Option.map_eq_some_iff.mp found
      exact below.names l (List.mem_of_find?_eq_some bound)
  · show (List.map Placed.instruction ((stretchPlan none _).code (Fragment.address? names) 0 ++
      (nodesPlan _).code (Fragment.address? names) _)).getLast? = _
    rw [List.getLast?_map, List.getLast?_append, ends]
    rfl

theorem within_new (p : Program) {σ : Type} (host : Host σ) (natives : Natives σ) (memory : σ) :
    (Machine.new p host natives memory).Within :=
  ⟨nofun, nofun⟩

/-- A dialogue with a heading never runs off its code: whatever its machine is asked to do, there
is an instruction where it is to go on, and where each option of a menu leads. -/
theorem never_off_the_code {p : Program} (compiled : compile es = .ok p)
    (headed : ∃ e ∈ es, ∃ title, e.block = .heading 1 title) {σ : Type} {host : Host σ}
    {natives : Natives σ} {memory : σ} {log : List Event} {m : Machine σ}
    (reached : (Machine.new p host natives memory).Reached log m) :
    (m.status = .running ∨ m.status = .suspended → m.core.pc < p.code.length) ∧
    (m.status = .waiting → ∀ choice ∈ m.core.choices, choice.target < p.code.length) ∧
    ∀ fuel op t m', m.operate fuel op = some (.error t, m') →
      ∀ address length, t.fault ≠ .outOfBounds address length := by
  obtain ⟨e, mem, title, block⟩ := headed
  have sealed := sealed_of_compile compiled
    (nodes_of_heading mem (by simp only [Element.isHeading, block]))
  have fresh := within_new p host natives memory
  have within := reached.within sealed fresh
  have same : m.program = p := reached.fixed.1
  rw [← same]
  refine ⟨within.pc, fun _ => within.choices, fun fuel op t m' failed address length out => ?_⟩
  rcases (reached.operated failed).faults t rfl with refusal | ⟨_, before, earlier, running, step⟩
  · rcases refusal with ⟨_, _, other⟩ | ⟨_, _, other⟩
    · rw [other] at out
      cases out
    · rw [other] at out
      cases out
  · have sealed' : before.program.Sealed := by rw [earlier.fixed.1]; exact sealed
    have fault := (Machine.within_step sealed' (earlier.within sealed fresh) running).2
    rw [step] at fault
    exact fault t rfl address length out

/-- A jump to a label at the very end of its fence, with the end of the node after it. -/
theorem never_off_the_code_label :
    let text := "(asm (Jump end) (Label end))".toList
    let es : List Element := [⟨.heading 1 ['A'], default⟩,
      ⟨.fence ⟨text, (⟨text, ""⟩ : Source).whole⟩, default⟩]
    let p : Program := ⟨0, [.enterNode "A", .jump 2, .exitNode "A", .endDialogue]⟩
    let m := (Machine.new p .patient [] ()).start.2.step.2.step.2
    compile es = .ok p ∧ m.status = .running ∧ m.core.pc = 2 ∧ m.core.pc < p.code.length := by
  intro text es p m
  have compiled : compile es = .ok p := compile_of_toOption (by decide +kernel)
  have started : (Machine.new p .patient [] ()).Reached []
      (Machine.new p .patient [] ()).start.2 := .start .new rfl
  have reached := (started.step rfl).step rfl
  have within := never_off_the_code compiled ⟨_, List.mem_cons_self, ['A'], rfl⟩ reached
  exact ⟨compiled, rfl, rfl, within.1 (Or.inl rfl)⟩

end Dialogue.Script
