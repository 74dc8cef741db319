import Dialogue.Proofs.Code.Relocation
import Dialogue.Proofs.Machine.Histories
import Dialogue.Proofs.Script.Bounds
import Dialogue.Proofs.Script.Reordering

/-!
The order of the nodes after the first does not matter. Each node takes its block of code along,
and every name leads to the same place in its block; since a block ends the dialogue, control
never falls from one into the next. So the programs of the two orders are aligned, and nothing but
addresses tells them apart.
-/
namespace Dialogue.Script
open Machine (Host Natives Operation)

variable {resolve : String → Option Nat} {start : Nat} {ns : List Node} {n : Node} {p p' : Program}
  {es es' : List Element}

def place? (es : List Element) : String → Option Nat :=
  Fragment.address? ((dialoguePlan es).labels 0)

theorem instructions_node (resolve : String → Option Nat) (start : Nat) (n : Node) :
    n.plan.instructions resolve start = .enterNode n.name ::
      ((stretchPlan (some n.name) n.body).instructions resolve (start + 1) ++
        [.exitNode n.name, .endDialogue]) := by
  simp [Plan.instructions, code_node]

theorem block_ends (resolve : String → Option Nat) (start : Nat) (n : Node) :
    (n.plan.instructions resolve start)[n.plan.size - 1]? = some .endDialogue := by
  have last : (n.plan.instructions resolve start).getLast? = some .endDialogue := by
    rw [instructions_node, List.getLast?_cons, List.getLast?_append]
    rfl
  rwa [List.getLast?_eq_getElem?, Plan.length_instructions] at last

theorem moved_at {T : Nat → Nat → Prop} {code code' : List Instruction}
    (moved : List.Forall₂ (Instruction.Moved T) code code') {b b' k : Nat} (holds : p.Holds b code)
    (holds' : p'.Holds b' code') (inside : k < code.length) :
    ∃ i i', p.code[b + k]? = some i ∧ p'.code[b' + k]? = some i' ∧ i.Moved T i' := by
  have inside' : k < code'.length := by rwa [← moved.length_eq]
  rw [holds k inside, holds' k inside']
  exact ⟨_, _, List.getElem?_eq_getElem inside, List.getElem?_eq_getElem inside',
    moved.get inside inside'⟩

theorem block_stands (holds : p.Holds start ((nodesPlan ns).instructions resolve start))
    (mem : n ∈ ns) :
    ∃ b, p.Holds b (n.plan.instructions resolve b) ∧
    n.plan.labels b ⊆ (nodesPlan ns).labels start := by
  induction ns generalizing start with
  | nil => cases mem
  | cons k ns ih =>
    rw [nodesPlan, Plan.instructions_both] at holds
    rcases List.mem_cons.mp mem with rfl | later
    · exact ⟨start, holds.left, List.subset_append_left _ _⟩
    · have rest := holds.right
      rw [Plan.length_instructions] at rest
      obtain ⟨b, stands, labels⟩ := ih rest later
      exact ⟨b, stands, List.Subset.trans labels (List.subset_append_right _ _)⟩

/-- The names of a node are bound inside its block, at the same distance wherever it stands. -/
theorem node_bound_at {name : String} (mem : name ∈ n.plan.names) :
    ∃ k < n.plan.size, ∃ span, ∀ start, ⟨name, start + k, span⟩ ∈ n.plan.labels start := by
  have size := size_node n
  rcases List.mem_append.mp mem with entrance | rest
  · have same : name = n.name := List.mem_singleton.mp entrance
    exact ⟨0, by omega, n.span, fun start => by
      rw [same]; exact List.mem_append_left _ List.mem_cons_self⟩
  · have body : name ∈ (stretchPlan (some n.name) n.body).names := by
      simpa [Plan.names] using rest
    obtain ⟨k, inside, span, labelled⟩ := Plan.bound_at body
    refine ⟨1 + k, by omega, span, fun start => List.mem_append_right _ (List.mem_append_left _ ?_)⟩
    rw [← Nat.add_assoc]
    exact labelled (start + 1)

/-- The addresses that correspond when nodes change their places: those before the first heading,
and those at the same distance in the blocks of one node. -/
inductive Carried (es es' : List Element) : Nat → Nat → Prop where
  | front {k : Nat} (inside : k < (stretchPlan none (sections es).1).size) : Carried es es' k k
  | node {n : Node} {b b' k : Nat} (mem : n ∈ (sections es).2) (here : place? es n.name = some b)
      (there : place? es' n.name = some b') (inside : k < n.plan.size) :
      Carried es es' (b + k) (b' + k)

structure Laid (es : List Element) (p : Program) : Prop where
  starts : p.start = 0
  distinct : ((dialoguePlan es).labels 0).Pairwise fun k l => k.name ≠ l.name
  holds : p.Holds 0 ((dialoguePlan es).instructions (place? es) 0)
  bound : ∀ name ∈ (dialoguePlan es).targets, name ∈ (dialoguePlan es).names

theorem laid_of_compile (compiled : compile es = .ok p) : Laid es p := by
  obtain ⟨_, distinct, rfl⟩ := compile_ok compiled
  exact ⟨rfl, distinct, fun k _ => by rw [Nat.zero_add]; rfl, bound_of_target compiled⟩

namespace Laid

theorem place (laid : Laid es p) {l : Label} (mem : l ∈ (dialoguePlan es).labels 0) :
    place? es l.name = some l.address :=
  Fragment.address?_of_mem laid.distinct mem

theorem front (laid : Laid es p) :
    p.Holds 0 ((stretchPlan none (sections es).1).instructions (place? es) 0) := by
  have holds := laid.holds
  rw [dialoguePlan, Plan.instructions_both] at holds
  exact holds.left

theorem block (laid : Laid es p) (mem : n ∈ (sections es).2) :
    ∃ b, p.Holds b (n.plan.instructions (place? es) b) ∧
    n.plan.labels b ⊆ (dialoguePlan es).labels 0 ∧
      place? es n.name = some b := by
  have holds := laid.holds
  rw [dialoguePlan, Plan.instructions_both] at holds
  have back := holds.right
  rw [Plan.length_instructions] at back
  obtain ⟨b, stands, labels⟩ := block_stands back mem
  have all : n.plan.labels b ⊆ (dialoguePlan es).labels 0 :=
    List.Subset.trans labels (List.subset_append_right _ _)
  refine ⟨b, stands, all, laid.place (l := ⟨n.name, b, n.span⟩) (all ?_)⟩
  exact List.mem_append_left _ List.mem_cons_self

theorem first (laid : Laid es p) (head : (sections es).2.head? = some n) :
    place? es n.name = some (stretchPlan none (sections es).1).size := by
  have here : (sections es).2[0]? = some n := by rw [← List.head?_eq_getElem?, head]
  have entrance : place? es n.name =
      some (entry (place? es) (stretchPlan none (sections es).1).size (sections es).2 0) :=
    address_of_node laid.distinct rfl here
  rwa [entry_zero] at entrance

end Laid

/-- Two accepted dialogues with the same nodes, the first of which is the same. -/
structure Rearranged (es es' : List Element) (p p' : Program) : Prop where
  laid : Laid es p
  laid' : Laid es' p'
  reordered : Reordered es es'
  first : ∃ n, (sections es).2.head? = some n ∧ (sections es').2.head? = some n

namespace Rearranged
variable (arranged : Rearranged es es' p p')
include arranged

theorem near_front : Plan.Near (Carried es es') 0 0 (stretchPlan none (sections es).1).size := by
  intro k inside
  rw [Nat.zero_add]
  rcases Nat.lt_or_eq_of_le inside with less | rfl
  · exact .front less
  · obtain ⟨n, head, head'⟩ := arranged.first
    have here := arranged.laid.first head
    have there := arranged.laid'.first head'
    rw [arranged.reordered.front] at there
    have size := size_node n
    exact .node (k := 0) (List.mem_of_mem_head? head) here there (by omega)

theorem name_carried {name : String} (mem : name ∈ (dialoguePlan es).names) :
    ∃ a a', place? es name = some a ∧ place? es' name = some a' ∧ Carried es es' a a' := by
  rcases List.mem_append.mp mem with front | later
  · obtain ⟨k, inside, span, labelled⟩ := Plan.bound_at front
    have here := arranged.laid.place (List.mem_append_left _ (labelled 0))
    rw [← arranged.reordered.front] at labelled
    have there := arranged.laid'.place (List.mem_append_left _ (labelled 0))
    exact ⟨_, _, here, there, arranged.near_front k inside⟩
  · rw [names_nodesPlan] at later
    obtain ⟨n, within, named⟩ := List.mem_flatMap.mp later
    obtain ⟨k, inside, span, labelled⟩ := node_bound_at named
    obtain ⟨b, _, labels, here⟩ := arranged.laid.block within
    obtain ⟨b', _, labels', there⟩ :=
      arranged.laid'.block (arranged.reordered.nodes.mem_iff.mpr within)
    exact ⟨_, _, arranged.laid.place (labels (labelled b)),
      arranged.laid'.place (labels' (labelled b')),
      .node within here there inside⟩

theorem target_carried {q : Plan} (part : q.targets ⊆ (dialoguePlan es).targets) :
    ∀ name ∈ q.targets, ∃ a a', place? es name = some a ∧ place? es' name = some a' ∧
    Carried es es' a a' :=
  fun _ mem => arranged.name_carried (arranged.laid.bound _ (part mem))

theorem moved_block (mem : n ∈ (sections es).2) {b b' : Nat} (here : place? es n.name = some b)
    (there : place? es' n.name = some b') :
    List.Forall₂ (Instruction.Moved (Carried es es')) (n.plan.instructions (place? es) b)
      (n.plan.instructions (place? es') b') := by
  have size := size_node n
  have near : Plan.Near (Carried es es') (b + 1) (b' + 1)
      (stretchPlan (some n.name) n.body).size := by
    intro k inside
    rw [Nat.add_assoc, Nat.add_assoc]
    exact .node mem here there (by omega)
  have part : (stretchPlan (some n.name) n.body).targets ⊆ (dialoguePlan es).targets := by
    intro name named
    refine List.mem_append_right _ ?_
    rw [targets_nodesPlan]
    exact List.mem_flatMap.mpr ⟨n, mem, List.mem_append_right _ (List.mem_append_left _ named)⟩
  have body := Plan.moved_instructions (open_stretchPlan _ _) near (arranged.target_carried part)
  rw [instructions_node, instructions_node]
  exact .cons (.same rfl) (List.rel_append body (.cons (.same rfl) (.cons (.same rfl) .nil)))

theorem aligned : p.Aligned (Carried es es') p' := by
  have near := arranged.near_front
  constructor
  · rw [arranged.laid.starts, arranged.laid'.starts]
    exact near 0 (Nat.zero_le _)
  · intro a a' carried
    cases carried with
    | front inside =>
      have front' := arranged.laid'.front
      rw [arranged.reordered.front] at front'
      have moved := Plan.moved_instructions (open_stretchPlan _ _) near
        (arranged.target_carried (List.subset_append_left _ _))
      have pair := moved_at moved arranged.laid.front front' (by rwa [Plan.length_instructions])
      rwa [Nat.zero_add] at pair
    | node mem here there inside =>
      obtain ⟨b, stands, _, bound⟩ := arranged.laid.block mem
      obtain ⟨b', stands', _, bound'⟩ :=
        arranged.laid'.block (arranged.reordered.nodes.mem_iff.mpr mem)
      cases here.symm.trans bound
      cases there.symm.trans bound'
      have moved := arranged.moved_block mem here there
      exact moved_at moved stands stands' (by rwa [Plan.length_instructions])
  · intro a a' carried goes
    cases carried with
    | front inside =>
      have next := near _ inside
      rwa [Nat.zero_add] at next
    | @node n b b' k mem here there inside =>
      by_cases last : k + 1 = n.plan.size
      · -- The last instruction of a block ends the dialogue.
        obtain ⟨_, stands, _, bound⟩ := arranged.laid.block mem
        cases here.symm.trans bound
        have ends := block_ends (place? es) b n
        rw [← last, Nat.add_sub_cancel, ← stands k (by rwa [Plan.length_instructions])] at ends
        exact absurd ends goes
      · have next : Carried es es' (b + (k + 1)) (b' + (k + 1)) := .node mem here there (by omega)
        exact next

end Rearranged

/-- Putting the nodes after the first into another order gives a dialogue that is accepted too,
and whatever is done with the machines of the two programs, the same is seen of them but for
addresses. -/
theorem node_order_invisible {prelude : List Element} {first : Node} {further further' : List Node}
    (plain : ∀ e ∈ prelude, e.isHeading = false)
    (bodies : ∀ n ∈ first :: further, ∀ e ∈ n.body, e.isHeading = false)
    (compiled : compile (prelude ++ (first :: further).flatMap Node.elements) = .ok p)
    (permuted : further'.Perm further) :
    ∃ p', compile (prelude ++ (first :: further').flatMap Node.elements) = .ok p' ∧
      ∀ (σ : Type) (host : Host σ) (natives : Natives σ) (memory : σ)
        (ops : List (Nat × Operation)),
        Machine.history ops (Machine.new p' host natives memory) =
          Machine.history ops (Machine.new p host natives memory) := by
  have same : (first :: further').Perm (first :: further) := permuted.cons first
  have parts := sections_of_parts plain bodies
  have parts' := sections_of_parts plain fun n mem => bodies n (same.mem_iff.mp mem)
  generalize prelude ++ (first :: further).flatMap Node.elements = es at compiled parts
  generalize prelude ++ (first :: further').flatMap Node.elements = es' at parts'
  have reordered : Reordered es es' := ⟨by rw [parts, parts'], by rw [parts, parts']; exact same⟩
  obtain ⟨p', compiled'⟩ := compile_reordered reordered compiled
  have arranged : Rearranged es es' p p' := by
    refine ⟨laid_of_compile compiled, laid_of_compile compiled', reordered, first, ?_, ?_⟩
    · rw [parts, List.head?_cons]
    · rw [parts', List.head?_cons]
  refine ⟨p', compiled', ?_⟩
  intro σ host natives memory ops
  exact Machine.history_of_aligned arranged.aligned host natives memory ops

/-- A menu of two nodes, one of them with a label of its own, which change their places. -/
theorem node_order_invisible_swapped :
    let link (c : Char) : Item := ⟨[⟨.link [c] ['?'], default⟩], default⟩
    let text := "(asm (Jump end) (Label end))".toList
    let a : Node := ⟨1, ['A'], default, [⟨.list true [link 'B', link 'C'], default⟩]⟩
    let b : Node := ⟨1, ['B'], default, [⟨.fence ⟨text, (⟨text, ""⟩ : Source).whole⟩, default⟩]⟩
    let c : Node := ⟨1, ['C'], default, [⟨.paragraph [⟨.text ['!'], default⟩], default⟩]⟩
    ∃ p p', compile ([] ++ [a, b, c].flatMap Node.elements) = .ok p ∧
      compile ([] ++ [a, c, b].flatMap Node.elements) = .ok p' ∧ p'.code ≠ p.code ∧
      Machine.history [(6, .run), (4, .choose 0)] (Machine.new p' .patient [] ()) =
        Machine.history [(6, .run), (4, .choose 0)] (Machine.new p .patient [] ()) := by
  intro link text a b c
  let shown (x y : Nat) : List Instruction :=
    [.enterNode "A", .pushString "?", .pushChoice x, .pushString "?",
    .pushChoice y, .showChoice "A", .exitNode "A", .endDialogue]
  let left (x : Nat) : List Instruction :=
    [.enterNode "B", .jump (x + 2), .exitNode "B", .endDialogue]
  let right : List Instruction :=
    [.enterNode "C", .pushString "!", .showLine, .exitNode "C", .endDialogue]
  have compiled : compile ([] ++ [a, b, c].flatMap Node.elements) =
      .ok ⟨0, shown 8 12 ++ left 8 ++ right⟩ :=
    compile_of_toOption (by decide +kernel)
  have swapped : compile ([] ++ [a, c, b].flatMap Node.elements) =
      .ok ⟨0, shown 13 8 ++ right ++ left 13⟩ :=
    compile_of_toOption (by decide +kernel)
  obtain ⟨p', compiled', same⟩ :=
    node_order_invisible (by decide) (by decide) compiled (.swap b c [])
  cases swapped.symm.trans compiled'
  exact ⟨_, _, compiled, swapped, by decide, same Unit .patient [] () _⟩

end Dialogue.Script
