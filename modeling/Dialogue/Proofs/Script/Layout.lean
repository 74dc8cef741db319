import Dialogue.Proofs.Code.LinkedPlan
import Dialogue.Proofs.Code.Linking
import Dialogue.Proofs.Code.Origins
import Dialogue.Proofs.Script.Plans

/-!
Where the nodes of a dialogue stand in its program, and where its links lead. Each node has a
block of its own; blocks follow each other in the order of the headings, and the name of a node is
bound to the first address of its block.
-/
namespace Dialogue.Script
open Emit

variable {node? : Option String} {resolve : String → Option Nat} {start : Nat}

theorem fits_stretchPlan (node? : Option String) (es : List Element) :
    (stretchPlan node? es).Fits (node?.getD "") :=
  hereditary_stretchPlan (Plan.hereditary_fits _) es

theorem fits_node (n : Node) : n.plan.Fits n.name := by
  have body : (stretchPlan (some n.name) n.body).Fits n.name :=
    fits_stretchPlan (some n.name) n.body
  refine ⟨⟨trivial, Plan.fits_of_other rfl⟩, body, Or.inr ⟨rfl, fun s named => ?_⟩,
    Plan.fits_of_other rfl⟩
  exact (Option.some.inj named).symm

/-- The code of each node, the first of them standing at `start`. -/
def blocks (resolve : String → Option Nat) : Nat → List Node → List (List Placed)
  | _, [] => []
  | start, n :: ns => n.plan.code resolve start :: blocks resolve (start + n.plan.size) ns

theorem code_nodesPlan (ns : List Node) :
    (nodesPlan ns).code resolve start = (blocks resolve start ns).flatten := by
  induction ns generalizing start with
  | nil => rfl
  | cons n ns ih => rw [nodesPlan, Plan.code, ih, blocks, List.flatten_cons]

theorem code_node (n : Node) : n.plan.code resolve start = ⟨.other, .enterNode n.name⟩ ::
    ((stretchPlan (some n.name) n.body).code resolve (start + 1) ++
      [⟨.other, .exitNode n.name⟩, ⟨.other, .endDialogue⟩]) := rfl

variable {ns : List Node} {n : Node} {j : Nat}

/-- The address of the block of a node, counted from the first block. -/
def entry (resolve : String → Option Nat) (start : Nat) (ns : List Node) (j : Nat) : Nat :=
  start + ((blocks resolve start ns).take j).flatten.length

theorem entry_zero : entry resolve start ns 0 = start := rfl

theorem entry_succ (n : Node) (ns : List Node) :
    entry resolve start (n :: ns) (j + 1) = entry resolve (start + n.plan.size) ns j := by
  simp only [entry, blocks, List.take_succ_cons, List.flatten_cons, List.length_append,
    Plan.length_code, Nat.add_assoc]

theorem block_at (resolve : String → Option Nat) (start : Nat) (here : ns[j]? = some n) :
    (blocks resolve start ns)[j]? = some (n.plan.code resolve (entry resolve start ns j)) := by
  induction ns generalizing j start with
  | nil => cases here
  | cons k ns ih =>
    cases j with
    | zero => cases here; rfl
    | succ j => rw [entry_succ]; exact ih _ here

theorem label_of_node (here : ns[j]? = some n) :
    ⟨n.name, entry resolve start ns j, n.span⟩ ∈ (nodesPlan ns).labels start := by
  induction ns generalizing j start with
  | nil => cases here
  | cons k ns ih =>
    cases j with
    | zero =>
      cases here
      exact List.mem_append_left _ List.mem_cons_self
    | succ j =>
      rw [entry_succ]
      exact List.mem_append_right _ (ih here)

theorem names_sublist (ns : List Node) (start : Nat) :
    (ns.map Node.name).Sublist (((nodesPlan ns).labels start).map Label.name) := by
  induction ns generalizing start with
  | nil => exact List.Sublist.slnil
  | cons n ns ih =>
    rw [nodesPlan, Plan.labels, List.map_append, List.map_cons, ← List.singleton_append]
    refine List.Sublist.append ?_ (ih _)
    exact List.singleton_sublist.mpr (List.mem_map_of_mem List.mem_cons_self)

/-- What stands in a block between entering and leaving is what the elements of the node emit. -/
theorem stretch_of_nodes (resolve : String → Option Nat)
    (plain : ∀ n ∈ ns, ∀ e ∈ n.body, e.isHeading = false) {s : Site} {f : Fragment}
    (run : nodes ns s = (f, .ok ())) (here : ns[j]? = some n) :
    ∃ s', s'.start = entry resolve s.start ns j + 1 ∧
      stretch (some n.name) n.body s' =
        ((stretchPlan (some n.name) n.body).fragment s'.start, .ok ()) := by
  induction ns generalizing j s f with
  | nil => cases here
  | cons k ns ih =>
    obtain ⟨g, _, h, first, rest, _⟩ := bind_ok run
    cases j with
    | zero =>
      cases here
      obtain ⟨g, _, h, opened, rest, _⟩ := bind_ok first
      obtain ⟨body, _, _, inner, _, _⟩ := bind_ok rest
      have built := (builds_stretch (plain _ List.mem_cons_self)).fragment_eq inner
      refine ⟨s.after g, ?_, by rw [← built]; exact inner⟩
      rw [(builds_heading _ _ _).fragment_eq opened, entry_zero]
      rfl
    | succ j =>
      -- A node takes as much room as its plan, whatever is in it.
      have place : (s.after g).start = s.start + k.plan.size := by
        rw [(builds_node (plain k List.mem_cons_self)).fragment_eq first]
        simp [Site.after]
      rw [entry_succ, ← place]
      exact ih (fun n mem => plain n (List.mem_cons_of_mem k mem)) rest here

theorem fits_blocks {block : List Placed} (mem : block ∈ blocks resolve start ns) :
    ∀ x ∈ block, ∃ title, x.Fits resolve title := by
  induction ns generalizing start with
  | nil => cases mem
  | cons n ns ih =>
    rcases List.mem_cons.mp mem with rfl | later
    · exact fun x here => ⟨_, Plan.placed_fits (fits_node n) start x here⟩
    · exact ih later

theorem code_dialoguePlan (resolve : String → Option Nat) (es : List Element) :
    (dialoguePlan es).code resolve 0 = (stretchPlan none (sections es).1).code resolve 0 ++
      (blocks resolve (stretchPlan none (sections es).1).size (sections es).2).flatten := by
  rw [dialoguePlan, Plan.code, code_nodesPlan, Nat.zero_add]

theorem fits_dialoguePlan (es : List Element) :
    ∀ x ∈ (dialoguePlan es).code resolve 0, ∃ title, x.Fits resolve title := by
  intro x mem
  rw [code_dialoguePlan] at mem
  rcases List.mem_append.mp mem with front | back
  · exact ⟨_, Plan.placed_fits (fits_stretchPlan none _) 0 x front⟩
  · obtain ⟨block, mem, inside⟩ := List.mem_flatten.mp back
    exact fits_blocks mem x inside

theorem builds_dialogue (es : List Element) :
    Builds (do stretch none (sections es).1; nodes (sections es).2) (dialoguePlan es) :=
  .both (builds_stretch (sections_plain es).1) fun _ => builds_nodes (sections_plain es).2

theorem compile_of_toOption {es : List Element} {p : Program}
    (made : (compile es).toOption = some p) : compile es = .ok p := by
  cases result : compile es with
  | error => rw [result] at made; cases made
  | ok => rw [result] at made; cases made; rfl

theorem compile_links {es : List Element} {p : Program} (compiled : compile es = .ok p) :
    (do stretch none (sections es).1; nodes (sections es).2) .origin =
        ((dialoguePlan es).fragment 0, .ok ()) ∧
      ((dialoguePlan es).fragment 0).link = .ok p := by
  unfold compile at compiled
  cases made : elements none es .origin with
  | mk f r =>
    rw [made] at compiled
    cases r with
    | error => cases compiled
    | ok u =>
      have whole := elements_ok_iff.mp made
      rw [close, emit_pure_bind] at whole
      have laid := (builds_dialogue es).fragment_eq whole
      rw [laid] at whole compiled
      exact ⟨whole, compiled⟩

/-- A dialogue that is accepted is its plan, linked with the names it binds itself. -/
theorem compile_ok {es : List Element} {p : Program} (compiled : compile es = .ok p) :
    (∃ f, (do stretch none (sections es).1; nodes (sections es).2) .origin = (f, .ok ())) ∧
      ((dialoguePlan es).labels 0).Pairwise (fun k l => k.name ≠ l.name) ∧
      p = ⟨0, (dialoguePlan es).instructions
        (Fragment.address? ((dialoguePlan es).labels 0)) 0⟩ := by
  obtain ⟨whole, linked⟩ := compile_links compiled
  have tidy := (builds_dialogue es).tidy .origin
  rw [whole] at tidy
  exact ⟨⟨_, whole⟩, tidy.distinct, Plan.link_fragment linked⟩

theorem bound_of_compile {es : List Element} {p : Program} (compiled : compile es = .ok p) :
    ∀ r ∈ (dialoguePlan es).references 0, ∃ target,
      Fragment.address? ((dialoguePlan es).labels 0) r.target = some target := by
  have linked := (compile_links compiled).2
  unfold Fragment.link at linked
  cases resolved : ((dialoguePlan es).fragment 0).references.foldlM
      (Fragment.resolve ((dialoguePlan es).fragment 0).labels)
      ((dialoguePlan es).fragment 0).code with
  | error => rw [resolved] at linked; cases linked
  | ok => exact Fragment.bound_of_resolved resolved

theorem distinct_names {es : List Element}
    (distinct : ((dialoguePlan es).labels 0).Pairwise fun k l => k.name ≠ l.name) :
    ((sections es).2.map Node.name).Nodup := by
  have names : (((dialoguePlan es).labels 0).map Label.name).Nodup := List.pairwise_map.mpr distinct
  rw [dialoguePlan, Plan.labels, List.map_append] at names
  exact (List.nodup_append.mp names).2.1.sublist (names_sublist _ _)

theorem address_of_node {es : List Element} {size : Nat}
    (distinct : ((dialoguePlan es).labels 0).Pairwise fun k l => k.name ≠ l.name)
    (front : (stretchPlan none (sections es).1).size = size)
    (here : (sections es).2[j]? = some n) :
    Fragment.address? ((dialoguePlan es).labels 0) n.name =
      some (entry resolve size (sections es).2 j) := by
  have mem : ⟨n.name, entry resolve size (sections es).2 j, n.span⟩ ∈
      (dialoguePlan es).labels 0 := by
    rw [dialoguePlan, Plan.labels, Nat.zero_add, front]
    exact List.mem_append_right _ (label_of_node here)
  exact Fragment.address?_of_mem distinct mem

theorem flatten_at {α : Type} {xss : List (List α)} {x : α} {xs : List α}
    (here : xss[j]? = some (x :: xs)) : xss.flatten[(xss.take j).flatten.length]? = some x := by
  induction xss generalizing j with
  | nil => cases here
  | cons ys yss ih =>
    cases j with
    | zero => cases here; rfl
    | succ j =>
      rw [List.take_succ_cons, List.flatten_cons, List.flatten_cons, List.length_append,
        List.getElem?_append_right (Nat.le_add_right _ _), Nat.add_sub_cancel_left]
      exact ih here

theorem enters_at {es : List Element} (here : (sections es).2[j]? = some n) :
    ((dialoguePlan es).code resolve 0)[entry resolve (stretchPlan none (sections es).1).size
      (sections es).2 j]? = some ⟨.other, .enterNode n.name⟩ := by
  have block := block_at resolve (stretchPlan none (sections es).1).size here
  rw [code_node] at block
  have length := Plan.length_code resolve 0 (stretchPlan none (sections es).1)
  rw [code_dialoguePlan, entry, List.getElem?_append_right (by omega), length,
    Nat.add_sub_cancel_left]
  exact flatten_at block

theorem leads_to {es : List Element} {target : String} {a : Nat} (bound : resolve target = some a) :
    ∀ x ∈ (dialoguePlan es).code resolve 0,
      (x.origin = .link target → x.instruction = .jump a) ∧
      (x.origin = .item target ∨ x.origin = .option target → x.instruction = .pushChoice a) := by
  intro x mem
  obtain ⟨title, assembly | ⟨_, leads⟩⟩ := fits_dialoguePlan es x mem
  · rw [assembly]
    refine ⟨nofun, fun choice => ?_⟩
    rcases choice with item | option
    · cases item
    · cases option
  · exact leads target a bound

theorem names_its_node {title : String} (n : Node) :
    ∀ x ∈ (stretchPlan (some n.name) n.body).code resolve start, x.origin ≠ .assembly →
      x.instruction = .exitNode title ∨ x.instruction = .showChoice title → title = n.name := by
  intro x mem written within
  rcases Plan.placed_fits (fits_stretchPlan (some n.name) n.body) start x mem with
    assembly | ⟨named, _⟩
  · exact absurd assembly written
  · refine named title ?_
    rcases within with leaves | shows
    · rw [leaves]; rfl
    · rw [shows]; rfl

theorem stretches_emit {es : List Element} {f : Fragment} (resolve : String → Option Nat)
    (made : (do stretch none (sections es).1; nodes (sections es).2) .origin = (f, .ok ())) :
    stretch none (sections es).1 .origin =
      ((stretchPlan none (sections es).1).fragment 0, .ok ()) ∧
    ∀ j n, (sections es).2[j]? = some n → ∃ s,
      s.start = entry resolve (stretchPlan none (sections es).1).size (sections es).2 j + 1 ∧
      stretch (some n.name) n.body s =
        ((stretchPlan (some n.name) n.body).fragment s.start, .ok ()) := by
  obtain ⟨g, _, h, first, rest, _⟩ := bind_ok made
  have built := (builds_stretch (sections_plain es).1).fragment_eq first
  have reached : (Site.origin.after g).start = (stretchPlan none (sections es).1).size := by
    rw [built]
    simp [Site.after, Site.origin]
  refine ⟨?_, fun j n here => ?_⟩
  · rw [first, built]
    rfl
  · rw [← reached]
    exact stretch_of_nodes resolve (sections_plain es).2 rest here

/-- The program of a dialogue is what stands before the first heading and then, heading by
heading, the entrance of a node, the code of the elements up to the next heading and the way out.
No two nodes have one title, what shows a menu or leaves a node names the node it is in, and
whatever leads to a node by its title leads to its entrance. -/
theorem compile_layout {es : List Element} {p : Program} (compiled : compile es = .ok p) :
    (sections es).1 ++ (sections es).2.flatMap Node.elements = es ∧
    ∃ resolve : String → Option Nat,
      let prelude := (stretchPlan none (sections es).1).code resolve 0
      let blocks := blocks resolve (stretchPlan none (sections es).1).size (sections es).2
      p.start = 0 ∧ p.code = (prelude ++ blocks.flatten).map Placed.instruction ∧
      stretch none (sections es).1 .origin =
        ((stretchPlan none (sections es).1).fragment 0, .ok ()) ∧
      ((sections es).2.map Node.name).Nodup ∧
      ∀ j n, (sections es).2[j]? = some n →
        let entrance := (prelude ++ (blocks.take j).flatten).length
        let body := (stretchPlan (some n.name) n.body).code resolve (entrance + 1)
        blocks[j]? = some (⟨.other, .enterNode n.name⟩ ::
          (body ++ [⟨.other, .exitNode n.name⟩, ⟨.other, .endDialogue⟩])) ∧
        (∃ s, s.start = entrance + 1 ∧ stretch (some n.name) n.body s =
          ((stretchPlan (some n.name) n.body).fragment s.start, .ok ())) ∧
        (∀ x ∈ body, x.origin ≠ .assembly → ∀ title,
          x.instruction = .exitNode title ∨ x.instruction = .showChoice title → title = n.name) ∧
        p.code[entrance]? = some (.enterNode n.name) ∧
        ∀ x ∈ prelude ++ blocks.flatten,
          (x.origin = .link n.name → x.instruction = .jump entrance) ∧
          (x.origin = .item n.name ∨ x.origin = .option n.name →
            x.instruction = .pushChoice entrance) := by
  obtain ⟨⟨f, made⟩, distinct, rfl⟩ := compile_ok compiled
  let resolve := Fragment.address? ((dialoguePlan es).labels 0)
  have code := code_dialoguePlan resolve es
  obtain ⟨before, within⟩ := stretches_emit resolve made
  refine ⟨sections_join es, resolve, rfl, ?_, before, distinct_names distinct, ?_⟩
  · rw [← code]
    rfl
  intro j n here entrance body
  have place : entrance =
      entry resolve (stretchPlan none (sections es).1).size (sections es).2 j := by
    show (List.length (_ ++ _)) = _
    rw [List.length_append, Plan.length_code]
    rfl
  have block := block_at resolve (stretchPlan none (sections es).1).size here
  have bound : resolve n.name = some (entry resolve (stretchPlan none (sections es).1).size
      (sections es).2 j) := address_of_node distinct rfl here
  have entered : ((dialoguePlan es).code resolve 0)[entry resolve
      (stretchPlan none (sections es).1).size (sections es).2 j]? =
        some ⟨.other, .enterNode n.name⟩ :=
    enters_at here
  rw [← place] at block bound entered
  refine ⟨block, ?_, fun x mem written title => names_its_node n x mem written, ?_, ?_⟩
  · rw [place]
    exact within j n here
  · show ((dialoguePlan es).instructions resolve 0)[entrance]? = _
    rw [Plan.instructions, List.getElem?_map, entered]
    rfl
  · rw [← code]
    exact leads_to bound

/-- Two nodes, each of which leads to the other. -/
theorem compile_layout_cycle :
    let link (c : Char) : Piece := ⟨.link [c] ['?'], default⟩
    let es : List Element := [⟨.heading 1 ['A'], default⟩,
      ⟨.list true [⟨[link 'B'], default⟩], default⟩, ⟨.heading 1 ['B'], default⟩,
      ⟨.paragraph [link 'A'], default⟩]
    let code : List Instruction := [.enterNode "A", .pushString "?", .pushChoice 6, .showChoice "A",
      .exitNode "A", .endDialogue, .enterNode "B", .pushString "?", .showLine, .exitNode "B",
      .jump 0, .exitNode "B", .endDialogue]
    compile es = .ok ⟨0, code⟩ ∧ ["A", "B"].Nodup ∧ code[0]? = some (.enterNode "A") ∧
      code[6]? = some (.enterNode "B") := by
  intro link es code
  have compiled : compile es = .ok ⟨0, code⟩ := rfl
  obtain ⟨_, resolve, _, _, _, titles, nodes⟩ := compile_layout compiled
  exact ⟨compiled, titles, (nodes 0 _ rfl).2.2.2.1, (nodes 1 _ rfl).2.2.2.1⟩

end Dialogue.Script
