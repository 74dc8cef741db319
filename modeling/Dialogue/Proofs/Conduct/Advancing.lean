import Dialogue.Proofs.Conduct.Charting
import Dialogue.Proofs.Machine.Transitions
import Dialogue.Proofs.Script.Bounds

/-!
Without loops a machine goes forward until it comes through a door. Branches skip code and lead on
behind it; links and options lead to the entrances of nodes, however these are connected. So between
two entrances no instruction is executed twice, and a host that pauses the machine at each of them
gets an answer to everything it asks within as many instructions as there are, and one more.
-/
namespace Dialogue

/-- What leads back in the program leads to the entrance of a node. -/
def Program.Advances (p : Program) : Prop :=
  ∀ (k : Nat) (i : Instruction) (a : Nat), p.code[k]? = some i → i.address? = some a →
    k < a ∨ ∃ node, p.code[a]? = some (.enterNode node)

def Machine.Host.PausesAtEntrances {σ : Type} (h : Machine.Host σ) : Prop :=
  ∀ view node memory, (h.enter view node memory).1 = .pause

namespace Machine
variable {σ : Type} {m m' : Machine σ} {allowed : Nat → Prop} {n : Nat} {log : List Event}

theorem blocked_at_entrance {node : String} (pauses : m.host.PausesAtEntrances)
    (here : m.program.code[m.core.pc]? = some (.enterNode node)) : m.Blocked allowed := by
  intro next _ stepped
  have entered := step_of_request (running_of_ok stepped) (effect?_of_code here) rfl
  rw [entered, pauses] at stepped
  cases stepped

theorem Path.length_le_rest (advances : m.program.Advances) (pauses : m.host.PausesAtEntrances)
    (path : Path allowed n m log m') : n ≤ m.program.code.length - m.core.pc := by
  induction path with
  | stay => exact Nat.zero_le _
  | @step n m next _ _ _ stepped rest ih =>
    have running := running_of_ok stepped
    obtain ⟨program, host, _⟩ := step_fixed m
    rw [stepped] at program host
    cases here : m.program.code[m.core.pc]? with
    | none =>
      cases (step_outside running here).symm.trans stepped
    | some i =>
      have inside := (List.getElem?_eq_some_iff.mp here).1
      have near := (step_near running here).1.pc
      rw [stepped] at near
      have later := ih (by rw [program]; exact advances) (by rw [host]; exact pauses)
      rw [program] at later
      rcases near with behind | jumped
      · change next.core.pc = _ at behind
        omega
      · rcases advances _ i _ here jumped with forward | ⟨node, door⟩
        · change _ < next.core.pc at forward
          omega
        · -- The machine pauses where it came to, so that this step was the last one.
          have blocked : next.Blocked allowed :=
            blocked_at_entrance (by rw [host]; exact pauses) (by rw [program]; exact door)
          have := (Path.stay next).length_le blocked rest
          omega

end Machine

namespace Script
open Conduct (charted_of_compile setting)
open Machine (Event Host Natives Operation)

variable {es : List Element} {p : Program}

theorem open_dialoguePlan (es : List Element) : (dialoguePlan es).Open := by
  have nodes (ns : List Node) : (nodesPlan ns).Open := by
    induction ns with
    | nil => trivial
    | cons n ns ih => exact ⟨⟨⟨trivial, rfl⟩, open_stretchPlan _ _, rfl, rfl⟩, ih⟩
  exact ⟨open_stretchPlan _ _, nodes _⟩

theorem loopless_dialoguePlan (loopless : WithoutLoops es) : (dialoguePlan es).Loopless := by
  have stretch (node? : Option String) {es : List Element} (loopless : WithoutLoops es) :
      (stretchPlan node? es).Loopless :=
    straight_stretchPlan (Plan.straight_loopless _) es fun e mem t term =>
      Form.straight_plan (Plan.straight_loopless _) t (Or.inr (loopless e mem t term))
  have nodes {ns : List Node} (inner : ∀ n ∈ ns, WithoutLoops n.body) :
      (nodesPlan ns).Loopless := by
    induction ns with
    | nil => trivial
    | cons n ns ih =>
      have body := stretch (some n.name) (inner n List.mem_cons_self)
      exact ⟨⟨⟨trivial, trivial⟩, body, trivial, trivial⟩,
        ih fun k mem => inner k (List.mem_cons_of_mem n mem)⟩
  exact ⟨stretch none fun e mem => loopless e (mem_of_prelude mem),
    nodes fun n node e mem => loopless e (mem_of_body node mem)⟩

theorem advances_of_compile (compiled : compile es = .ok p) (plain : WithoutAssembly es)
    (loopless : WithoutLoops es) : p.Advances := by
  have charted := charted_of_compile compiled plain
  have bound := bound_of_compile compiled
  obtain ⟨_, _, program⟩ := compile_ok compiled
  let allowed (k a : Nat) := k < a ∨ ∃ node, p.code[a]? = some (.enterNode node)
  have leads : Plan.Leads allowed 0 p.code := by
    rw [program]
    refine Plan.leads_instructions (open_dialoguePlan es) (fun k a _ less _ => Or.inl less)
      (Or.inl (loopless_dialoguePlan loopless)) fun r mem => ?_
    obtain ⟨target, known⟩ := bound r mem
    rw [known]
    exact Or.inr ⟨r.target, (charted.door r.target target known).1⟩
  intro k i a here address
  have found := leads k i a here address
  rwa [Nat.zero_add] at found

/-- Where a dialogue has neither assembly nor loops and its machine is paused at the entrance of
every node, the machine answers whatever it is asked, whenever that is, after as many instructions
as there are in the program and one more. -/
theorem answers_without_loops (compiled : compile es = .ok p) (plain : WithoutAssembly es)
    (loopless : WithoutLoops es) {σ : Type} {host : Host σ} (pauses : host.PausesAtEntrances)
    {natives : Natives σ} {memory : σ} {log : List Event} {m : Machine σ}
    (reached : (Machine.new p host natives memory).Reached log m) (op : Operation) :
    ∃ r m', m.operate (p.code.length + 1) op = some (r, m') := by
  cases answer : m.operate (p.code.length + 1) op with
  | some result => exact ⟨result.1, result.2, rfl⟩
  | none =>
    obtain ⟨begun, _, _, begins, path, _⟩ := Machine.operate_unended answer
    obtain ⟨program, same, _⟩ : begun.program = p ∧ begun.host = host ∧ True := by
      obtain ⟨program, same, _⟩ := reached.fixed
      cases begins <;> exact ⟨program, same, trivial⟩
    have advances := advances_of_compile compiled plain loopless
    have short := path.length_le_rest (by rw [program]; exact advances) (by rw [same]; exact pauses)
    rw [program] at short
    omega

/-- Two nodes that lead to each other, on the way from one to the other. -/
theorem answers_without_loops_cycle :
    let link (c : Char) : Piece := ⟨.link [c] ['?'], default⟩
    let es : List Element := [⟨.heading 1 ['A'], default⟩, ⟨.paragraph [link 'B'], default⟩,
      ⟨.heading 1 ['B'], default⟩, ⟨.paragraph [link 'A'], default⟩]
    let code : List Instruction := [.enterNode "A", .pushString "?", .showLine, .exitNode "A",
      .jump 7, .exitNode "A", .endDialogue, .enterNode "B", .pushString "?", .showLine,
      .exitNode "B", .jump 0, .exitNode "B", .endDialogue]
    let host : Host Unit := { Host.patient with enter := fun _ _ _ => (.pause, ()) }
    compile es = .ok ⟨0, code⟩ ∧ ∃ r m, (Machine.new ⟨0, code⟩ host [] ()).run 1 = some (r, m) ∧
      m.status = .suspended ∧ m.core.node? = some "A" ∧
      ∃ r' m', m.operate 15 .resume = some (r', m') := by
  intro link es code host
  have compiled : compile es = .ok ⟨0, code⟩ := rfl
  have ended : ((Machine.new ⟨0, code⟩ host [] ()).run 1).map
      (fun r => (r.2.status, r.2.core.node?)) = some (.suspended, some "A") := by decide +kernel
  obtain ⟨⟨r, m⟩, run, same⟩ := Option.map_eq_some_iff.mp ended
  obtain ⟨suspended, node⟩ := Prod.mk.inj same
  obtain ⟨log, reached⟩ := (Machine.Reached.new.ran run).reached
  have answers := answers_without_loops compiled (by decide +kernel) (by decide +kernel)
    (fun _ _ _ => rfl) reached .resume
  exact ⟨compiled, r, m, run, suspended, node, answers⟩

/-- Fewer instructions may not be enough: that there is no code at all is found by executing it. -/
example : compile [] = .ok ⟨0, []⟩ ∧
    (Machine.new ⟨0, []⟩ Host.patient [] ()).operate 0 .run = none := ⟨rfl, rfl⟩

end Script
end Dialogue
