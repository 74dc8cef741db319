import Dialogue.Proofs.Conduct.Stack

/-!
Nodes are entered and left in turn. From the start of a dialogue its host is told of one node after
the other, entered and left, and at most once of the end, when no node is open. Links, menus and the
end of a node all leave the node that was entered last.
-/
namespace Dialogue.Conduct
open Machine (Event Host Natives Request)
open Script

def isTurn : Request → Bool
  | .enter _ | .leave _ | .finish => true
  | _ => false

def turns (log : List Event) : List Request :=
  (log.map Event.request).filter isTurn

/-- What the host is told of nodes that it has gone through. -/
def passages (nodes : List String) : List Request :=
  nodes.flatMap fun node => [.enter node, .leave node]

theorem turns_next (log : List Event) (e : Event) :
    turns (log ++ [e]) = turns log ++ [e.request].filter isTurn := by
  simp [turns]

theorem passages_next (nodes : List String) (node : String) :
    passages (nodes ++ [node]) = passages nodes ++ [.enter node, .leave node] := by
  simp [passages]

variable {g : Setting} {snug : Prop} {log : List Event}

theorem turns_of_kept (kept : Kept g snug log) (unfinished : ∀ e ∈ log, e.request ≠ .finish) :
    ∃ nodes, turns log = passages nodes ++ (openNode log).toList.map Request.enter := by
  induction kept with
  | nil => exact ⟨[], rfl⟩
  | @next log e kept fits ih =>
    obtain ⟨nodes, sofar⟩ := ih fits.unfinished
    have proper := fits.proper
    rw [turns_next, sofar, openNode_next]
    cases request : e.request with
    | nothing | line | menu | call => exact ⟨nodes, List.append_nil _⟩
    | finish => exact absurd request (unfinished e (List.mem_append_right _ List.mem_cons_self))
    | enter node =>
      rw [request] at proper
      have closed : openNode log = none := proper
      refine ⟨nodes, ?_⟩
      rw [closed]
      simp [isTurn, opens]
    | leave node =>
      rw [request] at proper
      have opened : openNode log = some node := proper.1
      refine ⟨nodes ++ [node], ?_⟩
      rw [opened, passages_next]
      simp [isTurn, opens]

theorem turns_cases (kept : Kept g snug log) :
    ∃ nodes last, turns log = passages nodes ++ last ∧
      (last = [] ∨ (∃ node, last = [.enter node]) ∨ last = [.finish]) := by
  by_cases unfinished : ∀ e ∈ log, e.request ≠ .finish
  · obtain ⟨nodes, sofar⟩ := turns_of_kept kept unfinished
    refine ⟨nodes, _, sofar, ?_⟩
    cases openNode log with
    | none => exact Or.inl rfl
    | some node => exact Or.inr (Or.inl ⟨node, rfl⟩)
  · cases kept with
    | nil => exact absurd nofun unfinished
    | @next log e kept fits =>
      obtain ⟨nodes, sofar⟩ := turns_of_kept kept fits.unfinished
      have finish : e.request = .finish := by
        by_contra going
        refine unfinished fun other mem => ?_
        rcases List.mem_append.mp mem with before | last
        · exact fits.unfinished other before
        · rw [List.mem_singleton.mp last]
          exact going
      have proper := fits.proper
      rw [finish] at proper
      have closed : openNode log = none := proper
      refine ⟨nodes, [.finish], ?_, Or.inr (Or.inr rfl)⟩
      rw [turns_next, sofar, closed, finish]
      simp [isTurn]

/-- Whatever the machine of a dialogue without assembly is asked to do, its host is told, from the
last start on, of nodes that are entered and left one after the other, and then perhaps of a node
that is entered or of the end. Whenever a node is left, it is the one that was entered last and
the one the host sees; menus are shown while a node is open; nothing comes after the end. -/
theorem nodes_bracketed {es : List Element} {p : Program} {σ : Type} {host : Host σ}
    {natives : Natives σ} {memory : σ} {m : Machine σ} (compiled : compile es = .ok p)
    (plain : WithoutAssembly es)
    (reached : (Machine.new p host natives memory).Reached log m) :
    (∃ nodes last, turns log = passages nodes ++ last ∧
      (last = [] ∨ (∃ node, last = [.enter node]) ∨ last = [.finish])) ∧
    ∀ before e after, log = before ++ e :: after →
      (∀ node, e.request = .enter node → openNode before = none) ∧
      (∀ node, e.request = .leave node →
        openNode before = some node ∧ e.view.node? = some node) ∧
      (∀ texts, e.request = .menu texts →
        ∃ node, openNode before = some node ∧ e.view.node? = some node) ∧
      (e.request = .finish → openNode before = none ∧ after = []) := by
  obtain ⟨kept, _⟩ := kept_of_compile compiled plain reached
  refine ⟨turns_cases kept, fun before e after split => ?_⟩
  have proper := (kept.fits split).proper
  refine ⟨fun node request => ?_, fun node request => ?_, fun texts request => ?_,
    fun request => ?_⟩
  · rw [request] at proper
    exact proper
  · rw [request] at proper
    exact proper
  · rw [request] at proper
    obtain ⟨node, _, opened, current, _⟩ := proper
    exact ⟨node, opened, current⟩
  · have last := kept.finished split request
    rw [request] at proper
    exact ⟨proper, last⟩

/-- A node that leads back to itself, entered for the second time. -/
theorem nodes_bracketed_cycle :
    let es : List Element := [⟨.heading 1 ['A'], default⟩,
      ⟨.paragraph [⟨.link ['A'] ['?'], default⟩], default⟩]
    let p : Program := ⟨0, [.enterNode "A", .pushString "?", .showLine, .exitNode "A", .jump 0,
      .exitNode "A", .endDialogue]⟩
    compile es = .ok p ∧ ∃ log m, (Machine.new p .patient [] ()).Reached log m ∧
      turns log = [.enter "A", .leave "A", .enter "A"] ∧
      ∀ before e after, log = before ++ e :: after → e.request = .leave "A" →
        openNode before = some "A" := by
  intro es p
  have compiled : compile es = .ok p := rfl
  have started : (Machine.new p .patient [] ()).Reached []
      (Machine.new p .patient [] ()).start.2 := .start .new rfl
  have left := ((started.step (by decide +kernel)).step (by decide +kernel)).step
    (by decide +kernel)
  have reached := ((left.step (by decide +kernel)).step (by decide +kernel)).step
    (by decide +kernel)
  have bracketed := nodes_bracketed compiled (by decide +kernel) reached
  refine ⟨compiled, _, _, reached, by decide +kernel, fun before e after split leave => ?_⟩
  exact ((bracketed.2 before e after split).2.1 "A" leave).1

end Dialogue.Conduct
