import Dialogue.Proofs.Code.Elsewhere
import Dialogue.Proofs.Script.Layout

/-!
Nodes in another order are accepted too. A node that was accepted after some nodes is accepted
after others, as long as no name is bound twice, and in any order the nodes bind the same names
and refer to the same ones.
-/
namespace Dialogue.Script
open Emit

variable {ns ns' : List Node} {n : Node} {s : Site} {f : Fragment} {es : List Element} {p : Program}

theorem names_nodesPlan (ns : List Node) :
    (nodesPlan ns).names = ns.flatMap fun n => n.plan.names := by
  induction ns with
  | nil => rfl
  | cons n ns ih => rw [nodesPlan, Plan.names, ih, List.flatMap_cons]

theorem targets_nodesPlan (ns : List Node) :
    (nodesPlan ns).targets = ns.flatMap fun n => n.plan.targets := by
  induction ns with
  | nil => rfl
  | cons n ns ih => rw [nodesPlan, Plan.targets, ih, List.flatMap_cons]

theorem accepted_of_nodes (run : nodes ns s = (f, .ok ())) :
    ∀ n ∈ ns, ∃ s f, n.emit s = (f, .ok ()) := by
  induction ns generalizing s f with
  | nil => exact nofun
  | cons k ns ih =>
    obtain ⟨g, _, h, first, rest, _⟩ := bind_ok run
    intro n mem
    rcases List.mem_cons.mp mem with rfl | later
    · exact ⟨s, g, first⟩
    · exact ih rest n later

theorem nodes_of_accepted (plain : ∀ n ∈ ns, ∀ e ∈ n.body, e.isHeading = false)
    (accepted : ∀ n ∈ ns, ∃ s f, n.emit s = (f, .ok ())) (free : s.Free (nodesPlan ns).names)
    (distinct : (nodesPlan ns).names.Nodup) :
    nodes ns s = ((nodesPlan ns).fragment s.start, .ok ()) := by
  induction ns generalizing s with
  | nil => rfl
  | cons n ns ih =>
    obtain ⟨_, _, first⟩ := accepted n List.mem_cons_self
    have opened := (builds_node (plain n List.mem_cons_self)).elsewhere first free.left
    have free' : (s.after (n.plan.fragment s.start)).Free (nodesPlan ns).names :=
      free.beyond distinct s.start rfl
    have rest := ih (fun k mem => plain k (List.mem_cons_of_mem n mem))
      (fun k mem => accepted k (List.mem_cons_of_mem n mem)) free'
      (List.nodup_append.mp distinct).2.1
    have place : (s.after (n.plan.fragment s.start)).start = s.start + n.plan.size := by
      simp [Site.after]
    rw [place] at rest
    rw [nodesPlan, Plan.fragment_both]
    exact bind_of_ok opened rest

theorem compile_of_bound
    (made : (do stretch none (sections es).1; nodes (sections es).2) .origin = (f, .ok ()))
    (bound : ∀ name ∈ (dialoguePlan es).targets, name ∈ (dialoguePlan es).names) :
    ∃ p, compile es = .ok p := by
  have whole : elements none es .origin = (f, .ok ()) := by
    rw [elements_ok_iff, close, emit_pure_bind]
    exact made
  have tidy := (builds_dialogue es).tidy .origin
  have laid : f = (dialoguePlan es).fragment 0 := (builds_dialogue es).fragment_eq made
  rw [made, laid] at tidy
  obtain ⟨code, linked, _⟩ := tidy.link_ok (by
    intro r mem
    have target : r.target ∈ (dialoguePlan es).targets := by
      rw [← Plan.targets_of_references _ 0]
      exact List.mem_map_of_mem mem
    have name := bound _ target
    rw [← Plan.names_of_labels _ 0] at name
    exact Fragment.address?_isSome_iff.mpr (List.mem_map.mp name))
  refine ⟨⟨0, code⟩, ?_⟩
  unfold compile
  rw [whole, laid]
  exact linked

/-- A dialogue is accepted when its stretch before the first heading is and each node somewhere,
as long as no name is bound twice and every name referred to is bound. -/
theorem compile_of_accepted (first : stretch none (sections es).1 .origin = (f, .ok ()))
    (accepted : ∀ n ∈ (sections es).2, ∃ s f, n.emit s = (f, .ok ()))
    (distinct : (dialoguePlan es).names.Nodup)
    (bound : ∀ name ∈ (dialoguePlan es).targets, name ∈ (dialoguePlan es).names) :
    ∃ p, compile es = .ok p := by
  have front := (builds_stretch (sections_plain es).1).fragment_eq first
  subst front
  have free : Site.origin.Free (dialoguePlan es).names := nofun
  have free' : (Site.origin.after ((stretchPlan none (sections es).1).fragment 0)).Free
      (nodesPlan (sections es).2).names := free.beyond distinct 0 rfl
  have rest := nodes_of_accepted (sections_plain es).2 accepted free'
    (List.nodup_append.mp distinct).2.1
  exact compile_of_bound (bind_of_ok first rest) bound

theorem bound_of_target (compiled : compile es = .ok p) :
    ∀ name ∈ (dialoguePlan es).targets, name ∈ (dialoguePlan es).names := by
  intro name mem
  rw [← Plan.targets_of_references _ 0] at mem
  obtain ⟨r, referred, rfl⟩ := List.mem_map.mp mem
  obtain ⟨a, found⟩ := bound_of_compile compiled r referred
  obtain ⟨l, bound, same⟩ := Fragment.address?_isSome_iff.mp (Option.isSome_of_eq_some found)
  rw [← Plan.names_of_labels _ 0, ← same]
  exact List.mem_map_of_mem bound

/-- The same dialogue with its nodes in another order. -/
structure Reordered (es es' : List Element) : Prop where
  front : (sections es').1 = (sections es).1
  nodes : (sections es').2.Perm (sections es).2

variable {es' : List Element}

theorem Reordered.names (reordered : Reordered es es') :
    (dialoguePlan es').names.Perm (dialoguePlan es).names := by
  rw [dialoguePlan, dialoguePlan, Plan.names, Plan.names, reordered.front, names_nodesPlan,
    names_nodesPlan]
  exact (reordered.nodes.flatMap_right _).append_left _

theorem Reordered.targets (reordered : Reordered es es') :
    (dialoguePlan es').targets.Perm (dialoguePlan es).targets := by
  rw [dialoguePlan, dialoguePlan, Plan.targets, Plan.targets, reordered.front, targets_nodesPlan,
    targets_nodesPlan]
  exact (reordered.nodes.flatMap_right _).append_left _

theorem compile_reordered (reordered : Reordered es es') (compiled : compile es = .ok p) :
    ∃ p', compile es' = .ok p' := by
  have made := (compile_links compiled).1
  have distinct : (dialoguePlan es').names.Nodup :=
    reordered.names.nodup_iff.mpr ((builds_dialogue es).names_nodup made)
  obtain ⟨_, _, _, first, rest, _⟩ := bind_ok made
  rw [← reordered.front] at first
  refine compile_of_accepted first (fun n mem => ?_) distinct fun name mem => ?_
  · exact accepted_of_nodes rest n (reordered.nodes.mem_iff.mp mem)
  · exact reordered.names.mem_iff.mpr
      (bound_of_target compiled name (reordered.targets.mem_iff.mp mem))

end Dialogue.Script
