import Dialogue.Proofs.Conduct.Elements
import Dialogue.Proofs.Conduct.Keeping
import Dialogue.Proofs.Script.Layout

/-!
The program of every dialogue without assembly has a chart. Since nothing but headings binds names,
whatever is referred to by name is the entrance of a node; so every way out of a node that does not
end the dialogue comes to a door, and from every door on there is a chart.
-/
namespace Dialogue.Conduct
open Emit (bind_ok)
open Script

variable {es : List Element} {p : Program} {g : Setting} {a start j : Nat} {ns : List Node}
  {n : Node}

def setting (es : List Element) (p : Program) : Setting where
  program := p
  resolve := Fragment.address? ((dialoguePlan es).labels 0)
  calls := Calls es
  menus title offers := Offers es title offers ∧ (offers = [] → ∃ e ∈ es, e.block = .list true [])
  blank := ∃ e ∈ es, e.block = .paragraph []

theorem setting_admits {e : Element} {node? : Option String} (plain : WithoutAssembly es)
    (mem : e ∈ es) (menus : ∀ node, node? = some node → ∀ offers ∈ e.menus, Offers es node offers) :
    (setting es p).Admits node? e := by
  refine ⟨plain e mem, ?_, ?_, fun block => ⟨e, mem, block⟩⟩
  · intro t term f form unknown
    exact ⟨e, mem, t, term, f, form, unknown, rfl, rfl⟩
  · intro node here offers menu bare
    exact ⟨menus node here offers menu, fun empty => ⟨e, mem, bare empty⟩⟩

theorem setting_sits (compiled : compile es = .ok p) :
    (setting es p).Sits 0 (dialoguePlan es) := by
  have bound := bound_of_compile compiled
  obtain ⟨_, _, rfl⟩ := compile_ok compiled
  refine ⟨fun k _ => ?_, bound⟩
  rw [Nat.zero_add]
  rfl

theorem sits_node (sits : g.Sits start (nodesPlan ns)) (here : ns[j]? = some n) :
    g.Sits (entry g.resolve start ns j) n.plan := by
  induction ns generalizing start j with
  | nil => cases here
  | cons k ns ih =>
    obtain ⟨first, rest⟩ := sits.both
    cases j with
    | zero => cases here; exact first
    | succ j => rw [entry_succ]; exact ih rest here

theorem node_of_label {resolve : String → Option Nat} {l : Label}
    (nameless : ∀ n ∈ ns, ∀ start, (stretchPlan (some n.name) n.body).labels start = [])
    (mem : l ∈ (nodesPlan ns).labels start) :
    ∃ j n, ns[j]? = some n ∧ l.name = n.name ∧ l.address = entry resolve start ns j := by
  induction ns generalizing start with
  | nil => cases mem
  | cons n ns ih =>
    rcases List.mem_append.mp mem with own | later
    · have only : n.plan.labels start = [⟨n.name, start, n.span⟩] := by
        show ([⟨n.name, start, n.span⟩] ++ []) ++ ((stretchPlan _ _).labels _ ++ ([] ++ [])) = _
        rw [nameless n List.mem_cons_self]
        rfl
      rw [only, List.mem_singleton] at own
      subst own
      exact ⟨0, n, rfl, rfl, rfl⟩
    · obtain ⟨j, k, here, name, address⟩ :=
        ih (fun k mem => nameless k (List.mem_cons_of_mem n mem)) later
      exact ⟨j + 1, k, here, name, by rw [entry_succ]; exact address⟩

theorem ahead_of_node {s : Site} {f : Fragment} {u : Unit}
    (plain : ∀ e ∈ n.body, e.isHeading = false)
    (run : stretch (some n.name) n.body s = (f, .ok u))
    (admits : ∀ e ∈ n.body, g.Admits (some n.name) e) (sits : g.Sits a n.plan) :
    g.program.code[a]? = some (.enterNode n.name) ∧
      Ahead g g.Door (a + 1) (.idle (some n.name)) := by
  obtain ⟨entrance, rest⟩ := sits.both
  obtain ⟨body, exit⟩ := rest.both
  obtain ⟨leave, finish⟩ := exit.both
  refine ⟨entrance.both.2.one, ?_⟩
  exact (leads_stretch plain run admits body).behind
    (.act (.leave leave.one (.act (.finish finish.one))))

theorem nameless_of_compile (compiled : compile es = .ok p) (plain : WithoutAssembly es) :
    (∀ start, (stretchPlan none (sections es).1).labels start = []) ∧
      ∀ n ∈ (sections es).2, ∀ start, (stretchPlan (some n.name) n.body).labels start = [] := by
  obtain ⟨made, _⟩ := compile_links compiled
  obtain ⟨first, rest⟩ := stretches_emit (fun _ => none) made
  obtain ⟨prelude, bodies⟩ := sections_plain es
  refine ⟨labels_stretch prelude first fun e mem => plain e (mem_of_prelude mem), ?_⟩
  intro n mem
  obtain ⟨j, here⟩ := List.getElem?_of_mem mem
  obtain ⟨_, _, run⟩ := rest j n here
  exact labels_stretch (bodies n mem) run fun e inside => plain e (mem_of_body mem inside)

/-- The program of a dialogue without assembly, from its start and behind each of its doors. -/
theorem charted_of_compile (compiled : compile es = .ok p) (plain : WithoutAssembly es) :
    Charted (setting es p) (Ahead (setting es p) (setting es p).Door) := by
  obtain ⟨made, _⟩ := compile_links compiled
  obtain ⟨_, distinct, program⟩ := compile_ok compiled
  obtain ⟨first, rest⟩ := stretches_emit (setting es p).resolve made
  obtain ⟨prelude, bodies⟩ := sections_plain es
  obtain ⟨unnamed, nameless⟩ := nameless_of_compile compiled plain
  obtain ⟨front, back⟩ := (setting_sits compiled).both
  rw [Nat.zero_add] at back
  have origin : (setting es p).program.start = 0 := by rw [program]; rfl
  apply charted_of_doors
  · rw [origin]
    have admits : ∀ e ∈ (sections es).1, (setting es p).Admits none e := fun e mem =>
      setting_admits plain (mem_of_prelude mem) nofun
    have before := leads_stretch prelude first admits front
    rw [Nat.zero_add] at before
    refine before.behind ?_
    cases headings : (sections es).2 with
    | nil =>
      -- Without a heading the program ends where its prelude does.
      refine .act (.off (List.getElem?_eq_none ?_))
      show p.code.length ≤ _
      rw [program]
      show List.length (Plan.instructions _ _ _) ≤ _
      rw [Plan.length_instructions, dialoguePlan, headings, Plan.size]
      exact Nat.le_refl _
    | cons n ns =>
      have here : (sections es).2[0]? = some n := by rw [headings]; rfl
      have bound : (setting es p).resolve n.name =
          some (entry (setting es p).resolve _ (sections es).2 0) :=
        address_of_node distinct rfl here
      rw [entry_zero] at bound
      exact .here ⟨n.name, bound, rfl⟩
  · intro name a bound
    obtain ⟨l, found, rfl⟩ := Option.map_eq_some_iff.mp bound
    have mem := List.mem_of_find?_eq_some found
    have same : l.name = name := by simpa using List.find?_some found
    rw [dialoguePlan, Plan.labels, unnamed, List.nil_append, Nat.zero_add] at mem
    obtain ⟨j, n, here, title, address⟩ : ∃ j n, _ ∧ _ ∧
        l.address = entry (setting es p).resolve _ (sections es).2 j := node_of_label nameless mem
    have node := List.mem_of_getElem? here
    obtain ⟨_, _, run⟩ := rest j n here
    have admits : ∀ e ∈ n.body, (setting es p).Admits (some n.name) e := fun e inside =>
      setting_admits plain (mem_of_body node inside) fun title known offers menu => by
        cases known
        exact ⟨n, node, rfl, e, inside, menu⟩
    rw [← same, title, address]
    exact ahead_of_node (bodies n node) run admits (sits_node back here)

end Dialogue.Conduct
