import Dialogue.Proofs.Script.Layout

/-!
Nodes written behind a dialogue. The next heading closes the last node with the instructions that
the end of the dialogue would have closed it with, so the plan of the dialogue comes first in the
longer one. All names that it refers to are bound in it, and what is bound later cannot bind them
anew.
-/
namespace Dialogue

theorem Plan.code_congr {resolve resolve' : String → Option Nat} {p : Plan} {start : Nat}
    (agree : ∀ r ∈ p.references start, resolve r.target = resolve' r.target) :
    p.code resolve start = p.code resolve' start := by
  induction p generalizing start with
  | empty | one | label => rfl
  | reference origin i target span =>
    have same : resolve target = resolve' target := agree _ List.mem_cons_self
    rw [code, code, same]
  | both p q first second =>
    rw [code, code, first fun r mem => agree r (List.mem_append_left _ mem),
      second fun r mem => agree r (List.mem_append_right _ mem)]
  | loop c b condition body =>
    rw [code, code, condition fun r mem => agree r (List.mem_append_left _ mem),
      body fun r mem => agree r (List.mem_append_right _ mem)]
  | branches p q consequence alternative =>
    rw [code, code, consequence fun r mem => agree r (List.mem_append_left _ mem),
      alternative fun r mem => agree r (List.mem_append_right _ mem)]

namespace Script

variable {start : Nat} {es fs : List Element} {e : Element}

/-- Whatever is read off plans part by part, later nodes add theirs behind that of the earlier
ones. -/
theorem nodesPlan_append {α : Type} (of : Nat → Plan → List α) (nothing : ∀ a, of a .empty = [])
    (both : ∀ a p q, of a (.both p q) = of a p ++ of (a + p.size) q) (ns ms : List Node) :
    of start (nodesPlan (ns ++ ms)) =
      of start (nodesPlan ns) ++ of (start + (nodesPlan ns).size) (nodesPlan ms) := by
  induction ns generalizing start with
  | nil => simp [nodesPlan, nothing, Plan.size]
  | cons n ns ih =>
    simp only [List.cons_append, nodesPlan, both, Plan.size, ih, List.append_assoc, Nat.add_assoc]

theorem sections_continued (es : List Element) (opens : e.isHeading) (rest : List Element) :
    sections (es ++ e :: rest) =
      ((sections es).1, (sections es).2 ++ (sections (e :: rest)).2) := by
  induction es with
  | nil =>
    obtain ⟨block, span⟩ := e
    cases block with
    | heading => rfl
    | _ => cases opens
  | cons u es ih =>
    obtain ⟨block, span⟩ := u
    cases block <;> simp only [List.cons_append, sections, ih]

/-- The longer dialogue has the code and the names of the shorter one, and more behind them. -/
theorem dialoguePlan_continued (es : List Element) (opens : e.isHeading) (rest : List Element) :
    ∃ further : Plan,
      (∀ resolve, (dialoguePlan (es ++ e :: rest)).code resolve 0 =
        (dialoguePlan es).code resolve 0 ++ further.code resolve (dialoguePlan es).size) ∧
      (dialoguePlan (es ++ e :: rest)).labels 0 =
        (dialoguePlan es).labels 0 ++ further.labels (dialoguePlan es).size := by
  have parts {α : Type} (of : Nat → Plan → List α) (nothing : ∀ a, of a .empty = [])
      (both : ∀ a p q, of a (.both p q) = of a p ++ of (a + p.size) q) :
      of 0 (dialoguePlan (es ++ e :: rest)) =
        of 0 (dialoguePlan es) ++
          of (dialoguePlan es).size (nodesPlan (sections (e :: rest)).2) := by
    simp only [dialoguePlan, sections_continued es opens rest, both, Plan.size,
      nodesPlan_append of nothing both, List.append_assoc, Nat.zero_add]
  exact ⟨nodesPlan (sections (e :: rest)).2,
    fun resolve => parts (Plan.code resolve) (fun _ => rfl) fun _ _ _ => rfl,
    parts Plan.labels (fun _ => rfl) fun _ _ _ => rfl⟩

/-- When nodes are written behind a dialogue that is accepted, its program is the beginning of the
new one, with every jump and every choice leading where it did, whatever names the new nodes
bind. -/
theorem program_continued {p q : Program} (compiled : compile es = .ok p)
    (continued : compile (es ++ fs) = .ok q)
    (opens : ∃ title span rest, fs = ⟨.heading 1 title, span⟩ :: rest) : p.code <+: q.code := by
  obtain ⟨title, span, rest, rfl⟩ := opens
  obtain ⟨further, code, labels⟩ :=
    dialoguePlan_continued (e := ⟨.heading 1 title, span⟩) es rfl rest
  have bound := bound_of_compile compiled
  obtain ⟨_, _, rfl⟩ := compile_ok compiled
  obtain ⟨_, _, rfl⟩ := compile_ok continued
  let resolve :=
    Fragment.address? ((dialoguePlan (es ++ ⟨.heading 1 title, span⟩ :: rest)).labels 0)
  have agree : ∀ r ∈ (dialoguePlan es).references 0,
      Fragment.address? ((dialoguePlan es).labels 0) r.target = resolve r.target := by
    intro r mem
    obtain ⟨target, known⟩ := bound r mem
    have still := Fragment.address?_append known (further.labels (dialoguePlan es).size)
    rw [← labels] at still
    rw [known]
    exact still.symm
  show (dialoguePlan es).instructions _ 0 <+: Plan.instructions resolve 0 _
  rw [Plan.instructions, Plan.instructions, Plan.code_congr agree, code, List.map_append]
  exact List.prefix_append _ _

/-- A label is bound at the end of a fence; the new node leads to it. -/
theorem program_continued_label :
    let text := "(asm (Jump End) (Label End))".toList
    let link (node : String) : Piece := ⟨.link node.toList ['?'], default⟩
    let es : List Element := [⟨.heading 1 ['A'], default⟩,
      ⟨.fence ⟨text, (⟨text, ""⟩ : Source).whole⟩, default⟩,
      ⟨.list true [⟨[link "A"], default⟩], default⟩]
    let fs : List Element := [⟨.heading 1 ['B'], default⟩, ⟨.paragraph [link "End"], default⟩]
    let p : Program :=
      ⟨0, [.enterNode "A", .jump 2, .pushString "?", .pushChoice 0, .showChoice "A",
      .exitNode "A", .endDialogue]⟩
    let q : Program := ⟨0, p.code ++ [.enterNode "B", .pushString "?", .showLine, .exitNode "B",
      .jump 2, .exitNode "B", .endDialogue]⟩
    compile es = .ok p ∧ compile (es ++ fs) = .ok q ∧ p.code <+: q.code := by
  intro text link es fs p q
  have compiled : compile es = .ok p := compile_of_toOption (by decide +kernel)
  have continued : compile (es ++ fs) = .ok q := compile_of_toOption (by decide +kernel)
  exact ⟨compiled, continued, program_continued compiled continued ⟨_, _, _, rfl⟩⟩

end Script
end Dialogue
