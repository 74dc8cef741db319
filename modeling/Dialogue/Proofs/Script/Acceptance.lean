import Dialogue.Proofs.Script.Fitting
import Dialogue.Proofs.Script.Reordering
import Mathlib.Data.List.Basic

/-!
The dialogues that the compiler accepts. Each element has to fit its place, which depends only on
whether a heading stands before it; no two headings have one title; and every destination is the
title of a heading, earlier or later. The compiler asks for all this at one time or another and
for nothing else.
-/
namespace Dialogue.Script
open Emit

def Element.title? (e : Element) : Option String :=
  match e.block with
  | .heading _ title => some (String.ofList title)
  | _ => none

def titles (es : List Element) : List String :=
  es.filterMap Element.title?

/-- What is asked of a dialogue, whatever finds it out. -/
structure WellMade (es : List Element) : Prop where
  fits : ∀ before e after, es = before ++ e :: after → e.Fits (before.any Element.isHeading)
  distinct : (titles es).Nodup
  bound : ∀ e ∈ es, ∀ name ∈ e.destinations, name ∈ titles es

def Node.Fits (n : Node) : Prop :=
  n.level = 1 ∧ n.title ≠ [] ∧ ∀ e ∈ n.body, e.Fits true

variable {s : Site} {f : Fragment} {u : Unit} {es : List Element} {n : Node} {name : String}
  {inside : Bool}

theorem fits_of_heading {level : Nat} {title : String} {span : Span}
    (run : heading none level title span s = (f, .ok u)) : level = 1 ∧ title ≠ "" := by
  unfold heading at run
  split at run
  · cases run
  · split at run
    · cases run
    · exact ⟨Decidable.not_not.mp ‹_›, ‹_›⟩

theorem fits_of_node (plain : ∀ e ∈ n.body, e.isHeading = false)
    (unassembled : WithoutAssembly n.body) (run : n.emit s = (f, .ok u)) : n.Fits := by
  obtain ⟨_, _, _, opening, rest, _⟩ := bind_ok run
  obtain ⟨_, _, _, body, _, _⟩ := bind_ok rest
  obtain ⟨first, named⟩ := fits_of_heading opening
  exact ⟨first, by simpa [Node.name] using named, fits_of_stretch plain unassembled body⟩

theorem heading_accepted {title : String} (span : Span) (named : title ≠ "") :
    ∃ f, heading none 1 title span .origin = (f, .ok ()) := by
  unfold heading
  rw [if_neg (by simp), if_neg named]
  exact ⟨_, rfl⟩

theorem accepted_of_fits (plain : ∀ e ∈ n.body, e.isHeading = false) (fits : n.Fits) :
    ∃ f, n.emit .origin = (f, .ok ()) := by
  obtain ⟨first, named, body⟩ := fits
  have title : n.name ≠ "" := by simpa [Node.name] using named
  obtain ⟨f, opening⟩ := heading_accepted n.span title
  have inner : (stretch (some n.name) n.body).Gives () := gives_stretch plain body
  have closing : (close (some n.name)).Gives () := (gives_emit _).bind (gives_emit _)
  have rest : (do stretch (some n.name) n.body; close (some n.name)).Gives () := inner.bind closing
  obtain ⟨_, made⟩ := rest (Site.origin.after f)
  rw [← first] at opening
  exact ⟨_, bind_of_ok opening made⟩

theorem titles_eq (es : List Element) : titles es = (sections es).2.map Node.name := by
  induction es with
  | nil => rfl
  | cons e es ih =>
    obtain ⟨block, span⟩ := e
    cases block with
    | heading level title => exact congrArg (String.ofList title :: ·) ih
    | paragraph | list | fence | unsupported => exact ih

theorem forall_split_cons {α : Type} {P : List α → α → Prop} {x : α} {xs : List α} :
    (∀ before y after, x :: xs = before ++ y :: after → P before y) ↔
      P [] x ∧ ∀ before y after, xs = before ++ y :: after → P (x :: before) y := by
  constructor
  · intro all
    refine ⟨all [] x xs rfl, fun before y after split => ?_⟩
    exact all (x :: before) y after (congrArg (x :: ·) split)
  · rintro ⟨first, later⟩ before y after split
    cases before with
    | nil =>
      cases split
      exact first
    | cons z before =>
      cases split
      exact later before y after rfl

/-- Elements fit where they stand when they do stretch by stretch and node by node. -/
theorem fits_iff_sections :
    (∀ before e after, es = before ++ e :: after →
        e.Fits (inside || before.any Element.isHeading)) ↔
      (∀ e ∈ (sections es).1, e.Fits inside) ∧ ∀ n ∈ (sections es).2, n.Fits := by
  induction es generalizing inside with
  | nil =>
    refine iff_of_true ?_ ⟨List.forall_mem_nil _, List.forall_mem_nil _⟩
    intro before e after split
    cases before <;> cases split
  | cons e es ih =>
    rw [forall_split_cons, List.any_nil, Bool.or_false]
    obtain ⟨block, span⟩ := e
    cases block with
    | heading level title =>
      -- Behind a heading everything is inside a node, whatever it was before.
      have later := @ih true
      have own : Element.Fits inside ⟨.heading level title, span⟩ ↔ level = 1 ∧ title ≠ [] :=
        Iff.rfl
      simp only [List.any_cons, Element.isHeading, Bool.true_or, Bool.or_true] at later ⊢
      rw [later, own]
      simp only [sections, Node.Fits, List.forall_mem_cons, and_assoc]
      exact (and_iff_right (List.forall_mem_nil _)).symm
    | paragraph | list | fence | unsupported =>
      simp only [List.any_cons, Element.isHeading, Bool.false_or, ih, sections,
        List.forall_mem_cons, and_assoc]

theorem fits_iff :
    (∀ before e after, es = before ++ e :: after → e.Fits (before.any Element.isHeading)) ↔
      (∀ e ∈ (sections es).1, e.Fits false) ∧ ∀ n ∈ (sections es).2, n.Fits := by
  have whole := @fits_iff_sections es false
  simpa only [Bool.false_or] using whole

theorem fits_of_made (unassembled : WithoutAssembly es)
    (made : (do stretch none (sections es).1; nodes (sections es).2) s = (f, .ok u)) :
    (∀ e ∈ (sections es).1, e.Fits false) ∧ ∀ n ∈ (sections es).2, n.Fits := by
  obtain ⟨prelude, bodies⟩ := sections_plain es
  obtain ⟨_, _, _, first, rest, _⟩ := bind_ok made
  refine ⟨fits_of_stretch prelude (fun e mem => unassembled e (mem_of_prelude mem)) first,
    fun n node => ?_⟩
  obtain ⟨_, _, run⟩ := accepted_of_nodes rest n node
  exact fits_of_node (bodies n node) (fun e mem => unassembled e (mem_of_body node mem)) run

section
variable (front : ∀ e ∈ (sections es).1, e.Fits false) (back : ∀ n ∈ (sections es).2, n.Fits)
include front back

theorem names_dialoguePlan (unassembled : WithoutAssembly es) :
    (dialoguePlan es).names = titles es := by
  obtain ⟨prelude, bodies⟩ := sections_plain es
  have none : (stretchPlan none (sections es).1).names = [] :=
    names_stretchPlan prelude (fun e mem => unassembled e (mem_of_prelude mem)) front
  have one : ∀ n ∈ (sections es).2, n.plan.names = [n.name] := by
    intro n node
    have inner : (stretchPlan (some n.name) n.body).names = [] :=
      names_stretchPlan (bodies n node) (fun e mem => unassembled e (mem_of_body node mem))
        (back n node).2.2
    simp [Node.plan, Plan.names, inner]
  rw [dialoguePlan, Plan.names, none, List.nil_append, names_nodesPlan, titles_eq,
    List.map_eq_flatMap]
  exact List.flatMap_congr one

theorem mem_targets_dialoguePlan :
    name ∈ (dialoguePlan es).targets ↔ ∃ e ∈ es, name ∈ e.destinations := by
  have prelude : name ∈ (stretchPlan none (sections es).1).targets ↔ _ :=
    mem_targets_stretchPlan front
  have one : ∀ n ∈ (sections es).2,
      (name ∈ n.plan.targets ↔ ∃ e ∈ n.elements, name ∈ e.destinations) := by
    intro n node
    have body : name ∈ (stretchPlan (some n.name) n.body).targets ↔ _ :=
      mem_targets_stretchPlan (back n node).2.2
    simp [Node.plan, Plan.targets, body, Node.elements, Element.destinations]
  rw [dialoguePlan, Plan.targets, List.mem_append, prelude, targets_nodesPlan, List.mem_flatMap]
  constructor
  · rintro (⟨e, mem, leads⟩ | ⟨n, node, leads⟩)
    · exact ⟨e, mem_of_prelude mem, leads⟩
    · obtain ⟨e, inside, leads⟩ := (one n node).mp leads
      rw [← sections_join es]
      exact ⟨e, List.mem_append_right _ (List.mem_flatMap.mpr ⟨n, node, inside⟩), leads⟩
  · rintro ⟨e, mem, leads⟩
    rw [← sections_join es] at mem
    rcases List.mem_append.mp mem with first | later
    · exact Or.inl ⟨e, first, leads⟩
    · obtain ⟨n, node, inside⟩ := List.mem_flatMap.mp later
      exact Or.inr ⟨n, node, (one n node).mpr ⟨e, inside, leads⟩⟩

end

/-- Without assembly, a dialogue is accepted exactly if it is well made. -/
theorem compile_accepts_exactly (unassembled : WithoutAssembly es) :
    (∃ p, compile es = .ok p) ↔ WellMade es := by
  constructor
  · rintro ⟨p, compiled⟩
    have made := (compile_links compiled).1
    obtain ⟨front, back⟩ := fits_of_made unassembled made
    have names := names_dialoguePlan front back unassembled
    refine ⟨fits_iff.mpr ⟨front, back⟩, ?_, ?_⟩
    · rw [← names]
      exact (builds_dialogue es).names_nodup made
    · intro e mem name leads
      rw [← names]
      exact bound_of_target compiled name
        ((mem_targets_dialoguePlan front back).mpr ⟨e, mem, leads⟩)
  · intro well
    obtain ⟨front, back⟩ := fits_iff.mp well.fits
    obtain ⟨prelude, bodies⟩ := sections_plain es
    have names := names_dialoguePlan front back unassembled
    have opening : (stretch none (sections es).1).Gives () := gives_stretch prelude front
    obtain ⟨f, first⟩ := opening .origin
    -- Each node is accepted on its own; only its title can be refused for what came before it.
    refine compile_of_accepted first (fun n node => ?_) ?_ fun name mem => ?_
    · exact ⟨_, accepted_of_fits (bodies n node) (back n node)⟩
    · rw [names]
      exact well.distinct
    · obtain ⟨e, inside, leads⟩ := (mem_targets_dialoguePlan front back).mp mem
      rw [names]
      exact well.bound e inside name leads

/-- A link to a later node and a menu that leads back. Without its first heading the link stands
in no node. -/
theorem compile_accepts_exactly_cycle :
    let text := "(choose (\"Back\" A))".toList
    let es : List Element :=
      [⟨.heading 1 ['A'], default⟩, ⟨.paragraph [⟨.link ['B'] ['?'], default⟩], default⟩,
      ⟨.heading 1 ['B'], default⟩, ⟨.fence ⟨text, (⟨text, ""⟩ : Source).whole⟩, default⟩]
    WithoutAssembly es ∧ WellMade es ∧ WithoutAssembly es.tail ∧ ¬ WellMade es.tail := by
  intro text es
  have plain : WithoutAssembly es := by decide +kernel
  have plain' : WithoutAssembly es.tail := by decide +kernel
  let code : List Instruction :=
    [.enterNode "A", .pushString "?", .showLine, .exitNode "A", .jump 7,
    .exitNode "A", .endDialogue, .enterNode "B", .pushString "Back", .pushChoice 0, .showChoice "B",
    .exitNode "B", .endDialogue]
  have compiled : compile es = .ok ⟨0, code⟩ := compile_of_toOption (by decide +kernel)
  refine ⟨plain, (compile_accepts_exactly plain).mp ⟨_, compiled⟩, plain', fun well => ?_⟩
  obtain ⟨_, refused⟩ := (compile_accepts_exactly plain').mpr well
  cases refused

end Dialogue.Script
