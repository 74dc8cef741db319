import Dialogue.Proofs.Program.Listing
import Dialogue.Proofs.Script.Acceptance
import Dialogue.Proofs.Script.Layout
import Dialogue.Proofs.Term.Printing
import Dialogue.Script.Outline

/-!
The names in the program of a dialogue. They are symbols of its code and titles of its nodes. A
symbol has no blanks in it, but a title is whatever the text of a heading comes to, and that can
be more than one line. So it is up to the titles whether a listing has a line for each
instruction.
-/
namespace Dialogue

theorem Term.uses_of_read {s : Span} {t : Term} (read : Term.read s = .ok t) :
    t.Uses fun name => '\n' ∉ name.toList := by
  have regular := Term.regular_of_read read
  constructor
  · intro span name within feed
    obtain ⟨c, more, whole, plain, _⟩ := regular.1 span name within
    rw [whole] at feed
    cases plain _ feed
  · exact fun span name within => regular.2 span _ within

namespace Script
variable {allowed : String → Prop} {node? : Option String} {es : List Element} {ns : List Node}
  {e : Element}
variable {n : Node}

theorem named_choicesPlan (items : List Item) : (choicesPlan items).Named allowed := by
  induction items with
  | nil => trivial
  | cons item items ih =>
    rw [choicesPlan]
    cases onlyLink? item.pieces with
    | none => trivial
    | some link =>
      refine ⟨fun s named => ?_, rfl, ih⟩
      cases named

section
variable (words : ∀ s t, Term.read s = .ok t → t.Uses allowed)
include words

theorem named_readPlan (title : allowed (node?.getD "")) (span : Span) :
    (readPlan span (Form.plan node?)).Named allowed := by
  unfold readPlan
  cases read : Term.read span with
  | error => trivial
  | ok t => exact Form.named_plan title (words span t read)

theorem named_piecesPlan (title : allowed (node?.getD "")) (further : Bool) (ps : List Piece) :
    (piecesPlan node? further ps).Named allowed := by
  have piece : ∀ p, (piecePlan node? p).Named allowed := by
    intro p
    unfold piecePlan
    split
    · exact named_readPlan words title _
    all_goals first
      | trivial
      | intro s named
        cases named
  induction ps generalizing further with
  | nil => trivial
  | cons p ps ih =>
    rw [piecesPlan]
    cases further with
    | false => exact ⟨piece p, ih true⟩
    | true =>
      refine ⟨piece p, fun s named => ?_, ih true⟩
      cases named

theorem named_paragraphPlan (title : allowed (node?.getD "")) (ps : List Piece) :
    (paragraphPlan node? ps).Named allowed := by
  unfold paragraphPlan
  cases onlyLink? ps with
  | none =>
    refine ⟨named_piecesPlan words title false ps, fun s named => ?_⟩
    cases named
  | some link =>
    refine ⟨fun s named => ?_, fun s named => ?_, fun s named => ?_, rfl⟩
    · cases named
    · cases named
    · cases named
      exact title

theorem named_stretchPlan (node? : Option String) (title : allowed (node?.getD ""))
    (es : List Element) :
    (stretchPlan node? es).Named allowed := by
  induction es with
  | nil => trivial
  | cons e es ih =>
    refine ⟨?_, ih⟩
    obtain ⟨block, span⟩ := e
    cases block with
    | heading | unsupported => trivial
    | paragraph ps => exact named_paragraphPlan words title ps
    | list _ items =>
      refine ⟨named_choicesPlan items, fun s named => ?_⟩
      cases named
      exact title
    | fence snippet => exact named_readPlan words title snippet.span

theorem named_node (n : Node) (title : allowed n.name) : n.plan.Named allowed := by
  refine ⟨⟨trivial, fun s named => ?_⟩, named_stretchPlan words (some n.name) title n.body,
    fun s named => ?_, fun s named => ?_⟩
  · cases named
    exact title
  · cases named
    exact title
  · cases named

/-- Names in the program of a dialogue are symbols of its code or titles of its nodes. -/
theorem named_dialoguePlan (empty : allowed "") (titles : ∀ n ∈ (sections es).2, allowed n.name) :
    (dialoguePlan es).Named allowed := by
  have nodes : ∀ ns : List Node, (∀ n ∈ ns, allowed n.name) → (nodesPlan ns).Named allowed := by
    intro ns titles
    induction ns with
    | nil => trivial
    | cons n ns ih =>
      exact ⟨named_node words n (titles n List.mem_cons_self), ih fun k mem =>
        titles k (List.mem_cons_of_mem n mem)⟩
  exact ⟨named_stretchPlan words none empty _, nodes _ titles⟩

end

/-- The program of a dialogue is listed with one line for each instruction if and only if every
title of a node is on one line. -/
theorem listed_by_lines {p : Program} (compiled : compile es = .ok p) :
    p.OnePerLine ↔ ∀ title ∈ titles es, '\n' ∉ title.toList := by
  obtain ⟨_, _, rfl⟩ := compile_ok compiled
  let resolve := Fragment.address? ((dialoguePlan es).labels 0)
  rw [Program.onePerLine_iff, titles_eq, List.forall_mem_map]
  constructor
  · intro named n node
    obtain ⟨j, here⟩ := List.getElem?_of_mem node
    have entered : ⟨.other, .enterNode n.name⟩ ∈ (dialoguePlan es).code resolve 0 :=
      List.mem_of_getElem? (enters_at here)
    exact named (.enterNode n.name) (List.mem_map_of_mem entered) n.name rfl
  · intro single i mem
    obtain ⟨x, here, rfl⟩ := List.mem_map.mp mem
    have named := named_dialoguePlan (fun _ _ => Term.uses_of_read) (by decide) single
    exact Plan.named_code named 0 x here

/-- A text of two lines, which is quoted. -/
theorem listed_by_lines_quoted :
    let source : Source := ⟨"# A\n\n```\n(print \"b\nc\")\n```\n".toList, "./source"⟩
    ∃ p, program source = .ok p ∧ p.code[1]? = some (.pushString "b\nc") ∧ p.OnePerLine := by
  intro source
  let p : Program :=
    ⟨0, [.enterNode "A", .pushString "b\nc", .showLine, .exitNode "A", .endDialogue]⟩
  have compiled : program source = .ok p := compile_of_toOption (by decide +kernel)
  have single : ∀ title ∈ titles (read source), '\n' ∉ title.toList := by decide +kernel
  exact ⟨p, compiled, rfl, (listed_by_lines compiled).mpr single⟩

/-- A title with a line feed makes two lines of each instruction that names it. In a document it is
written as a reference; among the events of the document it stands between two other texts. -/
theorem title_on_two_lines :
    let source : Source := ⟨"# A&#10;B\n".toList, "./source"⟩
    let events : List Markdown.Located := [⟨.opens (.heading 1), 0, 10⟩, ⟨.text ['A'], 2, 3⟩,
      ⟨.text ['\n'], 3, 8⟩, ⟨.text ['B'], 8, 9⟩, ⟨.closes (.heading 1), 0, 10⟩]
    ∃ p, compile (outline source events) = .ok p ∧ program source = .ok p ∧
      p.code = [.enterNode "A\nB", .exitNode "A\nB", .endDialogue] ∧
      (Source.splitLines p.listing.toList).length = p.rows.length + 2 + 1 ∧ ¬ p.OnePerLine := by
  intro source events
  let p : Program := ⟨0, [.enterNode "A\nB", .exitNode "A\nB", .endDialogue]⟩
  have outlined : compile (outline source events) = .ok p := compile_of_toOption (by decide +kernel)
  have compiled : program source = .ok p := compile_of_toOption (by decide +kernel)
  have length : (Source.splitLines p.listing.toList).length = p.rows.length + 2 + 1 := by
    decide +kernel
  refine ⟨p, outlined, compiled, rfl, length, fun listed => ?_⟩
  rw [Program.OnePerLine] at listed
  rw [listed, List.length_append, List.length_singleton] at length
  omega

end Script
end Dialogue
