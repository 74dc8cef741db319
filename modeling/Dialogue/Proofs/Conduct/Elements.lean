import Dialogue.Proofs.Code.Accepted
import Dialogue.Proofs.Conduct.Statements
import Dialogue.Proofs.Script.Contents
import Dialogue.Proofs.Script.Plans

/-!
The code of a dialogue's elements is charted, and binds no names. A paragraph is the line its pieces
are joined to, or it leaves the node and goes through a door; a list is a menu of texts that are
written out; a fence is a statement.
-/
namespace Dialogue.Conduct
open Emit (bind_ok)
open Form (WellFormed foldedPlan plan)
open Script

variable {g : Setting} {a : Nat} {node? next : Option String} {node : String} {s : Site}
variable {f : Fragment} {e : Element} {es : List Element} {ps : List Piece} {ts : List Term}

def joined (ts : List Term) : Term :=
  .list default (.symbol default "concat" :: ts)

theorem wellFormed_joined (nonempty : ts ≠ []) (parts : ∀ t ∈ ts, WellFormed node? .expression t) :
    WellFormed node? .expression (joined ts) := by
  have counted : Operator.concat.arity.accepts ts.length :=
    decide_eq_true (List.length_pos_iff.mpr nonempty)
  exact .operation (Operator.ofName?_name .concat) rfl counted parts

theorem plan_joined (node? : Option String) (nonempty : ts ≠ []) (resolve : String → Option Nat)
    (start : Nat) :
    (plan node? (joined ts)).instructions resolve start =
        (foldedPlan node? .concat false ts).instructions resolve start ∧
      (plan node? (joined ts)).size = (foldedPlan node? .concat false ts).size := by
  have known : Operator.ofName? "concat" = some .concat := Operator.ofName?_name .concat
  rw [joined, plan]
  rcases ts with _ | ⟨t, _ | ⟨u, us⟩⟩
  · exact absurd rfl nonempty
  · rw [Form.formPlan_unary known rfl]
    refine ⟨?_, rfl⟩
    show _ = (Plan.both (plan node? t) .empty).instructions resolve start
    rw [Plan.instructions_both]
    exact (List.append_nil _).symm
  · rw [Form.formPlan_folded known rfl (by simp)]
    exact ⟨rfl, rfl⟩

theorem read_ok {α : Type} {span : Span} {k : Term → Emit α} {r : α}
    (run : (Emit.ofExcept (Term.read span) >>= k) s = (f, .ok r)) :
    ∃ t, Term.read span = .ok t ∧ k t s = (f, .ok r) := by
  cases read : Term.read span with
  | error => rw [read] at run; cases run
  | ok t =>
    have same : (Emit.ofExcept (.ok t) >>= k) = k t := Emit.emit_pure_bind t k
    rw [read, same] at run
    exact ⟨t, rfl, run⟩

theorem piece_ok {p : Piece} {u : Unit} (run : piece node? p s = (f, .ok u)) :
    ∃ t, p.term? = some t ∧ WellFormed node? .expression t ∧ piecePlan node? p = plan node? t := by
  unfold piece at run
  unfold Piece.term? piecePlan
  cases kind : p.inline with
  | code snippet =>
    rw [kind] at run
    obtain ⟨t, read, accepted⟩ := read_ok run
    have formed := Form.wellFormed_of_require (Form.wellFormed_of_walk node? t) accepted
    refine ⟨t, ?_, formed, ?_⟩
    · simp only [read, Except.toOption]
    · simp only [readPlan, read]
  | text s => exact ⟨_, rfl, .literal _ _, by rw [plan]; rfl⟩
  | strong opens => exact ⟨_, rfl, .literal _ _, by rw [plan]; rfl⟩
  | emphasis opens => exact ⟨_, rfl, .literal _ _, by rw [plan]; rfl⟩
  | link | unsupported => rw [kind] at run; cases run

theorem pieces_ok {further : Bool} {u : Unit} (run : pieces node? further ps s = (f, .ok u)) :
    (∀ t ∈ ps.filterMap Piece.term?, WellFormed node? .expression t) ∧
      piecesPlan node? further ps = foldedPlan node? .concat further (ps.filterMap Piece.term?) ∧
      (ps ≠ [] → ps.filterMap Piece.term? ≠ []) := by
  induction ps generalizing s f further with
  | nil => exact ⟨nofun, rfl, fun nonempty => absurd rfl nonempty⟩
  | cons p ps ih =>
    rw [pieces] at run
    obtain ⟨_, _, _, first, rest, _⟩ := bind_ok run
    have tail : ∃ s f, pieces node? true ps s = (f, .ok u) := by
      cases further with
      | false => exact ⟨_, _, rest⟩
      | true =>
        obtain ⟨_, _, _, _, rest, _⟩ := bind_ok rest
        exact ⟨_, _, rest⟩
    obtain ⟨_, _, tail⟩ := tail
    obtain ⟨t, term, formed, same⟩ := piece_ok first
    obtain ⟨parts, later, _⟩ := ih tail
    rw [List.filterMap_cons_some term]
    refine ⟨fun u mem => ?_, ?_, fun _ => List.cons_ne_nil _ _⟩
    · rcases List.mem_cons.mp mem with rfl | mem
      · exact formed
      · exact parts u mem
    · rw [piecesPlan, foldedPlan, same, later]

theorem leads_line {u : Unit}
    (run : (do pieces node? false ps; Emit.emit .showLine) s = (f, .ok u))
    (blank : ps = [] → g.blank)
    (sits : g.Sits a (.both (piecesPlan node? false ps) (.one .other .showLine))) :
    g.Leads a (.idle node?) (a + (piecesPlan node? false ps).size + 1) (.idle node?) := by
  obtain ⟨line, shows⟩ := sits.both
  obtain ⟨_, _, _, first, _, _⟩ := bind_ok run
  obtain ⟨parts, same, nonempty⟩ := pieces_ok first
  by_cases empty : ps = []
  · subst empty
    exact .act (.blank (blank rfl) shows.one .here)
  · have formed := wellFormed_joined (nonempty empty) parts
    obtain ⟨code, size⟩ := plan_joined node? (nonempty empty) g.resolve a
    rw [same, ← size] at shows ⊢
    have holds := line.holds
    rw [same, ← code] at holds
    have value := Setting.Leads.value (x := .idle node?) formed holds
    exact value.trans (.act (.line shows.one .here))

theorem leads_text {x : Point} {text : String} (place : Span)
    (sits : g.Sits a (.one .other (.pushString text))) :
    g.Leads a x (a + 1) (x.hold (.literal place (.string text))) := by
  have code : plan x.node? (.literal place (.string text)) = .one .other (.pushString text) := by
    rw [plan]
    rfl
  have holds := sits.holds
  rw [← code] at holds
  have value := Setting.Leads.value (.literal place (.string text)) holds
  rw [code] at value
  exact value

theorem leads_link {b : Nat} {y : Point} {destination text : String} {place : Span}
    (sits : g.Sits a (.both (.one .other (.pushString text)) (.both (.one .other .showLine)
      (.both (.one .other (.exitNode node))
        (.reference (.link destination) (.jump 0) destination place))))) :
    g.Leads a (.idle (some node)) b y := by
  obtain ⟨push, rest⟩ := sits.both
  obtain ⟨line, rest⟩ := rest.both
  obtain ⟨leave, jump⟩ := rest.both
  obtain ⟨target, bound, here⟩ := jump.reference
  have text := leads_text (x := .idle (some node)) place push
  refine text.trans (.act (.line line.one (.act (.leave leave.one (.act (.jump here ?_))))))
  exact Ahead.here (Or.inr ⟨destination, bound, rfl⟩)

theorem leads_items {items : List Item} {offers : List Offer} {u : Unit}
    (run : choices items s = (f, .ok u)) (sits : g.Sits a (choicesPlan items)) :
    g.Leads a ⟨some node, [], offers⟩ (a + (choicesPlan items).size)
        ⟨some node, [], offers ++ items.filterMap Item.offer?⟩ ∧
      (items.filterMap Item.offer? = [] → items = []) := by
  induction items generalizing a s f offers with
  | nil =>
    rw [List.filterMap_nil, List.append_nil]
    exact ⟨.here, fun _ => rfl⟩
  | cons item items ih =>
    unfold choices at run
    unfold choicesPlan at sits ⊢
    cases only : onlyLink? item.pieces with
    | none => rw [only] at run; cases run
    | some link =>
      obtain ⟨destination, text, place⟩ := link
      rw [only] at run sits
      obtain ⟨_, _, _, _, rest, _⟩ := bind_ok run
      obtain ⟨_, _, _, _, rest, _⟩ := bind_ok rest
      obtain ⟨push, further⟩ := sits.both
      obtain ⟨choice, later⟩ := leads_choice further
      have first := leads_text (x := ⟨some node, [], offers⟩) place push
      have offer : item.offer? = some ⟨.literal place (.string text), destination⟩ := by
        rw [Item.offer?, only]
        rfl
      rw [List.filterMap_cons_some offer, List.append_cons]
      refine ⟨?_, fun none => absurd none (List.cons_ne_nil _ _)⟩
      simp only [Plan.size, ← Nat.add_assoc]
      exact (first.trans choice).trans (ih rest later).1

theorem labels_choicesPlan (items : List Item) (start : Nat) :
    (choicesPlan items).labels start = [] := by
  induction items generalizing start with
  | nil => rfl
  | cons item items ih =>
    unfold choicesPlan
    split
    · rfl
    · exact ih _

/-- Nothing is in the element that may not be met in the node `node?`. -/
structure Setting.Admits (g : Setting) (node? : Option String) (e : Element) : Prop where
  plain : ∀ t ∈ e.terms, t.WithoutAssembly
  calls : ∀ t ∈ e.terms, ∀ f ∈ t.applications, Operator.ofName? f.1 = none →
    g.calls f.1 f.2.length
  menus : ∀ node, node? = some node → ∀ offers ∈ e.menus,
    (offers = [] → e.block = .list true []) → g.menus node offers
  blank : e.block = .paragraph [] → g.blank

theorem fence_read {snippet : Snippet} {t : Term} (node? : Option String) (span : Span)
    (read : Term.read snippet.span = .ok t) :
    elementPlan node? ⟨.fence snippet, span⟩ = plan node? t ∧
      Element.terms ⟨.fence snippet, span⟩ = [t] := by
  constructor
  · simp only [elementPlan, readPlan, read]
  · simp only [Element.terms, read, Except.toOption, Option.toList]

theorem leads_element (plain : e.isHeading = false) (run : element node? e s = (f, .ok next))
    (admits : g.Admits node? e) (sits : g.Sits a (elementPlan node? e)) :
    g.Leads a (.idle node?) (a + (elementPlan node? e).size) (.idle node?) := by
  obtain ⟨block, span⟩ := e
  cases block with
  | heading => cases plain
  | unsupported => cases run
  | paragraph ps =>
    obtain ⟨_, _, _, accepted, _, _⟩ := bind_ok run
    change g.Sits a (paragraphPlan node? ps) at sits
    change g.Leads a _ (a + (paragraphPlan node? ps).size) _
    unfold paragraphPlan at sits ⊢
    unfold paragraph at accepted
    cases only : onlyLink? ps with
    | none =>
      rw [only] at accepted sits
      exact leads_line accepted (fun empty => admits.blank (by rw [empty])) sits
    | some link =>
      obtain ⟨destination, text, place⟩ := link
      rw [only] at accepted sits
      cases node? with
      | none => cases accepted
      | some node => exact leads_link sits
  | list ordered items =>
    obtain ⟨_, _, _, accepted, _, _⟩ := bind_ok run
    obtain ⟨options, shows⟩ := sits.both
    unfold menu at accepted
    cases ordered with
    | false => cases accepted
    | true =>
      cases node? with
      | none => cases accepted
      | some node =>
        obtain ⟨_, _, _, accepted, _, _⟩ := bind_ok accepted
        have put : g.Leads a ⟨some node, [], []⟩ _ ⟨some node, [], [] ++ _⟩ ∧ _ :=
          leads_items accepted options
        rw [List.nil_append] at put
        have allowed := admits.menus node rfl _ List.mem_cons_self
          fun empty => by rw [put.2 empty]
        exact put.1.trans (.act (.menu allowed shows.one))
  | fence snippet =>
    obtain ⟨t, read, accepted⟩ := read_ok run
    obtain ⟨_, _, _, accepted, _, _⟩ := bind_ok accepted
    have formed := Form.wellFormed_of_require (Form.wellFormed_of_walk node? t) accepted
    obtain ⟨same, terms⟩ := fence_read node? span read
    have mem : t ∈ Element.terms ⟨.fence snippet, span⟩ := by
      rw [terms]
      exact List.mem_cons_self
    have allows : g.Allows node? t := by
      refine ⟨admits.plain t mem, admits.calls t mem, fun node here offers menu nonempty => ?_⟩
      refine admits.menus node here offers ?_ fun empty => absurd empty nonempty
      exact List.mem_flatMap.mpr ⟨t, mem, menu⟩
    rw [same] at sits ⊢
    exact leads_statement formed rfl allows sits

theorem labels_element (plain : e.isHeading = false) (run : element node? e s = (f, .ok next))
    (unassembled : ∀ t ∈ e.terms, t.WithoutAssembly)
    (start : Nat) : (elementPlan node? e).labels start = [] := by
  obtain ⟨block, span⟩ := e
  cases block with
  | heading => cases plain
  | unsupported => cases run
  | paragraph ps =>
    obtain ⟨_, _, _, accepted, _, _⟩ := bind_ok run
    change (paragraphPlan node? ps).labels start = []
    unfold paragraphPlan
    unfold paragraph at accepted
    cases only : onlyLink? ps with
    | some => rfl
    | none =>
      rw [only] at accepted
      obtain ⟨_, _, _, first, _, _⟩ := bind_ok accepted
      obtain ⟨parts, same, _⟩ := pieces_ok first
      have line := fun t mem => Form.labels_of_wellFormed (parts t mem) nofun
      show (Plan.both (piecesPlan node? false ps) _).labels start = []
      rw [Plan.labels, same, Form.labels_foldedPlan line]
      rfl
  | list _ items => exact (List.append_nil _).trans (labels_choicesPlan items start)
  | fence snippet =>
    obtain ⟨t, read, accepted⟩ := read_ok run
    obtain ⟨_, _, _, accepted, _, _⟩ := bind_ok accepted
    have formed := Form.wellFormed_of_require (Form.wellFormed_of_walk node? t) accepted
    obtain ⟨same, terms⟩ := fence_read node? span read
    have mem : t ∈ Element.terms ⟨.fence snippet, span⟩ := by
      rw [terms]
      exact List.mem_cons_self
    rw [same]
    exact Form.labels_of_wellFormed formed (fun _ => unassembled t mem) start

theorem labels_stretch {u : Unit} (plain : ∀ e ∈ es, e.isHeading = false)
    (run : stretch node? es s = (f, .ok u)) (unassembled : WithoutAssembly es) (start : Nat) :
    (stretchPlan node? es).labels start = [] := by
  induction es generalizing s f start with
  | nil => rfl
  | cons e es ih =>
    obtain ⟨_, _, _, first, rest, _⟩ := bind_ok run
    rw [stretchPlan, Plan.labels, labels_element (plain e List.mem_cons_self) first
        (unassembled e List.mem_cons_self),
      ih (fun u mem => plain u (List.mem_cons_of_mem e mem)) rest
        (fun u mem => unassembled u (List.mem_cons_of_mem e mem))]
    rfl

theorem leads_stretch {u : Unit} (plain : ∀ e ∈ es, e.isHeading = false)
    (run : stretch node? es s = (f, .ok u)) (admits : ∀ e ∈ es, g.Admits node? e)
    (sits : g.Sits a (stretchPlan node? es)) :
    g.Leads a (.idle node?) (a + (stretchPlan node? es).size) (.idle node?) := by
  induction es generalizing a s f with
  | nil => exact .here
  | cons e es ih =>
    obtain ⟨_, _, _, first, rest, _⟩ := bind_ok run
    obtain ⟨here, later⟩ := sits.both
    rw [stretchPlan, Plan.size, ← Nat.add_assoc]
    exact (leads_element (plain e List.mem_cons_self) first
      (admits e List.mem_cons_self) here).trans
      (ih (fun u mem => plain u (List.mem_cons_of_mem e mem)) rest
        (fun u mem => admits u (List.mem_cons_of_mem e mem)) later)

end Dialogue.Conduct
