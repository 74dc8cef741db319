import Dialogue.Proofs.Code.Destinations
import Dialogue.Proofs.Conduct.Elements

/-!
What the elements of a dialogue have to be. Whether an element fits depends on nothing but whether
it stands inside a node. Elements that fit are accepted wherever their code is to stand, no others
are, and the names that their code refers to are the destinations of the links and menus in them.
-/
namespace Dialogue.Script
open Emit

def Piece.Fits (p : Piece) : Prop :=
  match p.inline with
  | .text _ | .strong _ | .emphasis _ => True
  | .code snippet => ∃ t, Term.read snippet.span = .ok t ∧ t.Expression
  | .link _ _ | .unsupported _ => False

def Piece.destination? (p : Piece) : Option String :=
  match p.inline with
  | .link destination _ => some (String.ofList destination)
  | _ => none

def SingleLink (ps : List Piece) : Prop :=
  ∃ destination text span, ps = [⟨.link destination text, span⟩]

namespace Element

/-- What the element has to be, `inside` a node or before the first. -/
def Fits (inside : Bool) (e : Element) : Prop :=
  match e.block with
  | .heading level title => level = 1 ∧ title ≠ []
  | .paragraph ps => (inside = true ∧ SingleLink ps) ∨ ∀ p ∈ ps, p.Fits
  | .list ordered items => ordered = true ∧ inside = true ∧ ∀ i ∈ items, SingleLink i.pieces
  | .fence snippet => ∃ t, Term.read snippet.span = .ok t ∧ t.Statement inside
  | .unsupported _ => False

/-- The titles that links, items of lists and options of menus lead to. -/
def destinations (e : Element) : List String :=
  match e.block with
  | .paragraph ps => ps.filterMap Piece.destination?
  | .list _ items => items.flatMap fun i => i.pieces.filterMap Piece.destination?
  | .fence snippet => (Term.read snippet.span).toOption.toList.flatMap Term.destinations
  | _ => []

end Element

variable {node? next : Option String} {s : Site} {f : Fragment} {u : Unit}
variable {p : Piece} {ps : List Piece} {items : List Item} {e : Element} {es : List Element}
variable {name : String} {inside : Bool}

theorem onlyLink?_eq_none_iff : onlyLink? ps = none ↔ ¬ SingleLink ps := by
  constructor
  · rintro none ⟨destination, text, span, rfl⟩
    cases none
  · intro several
    unfold onlyLink?
    split
    · exact absurd ⟨_, _, _, rfl⟩ several
    · rfl

/-! What is accepted fits. -/

theorem fits_of_piece (run : piece node? p s = (f, .ok u)) : p.Fits := by
  obtain ⟨inline, span⟩ := p
  cases inline with
  | code snippet =>
    obtain ⟨t, read, accepted⟩ := Conduct.read_ok run
    have formed := Form.wellFormed_of_require (Form.wellFormed_of_walk node? t) accepted
    exact ⟨t, read, Form.expression_of_wellFormed formed rfl⟩
  | text | strong | emphasis => trivial
  | link | unsupported => cases run

theorem fits_of_pieces {further : Bool} (run : pieces node? further ps s = (f, .ok u)) :
    ∀ p ∈ ps, p.Fits := by
  induction ps generalizing s f further with
  | nil => exact nofun
  | cons p ps ih =>
    rw [pieces] at run
    obtain ⟨_, _, _, first, rest, _⟩ := bind_ok run
    have later : ∀ q ∈ ps, q.Fits := by
      cases further with
      | false => exact ih rest
      | true =>
        obtain ⟨_, _, _, _, rest, _⟩ := bind_ok rest
        exact ih rest
    intro q mem
    rcases List.mem_cons.mp mem with rfl | mem
    · exact fits_of_piece first
    · exact later q mem

theorem fits_of_paragraph {span : Span} (run : paragraph node? ps span s = (f, .ok u)) :
    (node?.isSome = true ∧ SingleLink ps) ∨ ∀ p ∈ ps, p.Fits := by
  by_cases single : SingleLink ps
  · obtain ⟨destination, text, place, rfl⟩ := single
    cases node? with
    | none => cases run
    | some node => exact Or.inl ⟨rfl, _, _, _, rfl⟩
  · unfold paragraph at run
    rw [onlyLink?_eq_none_iff.mpr single] at run
    obtain ⟨_, _, _, line, _, _⟩ := bind_ok run
    exact Or.inr (fits_of_pieces line)

theorem fits_of_choices (run : choices items s = (f, .ok u)) :
    ∀ i ∈ items, SingleLink i.pieces := by
  induction items generalizing s f with
  | nil => exact nofun
  | cons i items ih =>
    unfold choices at run
    by_cases single : SingleLink i.pieces
    · intro j mem
      rcases List.mem_cons.mp mem with rfl | later
      · exact single
      · obtain ⟨destination, text, place, same⟩ := single
        rw [same] at run
        obtain ⟨_, _, _, _, rest, _⟩ := bind_ok run
        obtain ⟨_, _, _, _, rest, _⟩ := bind_ok rest
        exact ih rest j later
    · rw [onlyLink?_eq_none_iff.mpr single] at run
      cases run

theorem fits_of_element (plain : e.isHeading = false)
    (unassembled : ∀ t ∈ e.terms, t.WithoutAssembly) (run : element node? e s = (f, .ok next)) :
    e.Fits node?.isSome := by
  obtain ⟨block, span⟩ := e
  cases block with
  | heading => cases plain
  | unsupported => cases run
  | paragraph ps =>
    obtain ⟨_, _, _, accepted, _, _⟩ := bind_ok run
    exact fits_of_paragraph accepted
  | list ordered items =>
    obtain ⟨_, _, _, accepted, _, _⟩ := bind_ok run
    unfold menu at accepted
    cases ordered with
    | false => cases accepted
    | true =>
      cases node? with
      | none => cases accepted
      | some node =>
        obtain ⟨_, _, _, options, _, _⟩ := bind_ok accepted
        exact ⟨rfl, rfl, fits_of_choices options⟩
  | fence snippet =>
    obtain ⟨t, read, accepted⟩ := Conduct.read_ok run
    obtain ⟨_, _, _, accepted, _, _⟩ := bind_ok accepted
    have formed := Form.wellFormed_of_require (Form.wellFormed_of_walk node? t) accepted
    have plain := unassembled t (by simp [(Conduct.fence_read node? span read).2])
    exact ⟨t, read, Form.statement_of_wellFormed formed rfl plain⟩

theorem fits_of_stretch (plain : ∀ e ∈ es, e.isHeading = false) (unassembled : WithoutAssembly es)
    (run : stretch node? es s = (f, .ok u)) : ∀ e ∈ es, e.Fits node?.isSome := by
  induction es generalizing s f with
  | nil => exact nofun
  | cons e es ih =>
    obtain ⟨_, _, _, first, rest, _⟩ := bind_ok run
    intro k mem
    rcases List.mem_cons.mp mem with rfl | later
    · exact fits_of_element (plain _ List.mem_cons_self) (unassembled _ List.mem_cons_self) first
    · exact ih (fun k mem => plain k (List.mem_cons_of_mem e mem))
        (fun k mem => unassembled k (List.mem_cons_of_mem e mem)) rest k later

/-! What fits is accepted. -/

theorem gives_read {α : Type} {span : Span} {t : Term} {k : Term → Emit α} {a : α}
    (read : Term.read span = .ok t) (gives : (k t).Gives a) :
    (ofExcept (Term.read span) >>= k).Gives a := by
  have same : (ofExcept (.ok t) >>= k) = k t := emit_pure_bind t k
  rw [read, same]
  exact gives

theorem gives_piece (fits : p.Fits) : (piece node? p).Gives () := by
  obtain ⟨inline, span⟩ := p
  cases inline with
  | code snippet =>
    obtain ⟨t, read, expression⟩ := fits
    exact gives_read read (Form.gives_require (Form.gives_of_expression node? expression))
  | text | strong | emphasis => exact gives_emit _
  | link | unsupported => exact fits.elim

theorem gives_pieces (further : Bool) (fits : ∀ p ∈ ps, p.Fits) :
    (pieces node? further ps).Gives () := by
  induction ps generalizing further with
  | nil => exact gives_pure ()
  | cons p ps ih =>
    have first : (piece node? p).Gives () := gives_piece (fits p List.mem_cons_self)
    have later := ih true fun q mem => fits q (List.mem_cons_of_mem p mem)
    rw [pieces]
    refine first.bind ?_
    cases further with
    | false => exact later
    | true => exact (gives_emit _).bind later

theorem not_singleLink_of_fits (line : ∀ p ∈ ps, p.Fits) : ¬ SingleLink ps := by
  rintro ⟨_, _, _, rfl⟩
  exact line _ List.mem_cons_self

theorem gives_paragraph (span : Span)
    (fits : (node?.isSome = true ∧ SingleLink ps) ∨ ∀ p ∈ ps, p.Fits) :
    (paragraph node? ps span).Gives () := by
  rcases fits with ⟨within, destination, text, place, rfl⟩ | line
  · obtain ⟨node, rfl⟩ := Option.isSome_iff_exists.mp within
    exact (gives_emit _).bind ((gives_emit _).bind ((gives_emit _).bind (gives_refer _ _ _)))
  · unfold paragraph
    rw [onlyLink?_eq_none_iff.mpr (not_singleLink_of_fits line)]
    exact (gives_pieces false line).bind (gives_emit _)

theorem gives_choices (fits : ∀ i ∈ items, SingleLink i.pieces) : (choices items).Gives () := by
  induction items with
  | nil => exact gives_pure ()
  | cons i items ih =>
    obtain ⟨destination, text, place, same⟩ := fits i List.mem_cons_self
    have later := ih fun j mem => fits j (List.mem_cons_of_mem i mem)
    unfold choices
    rw [same]
    exact (gives_emit _).bind ((gives_refer _ _ _).bind later)

theorem gives_element (plain : e.isHeading = false) (fits : e.Fits node?.isSome) :
    (element node? e).Gives node? := by
  obtain ⟨block, span⟩ := e
  cases block with
  | heading => cases plain
  | unsupported => exact fits.elim
  | paragraph ps => exact (gives_paragraph span fits).bind (gives_pure _)
  | list ordered items =>
    obtain ⟨rfl, within, single⟩ := fits
    obtain ⟨node, rfl⟩ := Option.isSome_iff_exists.mp within
    exact ((gives_choices single).bind (gives_emit _)).bind (gives_pure _)
  | fence snippet =>
    obtain ⟨t, read, statement⟩ := fits
    have accepted : (Form.statement node? t).Gives () :=
      Form.gives_require (Form.gives_of_statement statement)
    exact gives_read read (accepted.bind (gives_pure _))

theorem gives_stretch (plain : ∀ e ∈ es, e.isHeading = false)
    (fits : ∀ e ∈ es, e.Fits node?.isSome) :
    (stretch node? es).Gives () := by
  induction es with
  | nil => exact gives_pure ()
  | cons e es ih =>
    have first := gives_element (plain e List.mem_cons_self) (fits e List.mem_cons_self)
    exact first.bind (ih (fun k mem => plain k (List.mem_cons_of_mem e mem))
      fun k mem => fits k (List.mem_cons_of_mem e mem))

/-! What is referred to, and that nothing is bound. -/

theorem targets_of_piece (fits : p.Fits) : ¬ name ∈ (piecePlan node? p).targets := by
  obtain ⟨inline, span⟩ := p
  cases inline with
  | code snippet =>
    obtain ⟨t, read, expression⟩ := fits
    simp only [piecePlan, readPlan, read]
    exact Form.targets_of_expression expression
  | text | strong | emphasis | link | unsupported => exact List.not_mem_nil

theorem targets_of_pieces (further : Bool) (fits : ∀ p ∈ ps, p.Fits) :
    ¬ name ∈ (piecesPlan node? further ps).targets := by
  induction ps generalizing further with
  | nil => exact List.not_mem_nil
  | cons p ps ih =>
    have first : ¬ name ∈ (piecePlan node? p).targets :=
      targets_of_piece (fits p List.mem_cons_self)
    have later := ih true fun q mem => fits q (List.mem_cons_of_mem p mem)
    rw [piecesPlan]
    cases further with
    | false => simp [Plan.targets, first, later]
    | true => simp [Plan.targets, first, later]

theorem destinations_of_line (fits : ∀ p ∈ ps, p.Fits) : ps.filterMap Piece.destination? = [] := by
  rw [List.filterMap_eq_nil_iff]
  rintro ⟨inline, span⟩ mem
  cases inline with
  | link => exact (fits _ mem).elim
  | text | strong | emphasis | code | unsupported => rfl

theorem targets_choicesPlan (fits : ∀ i ∈ items, SingleLink i.pieces) :
    (choicesPlan items).targets = items.flatMap fun i => i.pieces.filterMap Piece.destination? := by
  induction items with
  | nil => rfl
  | cons i items ih =>
    obtain ⟨destination, text, place, same⟩ := fits i List.mem_cons_self
    rw [choicesPlan, List.flatMap_cons, same, ← ih fun j mem => fits j (List.mem_cons_of_mem i mem)]
    rfl

theorem mem_targets_elementPlan (fits : e.Fits inside) :
    name ∈ (elementPlan node? e).targets ↔ name ∈ e.destinations := by
  obtain ⟨block, span⟩ := e
  cases block with
  | heading | unsupported => exact Iff.rfl
  | paragraph ps =>
    rcases fits with ⟨_, destination, text, place, rfl⟩ | line
    · exact Iff.rfl
    · show name ∈ (paragraphPlan node? ps).targets ↔ name ∈ ps.filterMap Piece.destination?
      unfold paragraphPlan
      rw [onlyLink?_eq_none_iff.mpr (not_singleLink_of_fits line), destinations_of_line line]
      have none : ¬ name ∈ (piecesPlan node? false ps).targets := targets_of_pieces false line
      simp [Plan.targets, none]
  | list ordered items =>
    show name ∈ (Plan.both (choicesPlan items) _).targets ↔ _
    rw [Plan.targets, Plan.targets, List.append_nil, targets_choicesPlan fits.2.2]
    rfl
  | fence snippet =>
    obtain ⟨t, read, statement⟩ := fits
    rw [(Conduct.fence_read node? span read).1, Form.mem_targets_of_statement statement]
    simp only [Element.destinations, read, Except.toOption, Option.toList, List.flatMap_singleton]

theorem mem_targets_stretchPlan (fits : ∀ e ∈ es, e.Fits inside) :
    name ∈ (stretchPlan node? es).targets ↔ ∃ e ∈ es, name ∈ e.destinations := by
  induction es with
  | nil => simp [stretchPlan, Plan.targets]
  | cons e es ih =>
    have first : name ∈ (elementPlan node? e).targets ↔ _ :=
      mem_targets_elementPlan (fits e List.mem_cons_self)
    have later := ih fun k mem => fits k (List.mem_cons_of_mem e mem)
    simp [stretchPlan, Plan.targets, first, later]

theorem names_stretchPlan (plain : ∀ e ∈ es, e.isHeading = false) (unassembled : WithoutAssembly es)
    (fits : ∀ e ∈ es, e.Fits node?.isSome) : (stretchPlan node? es).names = [] := by
  obtain ⟨f, run⟩ := gives_stretch plain fits .origin
  rw [← Plan.names_of_labels _ 0, Conduct.labels_stretch plain run unassembled 0]
  rfl

end Dialogue.Script
