import Dialogue.Proofs.Code.Building
import Dialogue.Proofs.Code.Heredity
import Dialogue.Proofs.Script.Contents

/-!
The plans of a dialogue's elements and nodes. A paragraph that is a single link leads where the link
does, and so does each item of a list; everything else follows the terms found in the text.
-/
namespace Dialogue

namespace Script
open Emit

def readPlan (span : Span) (plan : Term → Plan) : Plan :=
  match Term.read span with
  | .ok t => plan t
  | .error _ => .empty

theorem builds_read {α : Type} (span : Span) {k : Term → Emit α} {plan : Term → Plan}
    (follows : ∀ t, Builds (k t) (plan t)) :
    Builds (ofExcept (Term.read span) >>= k) (readPlan span plan) := by
  unfold readPlan
  cases Term.read span with
  | error => exact .silent ⟨_, fun _ => rfl⟩
  | ok t =>
    have same : (ofExcept (.ok t) >>= k) = k t := emit_pure_bind t k
    rw [same]
    exact follows t

def piecePlan (node? : Option String) (p : Piece) : Plan :=
  match p.inline with
  | .code snippet => readPlan snippet.span (Form.plan node?)
  | .text s => .one .other (.pushString (String.ofList s))
  | .strong opens => .one .other (.pushString (if opens then "<b>" else "</b>"))
  | .emphasis opens => .one .other (.pushString (if opens then "<i>" else "</i>"))
  | _ => .empty

def piecesPlan (node? : Option String) (further : Bool) : List Piece → Plan
  | [] => .empty
  | p :: ps =>
    if further then .both (piecePlan node? p)
      (.both (.one .other .concat) (piecesPlan node? true ps))
    else .both (piecePlan node? p) (piecesPlan node? true ps)

def paragraphPlan (node? : Option String) (ps : List Piece) : Plan :=
  match onlyLink? ps with
  | some (destination, text, place) =>
    .both (.one .other (.pushString text)) (.both (.one .other .showLine)
      (.both (.one .other (.exitNode (node?.getD "")))
        (.reference (.link destination) (.jump 0) destination place)))
  | none => .both (piecesPlan node? false ps) (.one .other .showLine)

def choicesPlan : List Item → Plan
  | [] => .empty
  | item :: items =>
    match onlyLink? item.pieces with
    | none => .empty
    | some (destination, text, place) =>
      .both (.one .other (.pushString text))
        (.both (.reference (.item destination) (.pushChoice 0) destination place)
          (choicesPlan items))

def elementPlan (node? : Option String) (e : Element) : Plan :=
  match e.block with
  | .paragraph ps => paragraphPlan node? ps
  | .list _ items => .both (choicesPlan items) (.one .other (.showChoice (node?.getD "")))
  | .fence snippet => readPlan snippet.span (Form.plan node?)
  | _ => .empty

def stretchPlan (node? : Option String) : List Element → Plan
  | [] => .empty
  | e :: es => .both (elementPlan node? e) (stretchPlan node? es)

def Node.plan (n : Node) : Plan :=
  .both (.both (.label n.name n.span) (.one .other (.enterNode n.name)))
    (.both (stretchPlan (some n.name) n.body)
      (.both (.one .other (.exitNode n.name)) (.one .other .endDialogue)))

def nodesPlan : List Node → Plan
  | [] => .empty
  | n :: ns => .both n.plan (nodesPlan ns)

def dialoguePlan (es : List Element) : Plan :=
  .both (stretchPlan none (sections es).1) (nodesPlan (sections es).2)

variable {node? : Option String}

theorem builds_piece (node? : Option String) (p : Piece) :
    Builds (piece node? p) (piecePlan node? p) := by
  unfold piece piecePlan
  cases p.inline with
  | code snippet => exact builds_read _ fun t => Form.builds_expression node? t
  | text | strong | emphasis => exact .emit _ _
  | link | unsupported => exact .fail _ _ _

theorem builds_pieces (node? : Option String) (further : Bool) (ps : List Piece) :
    Builds (pieces node? further ps) (piecesPlan node? further ps) := by
  induction ps generalizing further with
  | nil => exact .silent (silent_pure _)
  | cons p ps ih =>
    rw [pieces, piecesPlan]
    cases further with
    | false => exact .both (builds_piece node? p) fun _ => ih true
    | true => exact .both (builds_piece node? p) fun _ => .both (.emit _ _) fun _ => ih true

theorem builds_paragraph (node? : Option String) (ps : List Piece) (span : Span) :
    Builds (paragraph node? ps span) (paragraphPlan node? ps) := by
  unfold paragraph paragraphPlan
  cases onlyLink? ps with
  | none => exact .both (builds_pieces node? false ps) fun _ => .emit _ _
  | some link =>
    obtain ⟨destination, text, place⟩ := link
    cases node? with
    | none => exact .fail _ _ _
    | some node =>
      refine .both (.emit _ _) fun _ => .both (.emit _ _) fun _ => .both (.emit _ _) fun _ => ?_
      exact .refer _ _ _ _ rfl

theorem builds_choices (items : List Item) : Builds (choices items) (choicesPlan items) := by
  induction items with
  | nil => exact .silent (silent_pure _)
  | cons item items ih =>
    rw [choices, choicesPlan]
    cases onlyLink? item.pieces with
    | none => exact .fail _ _ _
    | some link =>
      obtain ⟨destination, text, place⟩ := link
      exact .both (.emit _ _) fun _ => .both (.refer _ _ _ _ rfl) fun _ => ih

theorem builds_element {e : Element} (plain : e.isHeading = false) :
    Builds (element node? e) (elementPlan node? e) := by
  obtain ⟨block, span⟩ := e
  cases block with
  | heading => cases plain
  | paragraph ps => exact .after (builds_paragraph node? ps span) fun _ => silent_pure _
  | list ordered items =>
    refine .after ?_ fun _ => silent_pure _
    unfold menu
    cases ordered with
    | false => exact .fail _ _ _
    | true =>
      cases node? with
      | none => exact .fail _ _ _
      | some node => exact .both (builds_choices items) fun _ => .emit _ _
  | fence snippet =>
    exact builds_read _ fun t => .after (Form.builds_statement node? t) fun _ => silent_pure _
  | unsupported => exact .fail _ _ _

theorem builds_stretch {es : List Element} (plain : ∀ e ∈ es, e.isHeading = false) :
    Builds (stretch node? es) (stretchPlan node? es) := by
  induction es with
  | nil => exact .silent (silent_pure _)
  | cons e es ih =>
    have first : Builds (element node? e) (elementPlan node? e) :=
      builds_element (plain e List.mem_cons_self)
    exact .both first fun _ => ih fun u mem => plain u (List.mem_cons_of_mem e mem)

theorem builds_heading (level : Nat) (title : String) (span : Span) :
    Builds (heading none level title span)
      (.both (.label title span) (.one .other (.enterNode title))) := by
  unfold heading
  split
  · exact .fail _ _ _
  · split
    · exact .fail _ _ _
    · rw [close, emit_pure_bind]
      exact .both (.define _ _) fun _ => .emit _ _

theorem builds_node {n : Node} (plain : ∀ e ∈ n.body, e.isHeading = false) :
    Builds n.emit n.plan :=
  .both (builds_heading _ _ _) fun _ =>
    .both (builds_stretch plain) fun _ => .both (.emit _ _) fun _ => .emit _ _

theorem builds_nodes {ns : List Node} (plain : ∀ n ∈ ns, ∀ e ∈ n.body, e.isHeading = false) :
    Builds (nodes ns) (nodesPlan ns) := by
  induction ns with
  | nil => exact .silent (silent_pure _)
  | cons n ns ih =>
    refine .both (builds_node (plain n List.mem_cons_self)) fun _ => ?_
    exact ih fun k mem => plain k (List.mem_cons_of_mem n mem)

section
variable {P : Plan → Prop} (straight : Plan.Straight (node?.getD "") P)
include straight

theorem straight_readPlan (span : Span)
    (term : ∀ t, Term.read span = .ok t → P (Form.plan node? t)) :
    P (readPlan span (Form.plan node?)) := by
  unfold readPlan
  cases read : Term.read span with
  | error => exact straight.empty
  | ok t => exact term t read

theorem straight_piecePlan (p : Piece)
    (term : ∀ t, p.term? = some t → P (Form.plan node? t)) : P (piecePlan node? p) := by
  unfold piecePlan
  unfold Piece.term? at term
  cases kind : p.inline with
  | code snippet =>
    rw [kind] at term
    refine straight_readPlan straight snippet.span fun t read => term t ?_
    simp only [read, Except.toOption]
  | text | strong | emphasis => exact straight.plain rfl
  | link | unsupported => exact straight.empty

theorem straight_piecesPlan (further : Bool) (ps : List Piece)
    (terms : ∀ p ∈ ps, ∀ t, p.term? = some t → P (Form.plan node? t)) :
    P (piecesPlan node? further ps) := by
  induction ps generalizing further with
  | nil => exact straight.empty
  | cons p ps ih =>
    have first := straight_piecePlan straight p (terms p List.mem_cons_self)
    have later := ih true fun q mem => terms q (List.mem_cons_of_mem p mem)
    rw [piecesPlan]
    cases further with
    | false => exact straight.both first later
    | true => exact straight.both first (straight.both (straight.plain rfl) later)

theorem straight_choicesPlan (items : List Item) : P (choicesPlan items) := by
  induction items with
  | nil => exact straight.empty
  | cons item items ih =>
    rw [choicesPlan]
    cases onlyLink? item.pieces with
    | none => exact straight.empty
    | some link =>
      exact straight.both (straight.plain rfl) (straight.both (straight.item _ _) ih)

theorem straight_paragraphPlan (ps : List Piece)
    (terms : ∀ p ∈ ps, ∀ t, p.term? = some t → P (Form.plan node? t)) :
    P (paragraphPlan node? ps) := by
  unfold paragraphPlan
  cases onlyLink? ps with
  | none =>
    exact straight.both (straight_piecesPlan straight false ps terms) (straight.plain rfl)
  | some link =>
    exact straight.both (straight.plain rfl) (straight.both (straight.plain rfl)
      (straight.both straight.leave (straight.link _ _)))

theorem straight_elementPlan (e : Element) (terms : ∀ t ∈ e.terms, P (Form.plan node? t)) :
    P (elementPlan node? e) := by
  obtain ⟨block, span⟩ := e
  cases block with
  | heading | unsupported => exact straight.empty
  | paragraph ps =>
    refine straight_paragraphPlan straight ps fun p mem t term => terms t ?_
    exact List.mem_filterMap.mpr ⟨p, mem, term⟩
  | list _ items => exact straight.both (straight_choicesPlan straight items) straight.menu
  | fence snippet =>
    refine straight_readPlan straight snippet.span fun t read => terms t ?_
    simp only [Element.terms, read, Except.toOption, Option.toList, List.mem_singleton]

theorem straight_stretchPlan (es : List Element)
    (terms : ∀ e ∈ es, ∀ t ∈ e.terms, P (Form.plan node? t)) : P (stretchPlan node? es) := by
  induction es with
  | nil => exact straight.empty
  | cons e es ih =>
    exact straight.both (straight_elementPlan straight e (terms e List.mem_cons_self))
      (ih fun u mem => terms u (List.mem_cons_of_mem e mem))

end

theorem hereditary_stretchPlan {P : Plan → Prop}
    (hereditary : Plan.Hereditary (node?.getD "") P) (es : List Element) :
    P (stretchPlan node? es) :=
  straight_stretchPlan hereditary.toStraight es fun _ _ t _ => Form.hereditary_plan hereditary t

end Script
end Dialogue
