import Dialogue.Proofs.Code.Applications
import Dialogue.Proofs.Script.Sections

/-!
What can be read off a dialogue without compiling it: the terms in its text, and its menus.
-/
namespace Dialogue.Script

def Piece.term? (p : Piece) : Option Term :=
  match p.inline with
  | .code snippet => (Term.read snippet.span).toOption
  | .text s => some (.literal p.span (.string (String.ofList s)))
  | .strong opens => some (.literal p.span (.string (if opens then "<b>" else "</b>")))
  | .emphasis opens => some (.literal p.span (.string (if opens then "<i>" else "</i>")))
  | .link _ _ | .unsupported _ => none

def Item.offer? (i : Item) : Option Offer :=
  (onlyLink? i.pieces).map fun (destination, text, place) =>
    ⟨.literal place (.string text), destination⟩

namespace Element

def terms (e : Element) : List Term :=
  match e.block with
  | .paragraph ps => ps.filterMap Piece.term?
  | .fence snippet => (Term.read snippet.span).toOption.toList
  | _ => []

def menus (e : Element) : List (List Offer) :=
  match e.block with
  | .list true items => [items.filterMap Item.offer?]
  | _ => e.terms.flatMap Term.menus

end Element

def WithoutAssembly (es : List Element) : Prop :=
  ∀ e ∈ es, ∀ t ∈ e.terms, t.WithoutAssembly

instance : DecidablePred WithoutAssembly := fun es =>
  inferInstanceAs (Decidable (∀ e ∈ es, ∀ t ∈ e.terms, t.WithoutAssembly))

def WithoutLoops (es : List Element) : Prop :=
  ∀ e ∈ es, ∀ t ∈ e.terms, t.WithoutLoops

instance : DecidablePred WithoutLoops := fun es =>
  inferInstanceAs (Decidable (∀ e ∈ es, ∀ t ∈ e.terms, t.WithoutLoops))

/-- `name` is called with so many arguments somewhere in the dialogue. -/
def Calls (es : List Element) (name : String) (count : Nat) : Prop :=
  ∃ e ∈ es, ∃ t ∈ e.terms, ∃ f ∈ t.applications,
    Operator.ofName? f.1 = none ∧ f.1 = name ∧ f.2.length = count

def Offers (es : List Element) (title : String) (offers : List Offer) : Prop :=
  ∃ n ∈ (sections es).2, n.name = title ∧ ∃ e ∈ n.body, offers ∈ e.menus

end Dialogue.Script
