import Dialogue.Code.Link
import Dialogue.Script.Block
import Dialogue.Term.Reader

/-!
Compiling a dialogue. A level-one heading opens a node and closes the one before it. A paragraph is
one line, spliced from its pieces, or a single link to another node; an ordered list of links is a
menu; a fence is a statement.
-/
namespace Dialogue.Script
open Emit

def piece (node? : Option String) (p : Piece) : Emit Unit :=
  match p.inline with
  | .code snippet => do
    let t ← ofExcept (Term.read snippet.span)
    Form.expression node? t
  | .link _ _ => fail .linkInLine p.span
  | .unsupported name => fail (.elementInLine name) p.span
  | .text s => emit (.pushString (String.ofList s))
  | .strong opens => emit (.pushString (if opens then "<b>" else "</b>"))
  | .emphasis opens => emit (.pushString (if opens then "<i>" else "</i>"))

/-- The pieces of a line, each after the first joined to those before it. -/
def pieces (node? : Option String) (further : Bool) : List Piece → Emit Unit
  | [] => pure ()
  | p :: ps => do
    piece node? p
    if further then emit .concat
    pieces node? true ps

def onlyLink? : List Piece → Option (String × String × Span)
  | [⟨.link destination text, span⟩] => some (String.ofList destination, String.ofList text, span)
  | _ => none

def paragraph (node? : Option String) (ps : List Piece) (span : Span) : Emit Unit :=
  match onlyLink? ps with
  | some (destination, text, place) =>
    match node? with
    | none => fail .linkOutsideNode span
    | some node => do
      emit (.pushString text)
      emit .showLine
      emit (.exitNode node)
      refer (.jump 0) destination place
  | none => do
    pieces node? false ps
    emit .showLine

def choices : List Item → Emit Unit
  | [] => pure ()
  | item :: items =>
    match onlyLink? item.pieces with
    | none => fail .choiceItem item.span
    | some (destination, text, place) => do
      emit (.pushString text)
      refer (.pushChoice 0) destination place
      choices items

def menu (node? : Option String) (ordered : Bool) (items : List Item) (span : Span) : Emit Unit :=
  if !ordered then fail .unorderedChoices span
  else match node? with
    | none => fail .choicesOutsideNode span
    | some node => do
      choices items
      emit (.showChoice node)

/-- Ends the open node; the dialogue is over when control gets here. -/
def close : Option String → Emit Unit
  | none => pure ()
  | some node => do
    emit (.exitNode node)
    emit .endDialogue

def heading (node? : Option String) (level : Nat) (title : String) (span : Span) : Emit Unit :=
  if level ≠ 1 then fail .headingLevel span
  else if title = "" then fail .headingName span
  else do
    close node?
    define title span
    emit (.enterNode title)

/-- The code of an element, and the node that is open after it. -/
def element (node? : Option String) (e : Element) : Emit (Option String) :=
  match e.block with
  | .heading level title => do
    heading node? level (String.ofList title) e.span
    pure (some (String.ofList title))
  | .paragraph ps => do
    paragraph node? ps e.span
    pure node?
  | .list ordered items => do
    menu node? ordered items e.span
    pure node?
  | .fence snippet => do
    let t ← ofExcept (Term.read snippet.span)
    Form.statement node? t
    pure node?
  | .unsupported name => fail (.unsupportedElement name) e.span

def elements (node? : Option String) : List Element → Emit Unit
  | [] => close node?
  | e :: es => do
    let next ← element node? e
    elements next es

def compile (es : List Element) : Except Problem Program :=
  match elements none es .origin with
  | (_, .error p) => .error p
  | (f, .ok ()) => f.link

end Dialogue.Script
