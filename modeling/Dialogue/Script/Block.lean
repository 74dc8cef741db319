import Dialogue.Span

/-!
The elements a dialogue is made of, as found in a document: headings, paragraphs, lists and fenced
code, and by name whatever else the document holds.
-/
namespace Dialogue.Script

/-- Code found in a document. The span covers the same text, in the document when it stands there
as it is, otherwise in a text of its own. -/
structure Snippet where
  text : List Char
  span : Span
deriving DecidableEq, Repr

inductive Inline where
  | text (s : List Char)
  /-- The start or the end of bold text. -/
  | strong (opens : Bool)
  /-- The start or the end of italic text. -/
  | emphasis (opens : Bool)
  | code (snippet : Snippet)
  | link (destination text : List Char)
  | unsupported (name : String)
deriving DecidableEq, Repr

structure Piece where
  inline : Inline
  span : Span
deriving DecidableEq, Repr

structure Item where
  pieces : List Piece
  span : Span
deriving DecidableEq, Repr

inductive Block where
  | heading (level : Nat) (title : List Char)
  | paragraph (pieces : List Piece)
  | list (ordered : Bool) (items : List Item)
  | fence (snippet : Snippet)
  | unsupported (name : String)
deriving DecidableEq, Repr

structure Element where
  block : Block
  span : Span
deriving DecidableEq, Repr

end Dialogue.Script
