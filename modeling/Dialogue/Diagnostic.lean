import Dialogue.Excerpt

/-!
What an author is told about a mistake: excerpts of the places involved, each with an optional hint,
and the reason on the last line.
-/
namespace Dialogue

structure Note where
  span : Span
  hint? : Option String
deriving DecidableEq, Repr

def Note.render? (n : Note) : Option String :=
  n.span.excerpt?.map (·.render n.hint?)

structure Diagnostic where
  reason : String
  notes : List Note
deriving DecidableEq, Repr

/-- There is no message when one of the places has no excerpt. -/
def Diagnostic.message? (d : Diagnostic) : Option String :=
  (d.notes.mapM Note.render?).map fun excerpts =>
    String.join excerpts ++ s!"Syntax Error: {d.reason}"

end Dialogue
