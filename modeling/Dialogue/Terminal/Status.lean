import Dialogue.Span
import Dialogue.Terminal.Style

/-!
Tagged messages for the person at the terminal. A message of one line follows its tag, which takes
twelve columns; longer ones stand below it.
-/
namespace Dialogue.Terminal

def dropReturn (l : List Char) : List Char :=
  if l.getLast? = some '\r' then l.dropLast else l

/-- The lines of a message. A line feed ends a line, with a carriage return before it. -/
def messageLines (cs : List Char) : List (List Char) :=
  let ls := Source.splitLines cs
  let last := ls.getLastD []
  ls.dropLast.map dropReturn ++ if last = [] then [] else [last]

def statusText (styling : Styling) (t : Tag) (message : String) : String :=
  match messageLines message.toList with
  | l :: m :: ls =>
    "\n" ++ String.ofList (styling.tag t 0) ++ "\n" ++
      String.join ((l :: m :: ls).map fun l => String.ofList l ++ "\n") ++ "\n"
  | _ => String.ofList (styling.tag t 12) ++ " " ++ message ++ "\n"

end Dialogue.Terminal
