import Dialogue.Span
import Dialogue.Value

/-!
Terms: symbols, literals and lists, each with the section of source it was read from. Whether a list
is an operator form or a call is decided when it is compiled.
-/
namespace Dialogue

inductive Term where
  | symbol (span : Span) (name : String)
  | literal (span : Span) (value : Value)
  | list (span : Span) (items : List Term)
deriving Repr, Inhabited

namespace Term

def span : Term → Span
  | symbol s _ | literal s _ | list s _ => s

def head? : Term → Option String
  | list _ (symbol _ name :: _) => some name
  | _ => none

mutual

/-- The term written out again, items separated by one blank. -/
def text : Term → String
  | symbol _ name => name
  | literal _ v => v.literalText
  | list _ items => "(" ++ itemsText items ++ ")"

def itemsText : List Term → String
  | [] => ""
  | [t] => t.text
  | t :: u :: ts => t.text ++ " " ++ itemsText (u :: ts)

end

end Term
end Dialogue
