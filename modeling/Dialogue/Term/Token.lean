import Dialogue.Span
import Dialogue.Value

/-!
Tokens of the expression language. Square brackets group terms as parentheses do, but each kind of
bracket is closed by its own.
-/
namespace Dialogue

inductive Delimiter where
  | round
  | square
deriving DecidableEq, Repr

def Delimiter.name : Delimiter → String
  | .round => "parenthesis"
  | .square => "square brackets"

inductive Token where
  | opening (d : Delimiter)
  | closing (d : Delimiter)
  | symbol (name : String)
  | literal (v : Value)
deriving DecidableEq, Repr

def Token.text : Token → String
  | .opening d => s!"opening {d.name}"
  | .closing d => s!"closing {d.name}"
  | .symbol name => s!"symbol `{name}`"
  | .literal v => s!"literal `{v.literalText}`"

structure Lexeme where
  token : Token
  span : Span
deriving DecidableEq, Repr

end Dialogue
