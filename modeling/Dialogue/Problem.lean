import Dialogue.Diagnostic
import Dialogue.Program.Opcode
import Dialogue.Term.Operator
import Dialogue.Term.Token

/-!
What can be wrong with a dialogue, by cause, and what its author is told. A problem carries the
sections of source it concerns: two for brackets that do not match and for a name bound twice, one
for everything else.
-/
namespace Dialogue

inductive Cause where
  /- in the text of a term -/
  | unknownEscape (c : Char)
  | unterminatedString
  | invalidNumber (text : String)
  | mapsUnsupported
  /- in its brackets -/
  | unexpectedClosing (d : Delimiter)
  | mismatched (opened closed : Delimiter)
  | unclosed (d : Delimiter)
  | severalTerms
  | noTerm
  /- in its forms -/
  | emptyForm
  | headNotName
  | operandCount (o : Operator) (found : Nat)
  | assignTarget
  | chooseOutsideNode
  | optionShape
  | optionDestination
  | expectedExpression
  | expectedStatement
  /- in assembly -/
  | assemblyHead
  | assemblyElement
  | assemblyOperands
  | labelName
  | unknownOpcode (name : String)
  | operandKind (o : Opcode)
  /- in names -/
  | duplicateSymbol (name : String)
  | unresolvedSymbol (name : String)
  | invalidReference
  /- in the document -/
  | headingLevel
  | headingName
  | linkOutsideNode
  | choicesOutsideNode
  | linkInLine
  | elementInLine (name : String)
  | unorderedChoices
  | choiceItem
  | unsupportedElement (name : String)
deriving DecidableEq, Repr

namespace Cause

def reason : Cause → String
  | unknownEscape c => s!"Unknown escape code `\\{c}` in string literal"
  | unterminatedString => "Unexpected end of source while parsing string literal"
  | invalidNumber text => s!"Invalid number literal `{text}`"
  | mapsUnsupported => "Maps are not supported in dialogue expressions"
  | unexpectedClosing d => s!"Unexpected closing {d.name}"
  | mismatched o c => s!"Mismatched opening {o.name} and closing {c.name}"
  | unclosed d => s!"Unclosed {d.name}"
  | severalTerms => "Expected a single term"
  | noTerm => "Expected a term, found nothing"
  | emptyForm | headNotName | operandCount _ _ | assignTarget | chooseOutsideNode | optionShape
  | optionDestination => "Invalid form"
  | expectedExpression => "Expected an expression"
  | expectedStatement => "Expected a statement"
  | assemblyHead | assemblyElement | assemblyOperands | labelName | unknownOpcode _
  | operandKind _ => "Invalid asm"
  | duplicateSymbol _ => "Duplicate symbol"
  | unresolvedSymbol _ => "Unresolved symbol"
  | invalidReference => "Invalid backreference"
  | headingLevel | headingName => "Invalid header"
  | linkOutsideNode | choicesOutsideNode | linkInLine | elementInLine _ => "Malformed paragraph"
  | unorderedChoices | unsupportedElement _ => "Unsupported Markdown element"
  | choiceItem => "Malformed list"

def hint? : Cause → Option String
  | unknownEscape _ => some "To include a single backslash `\\`, escape it first: `\\\\`"
  | mapsUnsupported => some "use parenthesis to group terms into a list"
  | severalTerms => some "wrap these in a `do` form to run them in sequence"
  | emptyForm => some "an empty list has no operator to apply"
  | headNotName => some "expected an operator or function name"
  | operandCount o found => some s!"`{o.name}` takes {o.arity.text}, found {found}"
  | assignTarget => some "`set!` can only assign to a variable name"
  | chooseOutsideNode => some "`choose` can only be used inside a node"
  | optionShape => some "each option is a list like `(\"Leave\" Hallway)`"
  | optionDestination => some "the destination must be a node name"
  | expectedExpression => some "this is a statement, which produces no value"
  | expectedStatement => some "this value is never used; try `set!` or `print`"
  | assemblyHead => some "expected an opcode name"
  | assemblyElement => some "each instruction is a list like `(PushNumber 3)`"
  | assemblyOperands => some "an instruction takes at most one operand"
  | labelName => some "a label needs a name"
  | unknownOpcode name => some s!"`{name}` is not an opcode"
  | operandKind o => some s!"`{o.name}` does not take this operand"
  | duplicateSymbol name => some s!"`{name}` is defined here"
  | unresolvedSymbol name => some s!"there is no node or label named `{name}`"
  | invalidReference => some "only jumps and choices can refer to a node"
  | headingLevel => some "only level-one headings (`# Name`) open nodes"
  | headingName => some "a node needs a name"
  | linkOutsideNode => some "links can only appear inside a node"
  | choicesOutsideNode => some "choices can only appear inside a node"
  | linkInLine => some "a link must be on a line of its own"
  | elementInLine name => some s!"{name} can't be used in a line"
  | unorderedChoices => some "choices are written as an ordered list: `1. [Text](Node)`"
  | choiceItem => some "each choice must be a single link"
  | unsupportedElement name => some s!"{name} can't be used in dialogue"
  | unterminatedString | invalidNumber _ | unexpectedClosing _ | mismatched _ _ | unclosed _
  | noTerm => none

def secondHint? : Cause → Option String
  | duplicateSymbol _ => some "and defined again here"
  | _ => none

end Cause

structure Problem where
  cause : Cause
  span : Span
  second? : Option Span := none
deriving DecidableEq, Repr

namespace Problem

def notes (p : Problem) : List Note :=
  ⟨p.span, p.cause.hint?⟩ :: match p.second? with
    | none => []
    | some s => [⟨s, p.cause.secondHint?⟩]

def diagnostic (p : Problem) : Diagnostic :=
  ⟨p.cause.reason, p.notes⟩

end Problem
end Dialogue
