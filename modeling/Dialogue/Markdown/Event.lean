import Dialogue.Text.Quoted

/-!
A document as a sequence of events: elements open and close around text, each event with the bytes
of the document it covers.
-/
namespace Dialogue.Markdown

inductive Tag where
  | paragraph
  | heading (level : Nat)
  | blockQuote
  | indentedCode
  | fencedCode
  | htmlBlock
  /-- A list, with the number it starts from if it is an ordered one. -/
  | list (first? : Option Nat)
  | item
  | emphasis
  | strong
  | link (destination : List Char)
  | image
deriving DecidableEq, Repr

inductive Event where
  | opens (t : Tag)
  | closes (t : Tag)
  | text (s : List Char)
  | code (s : List Char)
  | html (s : List Char)
  | inlineHtml (s : List Char)
  | softBreak
  | hardBreak
  | rule
deriving DecidableEq, Repr

structure Located where
  event : Event
  start : Nat
  stop : Nat
deriving DecidableEq, Repr

def Tag.name : Tag → String
  | paragraph => "Paragraph"
  | heading _ => "Heading"
  | blockQuote => "BlockQuote"
  | indentedCode => "CodeBlock"
  | fencedCode => "CodeBlock"
  | htmlBlock => "HtmlBlock"
  | list _ => "List"
  | item => "Item"
  | emphasis => "Emphasis"
  | strong => "Strong"
  | link _ => "Link"
  | image => "Image"

/-- What an author is told about an element that dialogues have no use for. -/
def Tag.describe : Tag → String
  | indentedCode => "indented code block"
  | list none => "unordered list"
  | t => t.name

def quoted (s : List Char) : String :=
  String.ofList (Text.quoteChars s)

def Event.describe : Event → String
  | opens t => s!"Start({t.name})"
  | closes t => s!"End({t.name})"
  | text s => s!"Text(Borrowed({quoted s}))"
  | code s => s!"Code(Borrowed({quoted s}))"
  | html s => s!"Html(Borrowed({quoted s}))"
  | inlineHtml s => s!"InlineHtml(Borrowed({quoted s}))"
  | softBreak => "SoftBreak"
  | hardBreak => "HardBreak"
  | rule => "Rule"

end Dialogue.Markdown
