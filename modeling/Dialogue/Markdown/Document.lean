import Dialogue.Markdown.Block
import Dialogue.Markdown.Inline
import Dialogue.Span

/-!
The events of a whole document. Paragraphs in the items of a tight list are not set off from the
text of the item.
-/
namespace Dialogue.Markdown

def joinText : List Located → List Located
  | [] => []
  | e :: es =>
    match e.event, joinText es with
    | .text s, ⟨.text t, _, stop⟩ :: rest => ⟨.text (s ++ t), e.start, stop⟩ :: rest
    | _, rest => e :: rest

def textEvents (ctx : Context) (gs : List Glyph) : List Located :=
  joinText (Inline.allEvents (inlines ctx gs))

def wrapped (t : Tag) (start stop : Nat) (inner : List Located) : List Located :=
  ⟨.opens t, start, stop⟩ :: (inner ++ [⟨.closes t, start, stop⟩])

mutual

def Block.events (ctx : Context) (tight : Bool) : Block → List Located
  | .paragraph start stop content =>
    let inner := textEvents ctx content
    if tight then inner else wrapped .paragraph start stop inner
  | .heading start stop level content =>
    wrapped (.heading level) start stop (textEvents ctx content)
  | .rule start stop => [⟨.rule, start, stop⟩]
  | .fence start stop code =>
    wrapped .fencedCode start stop (code.map fun (s, a, b) => ⟨.text s, a, b⟩)
  | .indented start stop => wrapped .indentedCode start stop []
  | .html start stop => wrapped .htmlBlock start stop []
  | .quote start stop children =>
    wrapped .blockQuote start stop (Block.allEvents ctx false children)
  | .list start stop first? tight items =>
    wrapped (.list first?) start stop (Block.allEvents ctx tight items)
  | .item start stop children => wrapped .item start stop (Block.allEvents ctx tight children)

def Block.allEvents (ctx : Context) (tight : Bool) : List Block → List Located
  | [] => []
  | b :: bs => b.events ctx tight ++ Block.allEvents ctx tight bs

end

def events (text : List Char) : List Located :=
  let (bs, definitions) := blocks text (Text.byteLength text)
  Block.allEvents ⟨text, definitions⟩ false bs

end Dialogue.Markdown
