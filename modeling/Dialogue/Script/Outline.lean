import Dialogue.Markdown.Document
import Dialogue.Script.Compile
import Dialogue.Text.Blank

/-!
The elements of a dialogue, gathered from the events of its document. Nothing is refused here: what
a dialogue has no use for is kept by name. Code points back into the document where it can.
-/
namespace Dialogue.Script
open Markdown (Located Tag Event)

/-- The events of an element that has just been opened, and those after its end; `depth` further
elements are open inside it. -/
def inside (depth : Nat) : List Located → List Located × List Located
  | [] => ([], [])
  | e :: es =>
    let deeper (n : Nat) := (e :: (inside n es).1, (inside n es).2)
    match e.event with
    | .opens _ => deeper (depth + 1)
    | .closes _ => if depth = 0 then ([], es) else deeper (depth - 1)
    | _ => deeper depth

theorem length_inside (depth : Nat) (es : List Located) :
    (inside depth es).1.length + (inside depth es).2.length ≤ es.length := by
  induction es generalizing depth with
  | nil => simp [inside]
  | cons e es ih =>
    have := ih depth
    have := ih (depth + 1)
    have := ih (depth - 1)
    simp only [inside]
    split
    · simp only [List.length_cons]; omega
    · split <;> simp only [List.length_cons, List.length_nil] <;> omega
    · simp only [List.length_cons]; omega

def place (source : Source) (e : Located) : Span :=
  ⟨source, e.start, e.stop - e.start⟩

/-- The offset of the first place in `text` where `content` stands as it is. -/
def offset? (content : List Char) : List Char → Option Nat
  | [] => if content = [] then some 0 else none
  | c :: text =>
    if content.isPrefixOf (c :: text) then some 0
    else (offset? content text).map (c.utf8Size + ·)

/-- Code with the place it was taken from. Where `within` does not hold it as it is, the code is a
text of its own under the same name. -/
def located (content : List Char) (within : Span) : Snippet :=
  match offset? content within.contents with
  | some i => ⟨content, ⟨within.source, within.start + i, Text.byteLength content⟩⟩
  | none => ⟨content, Source.whole ⟨content, within.source.path⟩⟩

/-- Adds a piece to a line, which is reversed. Neighbouring texts become one. -/
def push (p : Piece) : List Piece → List Piece
  | ⟨.text s, span⟩ :: before =>
    match p.inline with
    | .text t => ⟨.text (s ++ t), span.cover p.span⟩ :: before
    | _ => p :: ⟨.text s, span⟩ :: before
  | before => p :: before

def plain : List Piece → List Char
  | [] => []
  | p :: ps =>
    match p.inline with
    | .text s => s ++ plain ps
    | .code snippet => snippet.text ++ plain ps
    | _ => plain ps

/-- The pieces of a line, after those of `before`, which is reversed. A paragraph within an item is
looked through; a link is its destination and its plain text. -/
def line (source : Source) (before : List Piece) : List Located → List Piece
  | [] => before.reverse
  | e :: es =>
    let add (i : Inline) := push ⟨i, place source e⟩ before
    match e.event with
    | .text s => line source (add (.text s)) es
    | .softBreak => line source (add (.text [' '])) es
    | .hardBreak => line source (add (.text [' '])) es
    | .code s => line source (add (.code (located s (place source e)))) es
    | .opens .strong => line source (add (.strong true)) es
    | .closes .strong => line source (add (.strong false)) es
    | .opens .emphasis => line source (add (.emphasis true)) es
    | .closes .emphasis => line source (add (.emphasis false)) es
    | .opens .paragraph =>
      line source ((line source [] (inside 0 es).1).reverse ++ before) (inside 0 es).2
    | .opens (.link destination) =>
      line source (add (.link destination (plain (line source [] (inside 0 es).1)))) (inside 0 es).2
    | .opens t => line source (add (.unsupported t.describe)) (inside 0 es).2
    | other => line source (add (.unsupported other.describe)) es
termination_by es => es.length
decreasing_by
  all_goals
    have := length_inside 0 es
    simp only [List.length_cons]
    omega

def items (source : Source) : List Located → List Item
  | [] => []
  | e :: es =>
    match e.event with
    | .opens .item =>
      ⟨line source [] (inside 0 es).1, place source e⟩ :: items source (inside 0 es).2
    | _ => items source es
termination_by es => es.length
decreasing_by
  all_goals
    have := length_inside 0 es
    simp only [List.length_cons]
    omega

def textOf (e : Located) : List Char :=
  match e.event with
  | .text s => s
  | _ => []

def isText (e : Located) : Bool :=
  match e.event with
  | .text _ => true
  | _ => false

def fenced (source : Source) (start : Nat) (es : List Located) : Snippet :=
  let texts := es.filter isText
  let within := (Span.coverAll (texts.map (place source))).getD (Span.point source start)
  located (texts.flatMap textOf) within

/-- The element that `e` opens, or is; `inner` are the events inside it. -/
def block (source : Source) (e : Located) (inner : List Located) : Block :=
  match e.event with
  | .opens (.heading level) => .heading level (Text.trim (plain (line source [] inner)))
  | .opens .paragraph => .paragraph (line source [] inner)
  | .opens (.list first?) => .list first?.isSome (items source inner)
  | .opens .fencedCode => .fence (fenced source e.start inner)
  | .opens t => .unsupported t.describe
  | .rule => .unsupported "thematic break"
  | .html _ => .unsupported "HTML"
  | .inlineHtml _ => .unsupported "HTML"
  | other => .unsupported other.describe

def split (e : Located) (es : List Located) : List Located × List Located :=
  match e.event with
  | .opens _ => inside 0 es
  | _ => ([], es)

theorem length_split_snd (e : Located) (es : List Located) :
    (split e es).2.length < es.length + 1 := by
  have := length_inside 0 es
  unfold split
  split
  · omega
  · exact Nat.lt_succ_self _

/-- The elements of a document, one for each of its events that stands in no other element. -/
def outline (source : Source) : List Located → List Element
  | [] => []
  | e :: es =>
    ⟨block source e (split e es).1, place source e⟩ :: outline source (split e es).2
termination_by es => es.length
decreasing_by
  simp only [List.length_cons]
  exact length_split_snd e es

def read (source : Source) : List Element :=
  outline source (Markdown.events source.text)

def program (source : Source) : Except Problem Program :=
  compile (read source)

end Dialogue.Script
