import Dialogue.Markdown.Html
import Dialogue.Markdown.Reference

/-!
Block structure. Lines are taken one at a time. The containers that are open decide how much of the
front of a line is theirs; what is left continues the open leaf or opens new blocks, and whatever
the line does not continue is closed before it. A line that continues a paragraph may lack the
marks of the containers around it.
-/
namespace Dialogue.Markdown

inductive Block where
  | paragraph (start stop : Nat) (content : List Glyph)
  | heading (start stop : Nat) (level : Nat) (content : List Glyph)
  | rule (start stop : Nat)
  /-- Lines of code with the bytes they stand for. -/
  | fence (start stop : Nat) (code : List (List Char × Nat × Nat))
  | indented (start stop : Nat)
  | html (start stop : Nat)
  | quote (start stop : Nat) (children : List Block)
  | list (start stop : Nat) (first? : Option Nat) (tight : Bool) (items : List Block)
  | item (start stop : Nat) (children : List Block)
deriving Inhabited

inductive Container where
  | quote
  | list (delimiter : Char) (first? : Option Nat) (loose : Bool)
  /-- Lines of an item are indented at least so far. -/
  | item (indent : Nat)

/-- An open container with its closed children, the last one first. -/
structure Frame where
  container : Container
  start : Nat
  children : List Block

inductive Leaf where
  | none
  /-- Lines with their endings, the last one first. -/
  | paragraph (lines : List (List Glyph))
  | fence (start : Nat) (mark : Char) (width indent : Nat) (code : List (List Char × Nat × Nat))
  | indented (start stop : Nat)
  | html (start stop : Nat) (ending : Html.Ending)

structure Outliner where
  /-- Open containers, the innermost first. -/
  frames : List Frame
  leaf : Leaf
  blocks : List Block
  definitions : Definitions
  /-- Whether the last line was blank. -/
  afterBlank : Bool
  /-- Whether the last line that was not blank ends with the marker of an item. -/
  afterMarker : Bool

def Container.close (stop : Nat) (f : Frame) : Container → Block
  | .quote => .quote f.start stop f.children.reverse
  | .list _ first? loose => .list f.start stop first? (!loose) f.children.reverse
  | .item _ => .item f.start stop f.children.reverse

/-- Three or more of one mark, with blanks between them and nothing else. -/
def isRule (cs : List Char) : Bool :=
  match cs with
  | [] => false
  | c :: _ =>
    (c == '*' || c == '-' || c == '_') && cs.all (fun d => d == c || d == ' ' || d == '\t') &&
      3 ≤ cs.count c

def underline? (cs : List Char) : Option Nat :=
  match cs with
  | [] => none
  | c :: _ =>
    if (c == '=' || c == '-') && (cs.dropWhile (· == c)).all isGap then
      some (if c = '=' then 1 else 2)
    else none

/-- The text of a heading without the marks that may close it. -/
def dropClosing (gs : List Glyph) : List Glyph :=
  let back := gs.reverse.dropWhile (·.char == ' ')
  let bare := back.dropWhile (·.char == '#')
  if bare = [] then []
  else if bare.length < back.length ∧ bare.head?.any (·.char == ' ') then
    (bare.dropWhile (·.char == ' ')).reverse
  else back.reverse

def heading? (gs : List Glyph) : Option (Nat × List Glyph) :=
  let rest := gs.dropWhile (·.char == '#')
  let level := gs.length - rest.length
  if level = 0 ∨ 6 < level then none
  else if rest.head?.all fun g => isGap g.char then
    some (level, dropClosing (rest.dropWhile fun g => isGap g.char))
  else none

def fence? (cs : List Char) : Option (Char × Nat) :=
  match cs with
  | [] => none
  | c :: _ =>
    let rest := cs.dropWhile (· == c)
    let width := cs.length - rest.length
    if (c == '\x60' || c == '~') && 3 ≤ width && !(c == '\x60' && rest.contains '\x60') then
      some (c, width)
    else none

structure Marker where
  delimiter : Char
  first? : Option Nat
  indent : Nat
  after : Cursor

/-- Takes the blanks after a marker of which `width` columns are used. Five columns or more are one
column and the start of indented code. -/
def Marker.finish (delimiter : Char) (first? : Option Nat) (width : Nat) (c : Cursor) :
    Option Marker :=
  if c.isBlank then some ⟨delimiter, first?, width + 1, c⟩
  else match c.space? with
    | none => none
    | some c =>
      let (k, further) := c.skip 4
      if k < 4 then some ⟨delimiter, first?, width + 1 + k, further⟩
      else some ⟨delimiter, first?, width + 1, c⟩

def marker? (indent : Nat) (c : Cursor) : Option Marker :=
  match c.rest with
  | [] => none
  | g :: gs =>
    if g.char = '-' ∨ g.char = '+' ∨ g.char = '*' then
      if isRule (chars c.rest) then none
      else Marker.finish g.char none (indent + 1) (c.drop 1)
    else
      let ds := (chars (g :: gs)).takeWhile Char.isDigit
      match (g :: gs).drop ds.length with
      | d :: _ =>
        if ds ≠ [] ∧ ds.length ≤ 9 ∧ (d.char = '.' ∨ d.char = ')') then
          Marker.finish d.char (some (decimalValue ds)) (indent + ds.length + 1)
            (c.drop (ds.length + 1))
        else none
      | [] => none

def quoteMark? (c : Cursor) : Option Cursor :=
  match c.rest with
  | g :: _ => if g.char = '>' then some ((c.drop 1).skip 1).2 else none
  | [] => none

/-- How many of these containers, the outermost first, the line continues. A blank line continues
every item, but nothing else continues the innermost item when it is `spent`. -/
def continued (spent : Bool) : Cursor → List Frame → Nat × Cursor
  | c, [] => (0, c)
  | c, f :: fs =>
    match f.container with
    | .quote =>
      match quoteMark? (c.skip 3).2 with
      | some c => let (n, c) := continued spent c fs; (n + 1, c)
      | none => (0, c)
    | .list _ _ _ => let (n, c) := continued spent c fs; (n + 1, c)
    | .item indent =>
      let (k, inner) := c.skip indent
      if c.isBlank || (k == indent && !(spent && fs.isEmpty)) then
        let (n, c) := continued spent inner fs
        (n + 1, c)
      else (0, c)

/-- Whether a line that could continue a paragraph opens a block instead. Within the paragraph's own
containers a list item must not be empty, and must be the first if it is numbered. -/
def interrupts (inside : Bool) (c : Cursor) : Bool :=
  let cs := chars c.rest
  isRule cs || (heading? c.rest).isSome || (fence? cs).isSome || (quoteMark? c).isSome ||
    (Html.block? true cs).isSome ||
    match marker? 0 c with
    | none => false
    | some m => !inside || (m.first?.all (· == 1) && !m.after.isBlank)

def trimContent (gs : List Glyph) : List Glyph :=
  (gs.reverse.dropWhile fun g => isGap g.char || isLineEnd g.char).reverse

namespace Outliner

def empty : Outliner :=
  ⟨[], .none, [], [], false, false⟩

def add (o : Outliner) (b : Block) : Outliner :=
  match o.frames with
  | [] => { o with blocks := b :: o.blocks }
  | f :: fs => { o with frames := { f with children := b :: f.children } :: fs }

def closeLeaf (stop : Nat) (o : Outliner) : Outliner :=
  let o' := { o with leaf := .none }
  match o.leaf with
  | .none => o
  | .paragraph lines =>
    let text := lines.reverse.flatten
    let (ds, rest) := Markdown.definitions text.length text
    let o' := { o' with definitions := o.definitions ++ ds }
    match rest, rest.getLast? with
    | g :: _, some last => o'.add (.paragraph g.start last.stop (trimContent rest))
    | _, _ => o'
  | .fence start _ _ _ code => o'.add (.fence start stop code.reverse)
  | .indented start stop => o'.add (.indented start stop)
  | .html start stop _ => o'.add (.html start stop)

def closeFrame (stop : Nat) (o : Outliner) : Outliner :=
  match o.frames with
  | [] => o
  | f :: fs => ({ o with frames := fs } : Outliner).add (f.container.close stop f)

def closeFrames (stop : Nat) : Nat → Outliner → Outliner
  | 0, o => o
  | n + 1, o => closeFrames stop n (o.closeFrame stop)

def closeList (stop : Nat) (o : Outliner) : Outliner :=
  match o.frames with
  | ⟨.list _ _ _, _, _⟩ :: _ => o.closeFrame stop
  | _ => o

/-- Marks the list around an item loose when a blank line parts two of the item's children. -/
def loosen (o : Outliner) : Outliner :=
  match o.afterBlank, o.frames with
  | true, item@⟨.item _, _, _ :: _⟩ :: ⟨.list d first? _, start, items⟩ :: fs =>
    { o with frames := item :: ⟨.list d first? true, start, items⟩ :: fs, afterBlank := false }
  | _, _ => { o with afterBlank := false }

/-- Makes an open list the innermost container, a new one unless `delimiter` goes on with the one
that is open. -/
def continueList (start : Nat) (m : Marker) (o : Outliner) : Outliner :=
  match o.frames with
  | ⟨.list d first? loose, s, items⟩ :: fs =>
    if d = m.delimiter then
      let frame : Frame := ⟨.list d first? (loose || o.afterBlank), s, items⟩
      { o with frames := frame :: fs, afterBlank := false }
    else
      let o := o.closeFrame start
      { o with frames := ⟨.list m.delimiter m.first? false, start, []⟩ :: o.frames,
               afterBlank := false }
  | _ =>
    let o := o.loosen
    { o with frames := ⟨.list m.delimiter m.first? false, start, []⟩ :: o.frames }

/-- The front of the paragraph is `c`. -/
def paragraphLine (c : Cursor) (l : Line) : List Glyph :=
  c.trimmed ++ l.ending?.toList

def openHtml (start : Nat) (l : Line) (cs : List Char) (ending : Html.Ending) (o : Outliner) :
    Outliner :=
  match ending with
  | .after mark =>
    if (Html.after? mark cs).isSome then o.add (.html start l.stop)
    else { o with leaf := .html start l.stop ending }
  | .blank => { o with leaf := .html start l.stop ending }

def openLeaf (c : Cursor) (l : Line) (o : Outliner) : Outliner :=
  if c.isBlank then
    match o.frames with
    | ⟨.quote, _, _⟩ :: _ => o
    | _ => { o with afterBlank := true }
  else
    let o := (o.closeList l.start).loosen
    let (indent, inner) := c.skip 4
    let start := inner.offset l
    if indent = 4 then { o with leaf := .indented start l.stop }
    else
      let cs := chars inner.rest
      match Html.block? false cs with
      | some ending => o.openHtml start l cs ending
      | none =>
        if isRule cs then o.add (.rule start l.stop)
        else match heading? inner.rest with
          | some (level, content) => o.add (.heading start l.stop level (trimContent content))
          | none =>
            match fence? cs with
            | some (mark, width) => { o with leaf := .fence start mark width indent [] }
            | none => { o with leaf := .paragraph [paragraphLine inner l] }

/-- Opens the containers that start at the cursor, and then the leaf in them. Every container takes
a mark, so there are no more of them than characters. -/
def openBlocks : Nat → Cursor → Line → Outliner → Outliner
  | 0, c, l, o => o.openLeaf c l
  | fuel + 1, c, l, o =>
    let (indent, inner) := c.skip 4
    if indent = 4 then o.openLeaf c l
    else
      let start := inner.offset l
      match marker? indent inner with
      | some m =>
        let o := o.continueList start m
        let o := { o with frames := ⟨.item m.indent, start, []⟩ :: o.frames }
        if m.after.isBlank then { o with afterMarker := true } else openBlocks fuel m.after l o
      | none =>
        match quoteMark? inner with
        | some after =>
          let o := (o.closeList l.start).loosen
          openBlocks fuel after l { o with frames := ⟨.quote, start, []⟩ :: o.frames }
        | none => o.openLeaf c l

/-- Closes everything the line does not continue and opens what it opens. -/
def restart (matched : Nat) (c : Cursor) (l : Line) (o : Outliner) : Outliner :=
  let o := o.closeLeaf l.start
  let o := o.closeFrames l.start (o.frames.length - matched)
  o.openBlocks (l.glyphs.length + 1) c l

def closingFence? (mark : Char) (width : Nat) (c : Cursor) (l : Line) : Option Nat :=
  let rest := c.rest.dropWhile (·.char == mark)
  if width ≤ c.rest.length - rest.length ∧ rest.all (·.char == ' ') then some l.textStop else none

def fenceLine (start : Nat) (mark : Char) (width indent : Nat)
    (code : List (List Char × Nat × Nat)) (c : Cursor) (l : Line) (o : Outliner) : Outliner :=
  let (_, c) := c.skip indent
  let (k, inner) := c.skip (4 - indent)
  let closing? := if k < 4 - indent then closingFence? mark width inner l else none
  match closing? with
  | some stop => ({ o with leaf := .none } : Outliner).add (.fence start stop code.reverse)
  | none =>
    let text := List.replicate c.owed ' ' ++ chars (c.rest ++ l.ending?.toList)
    { o with leaf := .fence start mark width indent ((text, c.offset l, l.stop) :: code) }

def htmlLine (start stop : Nat) (ending : Html.Ending) (c : Cursor) (l : Line) (o : Outliner) :
    Outliner :=
  match ending with
  | .blank =>
    if c.isBlank then
      let o := o.closeLeaf stop
      { o with afterBlank := true }
    else { o with leaf := .html start l.stop ending }
  | .after mark =>
    let o := { o with leaf := .html start l.stop ending }
    if (Html.after? mark (chars c.rest)).isSome then o.closeLeaf l.stop else o

/-- Whether the open paragraph has no text but definitions. -/
def definesOnly (lines : List (List Glyph)) : Bool :=
  let text := lines.reverse.flatten
  (Markdown.definitions text.length text).2 == []

def startsTitle (c : Cursor) : Bool :=
  c.trimmed.head?.any fun g => ['"', '\x27', '('].contains g.char

def closeHeading (level : Nat) (lines : List (List Glyph)) (l : Line) (o : Outliner) : Outliner :=
  let text := lines.reverse.flatten
  let (ds, rest) := Markdown.definitions text.length text
  let o := { o with leaf := .none, definitions := o.definitions ++ ds }
  match rest with
  | g :: _ => o.add (.heading g.start l.stop level (trimContent rest))
  | [] => o

/-- An item that starts with a blank line has its text on the next line or none at all. -/
def isSpent (o : Outliner) : Bool :=
  o.afterMarker && o.afterBlank

def takeLine (o : Outliner) (l : Line) : Outliner :=
  let (matched, c) := continued o.isSpent (.ofLine l) o.frames.reverse
  let o := { o with afterMarker := o.afterMarker && c.isBlank }
  let inside := matched == o.frames.length
  match o.leaf with
  | .none => o.restart matched c l
  | .fence start mark width indent code =>
    if inside then o.fenceLine start mark width indent code c l else o.restart matched c l
  | .html start stop ending =>
    if inside then o.htmlLine start stop ending c l else o.restart matched c l
  | .indented start stop =>
    if inside && c.isBlank then { o with leaf := .indented start stop, afterBlank := true }
    else if inside && c.indentation == 4 then
      { o with leaf := .indented start l.stop, afterBlank := false }
    else o.restart matched c l
  | .paragraph ls =>
    let (indent, inner) := c.skip 4
    let longer := { o with leaf := .paragraph (paragraphLine c l :: ls) }
    if c.isBlank then o.restart matched c l
    else if definesOnly ls then
      if inside && startsTitle c then longer else o.restart matched c l
    else if indent = 4 then longer
    else match if inside then underline? (chars inner.rest) else none with
      | some level => o.closeHeading level ls l
      | none => if interrupts inside inner then o.restart matched c l else longer

def finish (stop : Nat) (o : Outliner) : Outliner :=
  let o := o.closeLeaf stop
  o.closeFrames stop o.frames.length

end Outliner

def blocks (text : List Char) (stop : Nat) : List Block × Definitions :=
  let o := ((lines text).foldl Outliner.takeLine .empty).finish stop
  (o.blocks.reverse, o.definitions)

end Dialogue.Markdown
