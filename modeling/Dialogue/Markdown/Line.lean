/-!
Lines of a document. Every character is kept with the bytes it stands for, so that what is found
after prefixes and indentation are taken away still knows where it came from. Indentation is counted
in columns, a tab reaching to the next multiple of four; part of a tab may be used up.
-/
namespace Dialogue.Markdown

/-- A character and the bytes it stands for. A carriage return and line feed are one line feed. -/
structure Glyph where
  char : Char
  start : Nat
  stop : Nat
deriving DecidableEq, Repr, Inhabited

def isLineEnd (c : Char) : Bool :=
  c == '\n' || c == '\r'

def isGap (c : Char) : Bool :=
  c == ' ' || c == '\t' || c == '\x0b' || c == '\x0c'

def glyphs (i : Nat) : List Char → List Glyph
  | '\r' :: '\n' :: cs => ⟨'\n', i, i + 2⟩ :: glyphs (i + 2) cs
  | c :: cs => ⟨c, i, i + c.utf8Size⟩ :: glyphs (i + c.utf8Size) cs
  | [] => []

def chars (gs : List Glyph) : List Char :=
  gs.map Glyph.char

structure Line where
  start : Nat
  /-- Without the line ending. -/
  glyphs : List Glyph
  ending? : Option Glyph
deriving Repr

namespace Line

def textStop (l : Line) : Nat :=
  match l.ending?, l.glyphs.getLast? with
  | some g, _ => g.start
  | none, some g => g.stop
  | none, none => l.start

def stop (l : Line) : Nat :=
  match l.ending? with
  | some g => g.stop
  | none => l.textStop

/-- Lines of `gs`, the first of which starts at `start` with `front`, reversed. -/
def split (start : Nat) (front : List Glyph) : List Glyph → List Line
  | [] => if front = [] then [] else [⟨start, front.reverse, none⟩]
  | g :: gs =>
    if isLineEnd g.char then ⟨start, front.reverse, some g⟩ :: split g.stop [] gs
    else split start (g :: front) gs

end Line

def lines (text : List Char) : List Line :=
  Line.split 0 [] (glyphs 0 text)

/-- A place in a line: its column, the columns left of a tab that is partly used up, and what
follows. -/
structure Cursor where
  column : Nat
  owed : Nat
  rest : List Glyph
deriving Repr

namespace Cursor

def ofLine (l : Line) : Cursor :=
  ⟨0, 0, l.glyphs⟩

def isBlank (c : Cursor) : Bool :=
  c.rest.all fun g => isGap g.char

def offset (c : Cursor) (l : Line) : Nat :=
  match c.rest with
  | g :: _ => g.start
  | [] => l.textStop

def space? (c : Cursor) : Option Cursor :=
  if 0 < c.owed then some { c with column := c.column + 1, owed := c.owed - 1 }
  else match c.rest with
    | [] => none
    | g :: gs =>
      if g.char = ' ' then some ⟨c.column + 1, 0, gs⟩
      else if g.char = '\t' then some ⟨c.column + 1, 3 - c.column % 4, gs⟩
      else none

/-- Skips at most so many columns; the first component is how many there were. -/
def skip : Nat → Cursor → Nat × Cursor
  | 0, c => (0, c)
  | n + 1, c =>
    match c.space? with
    | none => (0, c)
    | some c => let (k, c) := skip n c; (k + 1, c)

def indentation (c : Cursor) : Nat :=
  (c.skip 4).1

def drop (n : Nat) (c : Cursor) : Cursor :=
  ⟨c.column + n, 0, c.rest.drop n⟩

def trimmed (c : Cursor) : List Glyph :=
  c.rest.dropWhile fun g => g.char == ' ' || g.char == '\t'

end Cursor
end Dialogue.Markdown
