import Dialogue.Text.Bytes

/-!
Texts with a name, and sections of them. A span remembers the text it belongs to, so that code found
in a document can point back into it. Offsets and lengths are bytes; lines and columns count from
zero, columns in characters.
-/
namespace Dialogue

structure Source where
  text : List Char
  path : String
deriving DecidableEq, Repr, Inhabited

structure Span where
  source : Source
  start : Nat
  length : Nat
deriving DecidableEq, Repr, Inhabited

namespace Source

def size (s : Source) : Nat :=
  Text.byteLength s.text

def whole (s : Source) : Span :=
  ⟨s, 0, s.size⟩

def line (s : Source) (i : Nat) : Nat :=
  (Text.takeBytes i s.text).count '\n'

def column (s : Source) (i : Nat) : Nat :=
  ((Text.takeBytes i s.text).reverse.takeWhile (· ≠ '\n')).length

/-- The pieces of a text between its line feeds; there is always one. -/
def splitLines : List Char → List (List Char)
  | [] => [[]]
  | c :: cs =>
    if c = '\n' then [] :: splitLines cs
    else match splitLines cs with
      | [] => [[c]]
      | l :: ls => (c :: l) :: ls

def lines (s : Source) : List (List Char) :=
  splitLines s.text

end Source

namespace Span

def stop (s : Span) : Nat :=
  s.start + s.length

def point (source : Source) (i : Nat) : Span :=
  ⟨source, i, 0⟩

def isEmpty (s : Span) : Bool :=
  s.length == 0

def contents (s : Span) : List Char :=
  Text.takeBytes s.length (Text.dropBytes s.start s.source.text)

/-- A span that lies in its text and cuts it between characters. -/
def Valid (s : Span) : Prop :=
  Text.Boundary s.start s.source.text ∧ Text.Boundary s.stop s.source.text

/-- The least section that covers both, in the text of the first. -/
def cover (a b : Span) : Span :=
  let start := min a.start b.start
  ⟨a.source, start, max a.stop b.stop - start⟩

def coverAll : List Span → Option Span
  | [] => none
  | s :: ss => some (ss.foldl cover s)

@[simp] theorem contents_point (source : Source) (i : Nat) : (point source i).contents = [] := by
  simp [contents, point]

theorem contents_whole (source : Source) : source.whole.contents = source.text := by
  have h := Text.takeBytes_byteLength_append source.text []
  simpa [contents, Source.whole, Source.size] using h

end Span
end Dialogue
