import Dialogue.Span

/-!
Source excerpts: the lines a span touches, numbered in a gutter, with carets under a span that stays
on one line. Lines are looked up at the first and at the last byte of a span, and there is no
excerpt when one of these lies inside a character.
-/
namespace Dialogue

structure Excerpt where
  path : String
  /-- Number of the first line. -/
  start : Nat
  lines : List (List Char)
  startColumn : Nat
  endColumn : Nat
deriving DecidableEq, Repr

/-- The byte at which the last line of a span is looked up. -/
def Span.lastByte (s : Span) : Nat :=
  if s.isEmpty then s.start else s.stop - 1

def Span.excerpt? (s : Span) : Option Excerpt :=
  if [s.start, s.lastByte, s.stop].all fun i => Text.isBoundary i s.source.text then
    let first := s.source.line s.start
    let last := s.source.line s.lastByte
    let lines := (s.source.lines.drop first).take (last - first + 1)
    let startColumn := s.source.column s.start
    some {
      path := s.source.path
      start := first
      lines
      startColumn
      endColumn :=
        if lines.length = 1 then startColumn + s.contents.length else s.source.column s.stop }
  else none

namespace Excerpt

def isMultiline (e : Excerpt) : Bool :=
  e.lines.length != 1

def gutter (e : Excerpt) : Nat :=
  (toString (e.start + e.lines.length)).length

def carets? (e : Excerpt) : Option Nat :=
  if e.isMultiline then none else some (max (e.endColumn - e.startColumn) 1)

def repeated (c : Char) (n : Nat) : String :=
  String.ofList (List.replicate n c)

def padding (e : Excerpt) : String :=
  repeated ' ' e.gutter

def numbered (e : Excerpt) (n : Nat) : String :=
  let digits := toString n
  repeated ' ' (e.gutter - digits.length) ++ digits

def place (e : Excerpt) : String :=
  s!"In {e.path}:{e.start + 1}:{e.startColumn + 1}\n{e.padding} |\n"

def rows (e : Excerpt) (n : Nat) : List (List Char) → String
  | [] => ""
  | l :: ls => s!"{e.numbered n} > {String.ofList l}\n" ++ e.rows (n + 1) ls

/-- The excerpt, with an optional remark beside the carets or under the rows. -/
def render (e : Excerpt) (remark? : Option String) : String :=
  match e.carets? with
  | some carets =>
    let remark := match remark? with
      | some r => s!" note: {r}"
      | none => ""
    e.place ++ s!"{e.numbered (e.start + 1)} | {String.ofList (e.lines.headD [])}\n" ++
      e.padding ++ " | " ++ repeated ' ' e.startColumn ++ repeated '^' carets ++ remark ++ "\n"
  | none =>
    let remark := match remark? with
      | some r => s!"{e.padding} |- note: {r}\n"
      | none => ""
    e.place ++ e.rows (e.start + 1) e.lines ++ remark

end Excerpt
end Dialogue
