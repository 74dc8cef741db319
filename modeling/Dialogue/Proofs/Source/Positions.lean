import Dialogue.Proofs.Source.Lines
import Mathlib.Data.Prod.Lex

/-!
Line and column as the name of a place in a text. All lines with their line feeds take one byte
more than the text, whose last line has none. So the lines before a place and the characters
before it on its own line take just as many bytes as stand before the place, and places follow
each other by line and, on one line, by column.
-/
namespace Dialogue.Source
open Text (byteLength takeBytes)

variable {s : Source} {own rest l : List Char} {ls : List (List Char)} {i n m : Nat}

theorem lineStart_drop (inside : n ≤ ls.length) :
    lineStart ls n + lineStart (ls.drop n) (ls.drop n).length = lineStart ls ls.length := by
  induction ls generalizing n with
  | nil => simp [lineStart]
  | cons l ls ih =>
    cases n with
    | zero => simp [lineStart]
    | succ n =>
      have later := ih (Nat.le_of_succ_le_succ inside)
      simp only [lineStart, List.drop_succ_cons, List.length_cons]
      omega

/-- The last line counts as if it were ended by a line feed too. -/
theorem lineStart_splitLines (cs : List Char) :
    lineStart (splitLines cs) (splitLines cs).length = byteLength cs + 1 := by
  induction cs with
  | nil => rfl
  | cons c cs ih =>
    by_cases feed : c = '\n'
    · subst feed
      have one : '\n'.utf8Size = 1 := rfl
      rw [splitLines_feed]
      simp only [List.length_cons, lineStart, byteLength, ih, one]
      omega
    · obtain ⟨l, ls, split⟩ := exists_splitLines cs
      rw [splitLines_other feed split]
      rw [split] at ih
      simp only [List.length_cons, lineStart, byteLength] at *
      omega

theorem splitLines_append_of_not_mem (single : '\n' ∉ own) (split : splitLines rest = l :: ls) :
    splitLines (own ++ rest) = (own ++ l) :: ls := by
  induction own with
  | nil => exact split
  | cons c own ih =>
    have other : c ≠ '\n' := fun feed => single (feed ▸ List.mem_cons_self)
    exact splitLines_other other (ih fun mem => single (List.mem_cons_of_mem c mem))

theorem lineStart_broken_line (front rest : List Char) : ∃ own more,
    (splitLines (front ++ rest))[front.count '\n']? = some (own ++ more) ∧
    own.length = (front.reverse.takeWhile (· ≠ '\n')).length ∧
    lineStart (splitLines (front ++ rest)) (front.count '\n') + byteLength own =
      byteLength front := by
  obtain ⟨own, single, length, goes⟩ := exists_broken_line front
  obtain ⟨more, ls, split⟩ := exists_splitLines rest
  have broken := goes rest
  rw [splitLines_append_of_not_mem (List.count_eq_zero.mp single) split] at broken
  have here : (splitLines (front ++ rest))[front.count '\n']? = some (own ++ more) := by
    rw [← List.head?_drop, broken, List.head?_cons]
  refine ⟨own, more, here, length, ?_⟩
  have shared := lineStart_drop (List.getElem?_eq_some_iff.mp here).1.le
  rw [goes rest, lineStart_splitLines, lineStart_splitLines] at shared
  simp only [Text.byteLength_append] at shared
  omega

theorem le_size_of_boundary (boundary : Text.Boundary i s.text) : i ≤ s.size := by
  obtain ⟨front, ⟨rest, whole⟩, rfl⟩ := boundary
  rw [size, ← whole, Text.byteLength_append]
  exact Nat.le_add_right ..

theorem byteLength_take_le (l : List Char) (order : n ≤ m) :
    byteLength (l.take n) ≤ byteLength (l.take m) := by
  obtain ⟨more, same⟩ := List.take_prefix_take_left (l := l) order
  rw [← same, Text.byteLength_append]
  exact Nat.le_add_right ..

/-- The place is on a line of the text, and that many bytes after the beginning of the line as the
characters before its column take. -/
theorem located (boundary : Text.Boundary i s.text) :
    ∃ l, s.lines[s.line i]? = some l ∧ s.column i ≤ l.length ∧
    lineStart s.lines (s.line i) + byteLength (l.take (s.column i)) = i := by
  obtain ⟨front, ⟨rest, whole⟩, length⟩ := boundary
  have ahead : takeBytes i s.text = front := by
    rw [← whole, ← length, Text.takeBytes_byteLength_append]
  obtain ⟨own, more, here, width, bytes⟩ := lineStart_broken_line front rest
  have column : s.column i = own.length := by rw [Source.column, ahead, width]
  rw [whole] at here bytes
  refine ⟨own ++ more, ?_, ?_, ?_⟩
  · rw [line, ahead]
    exact here
  · rw [column, List.length_append]
    exact Nat.le_add_right ..
  · rw [line, ahead, column, List.take_left, lines, bytes, length]

def position (s : Source) (i : Nat) : Nat ×ₗ Nat :=
  toLex (s.line i, s.column i)

/-- At every place between characters, the lines before it with their line feeds and the
characters before its column take as many bytes as stand before the place; and the positions of
such places come in their order. -/
theorem positions_locate (s : Source) :
    (∀ i, Text.Boundary i s.text → ∃ l, s.lines[s.line i]? = some l ∧ s.column i ≤ l.length ∧
      lineStart s.lines (s.line i) + byteLength (l.take (s.column i)) = i) ∧
    StrictMonoOn s.position {i | Text.Boundary i s.text} := by
  refine ⟨fun i boundary => located boundary, ?_⟩
  intro i first j second before
  have order : s.line i ≤ s.line j :=
    (onLine_line (le_size_of_boundary first)).le (onLine_line (le_size_of_boundary second))
    before.le
  rw [position, position, Prod.Lex.toLex_lt_toLex]
  rcases Nat.lt_or_eq_of_le order with earlier | same
  · exact Or.inl earlier
  · refine Or.inr ⟨same, ?_⟩
    obtain ⟨l, here, _, bytes⟩ := located first
    obtain ⟨l', here', _, bytes'⟩ := located second
    rw [same] at here bytes
    cases here.symm.trans here'
    change s.column i < s.column j
    by_contra later
    have := byteLength_take_le l (Nat.le_of_not_lt later)
    omega

/-- A letter of two bytes before an empty line and another one on the line after it. -/
theorem positions_locate_empty_line :
    let s : Source := ⟨"Né\n\nÉ\n".toList, "./source"⟩
    Text.Boundary 5 s.text ∧ Text.Boundary 8 s.text ∧ s.position 5 = toLex (2, 0) ∧
      s.position 8 = toLex (3, 0) ∧
      s.position 5 < s.position 8 ∧ ∃ l, s.lines[s.line 5]? = some l ∧
      lineStart s.lines (s.line 5) +
        byteLength (l.take (s.column 5)) = 5 := by
  intro s
  have first : Text.Boundary 5 s.text := Text.isBoundary_iff.mp (by decide)
  have last : Text.Boundary 8 s.text := Text.isBoundary_iff.mp (by decide)
  obtain ⟨locate, increase⟩ := positions_locate s
  obtain ⟨l, here, _, bytes⟩ := locate 5 first
  exact ⟨first, last, by decide +kernel, by decide +kernel, increase first last (by decide),
    l, here, bytes⟩

end Dialogue.Source
