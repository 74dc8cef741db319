import Dialogue.Span
import Mathlib.Data.List.Induction

/-!
Where the lines of a text stand. A line takes the bytes of its characters and of the line feed
that ends it, so every byte of a text is on one of its lines and no other, and lines stand one
behind the other. The number of that line is what counting line feeds comes to.
-/
namespace Dialogue.Source
open Text (byteLength takeBytes)

variable {s : Source} {cs l : List Char} {ls : List (List Char)} {c : Char} {i j n m : Nat}

theorem exists_splitLines (cs : List Char) : ∃ l ls, splitLines cs = l :: ls := by
  cases cs with
  | nil => exact ⟨[], [], rfl⟩
  | cons c cs =>
    unfold splitLines
    split
    · exact ⟨_, _, rfl⟩
    · split <;> exact ⟨_, _, rfl⟩

theorem splitLines_feed (cs : List Char) : splitLines ('\n' :: cs) = [] :: splitLines cs := by
  simp [splitLines]

theorem splitLines_other (other : c ≠ '\n') (split : splitLines cs = l :: ls) :
    splitLines (c :: cs) = (c :: l) :: ls := by
  simp [splitLines, other, split]

theorem length_splitLines (cs : List Char) : (splitLines cs).length = cs.count '\n' + 1 := by
  induction cs with
  | nil => rfl
  | cons c cs ih =>
    by_cases feed : c = '\n'
    · subst feed
      rw [splitLines_feed]
      simp [ih]
    · obtain ⟨l, ls, split⟩ := exists_splitLines cs
      rw [splitLines_other feed split]
      rw [split] at ih
      simpa [feed] using ih

theorem splitLines_append_feed (front rest : List Char) :
    splitLines (front ++ '\n' :: rest) = splitLines front ++ splitLines rest := by
  induction front with
  | nil => exact splitLines_feed rest
  | cons c front ih =>
    by_cases feed : c = '\n'
    · subst feed
      rw [List.cons_append, splitLines_feed, splitLines_feed, ih]
      rfl
    · obtain ⟨l, ls, split⟩ := exists_splitLines front
      rw [split] at ih
      rw [List.cons_append, splitLines_other feed ih, splitLines_other feed split]
      rfl

theorem splitLines_of_not_mem (single : '\n' ∉ l) : splitLines l = [l] := by
  induction l with
  | nil => rfl
  | cons c l ih =>
    have other : c ≠ '\n' := fun feed => single (feed ▸ List.mem_cons_self)
    exact splitLines_other other (ih fun mem => single (List.mem_cons_of_mem c mem))

theorem splitLines_flatMap (ls : List (List Char)) :
    splitLines (ls.flatMap (· ++ ['\n'])) = ls.flatMap splitLines ++ [[]] := by
  induction ls with
  | nil => rfl
  | cons l ls ih =>
    rw [List.flatMap_cons, List.flatMap_cons, List.append_assoc, List.singleton_append,
      splitLines_append_feed, ih, List.append_assoc]

theorem length_flatMap_splitLines (ls : List (List Char)) :
    (ls.flatMap splitLines).length = ls.length + ls.flatten.count '\n' := by
  induction ls with
  | nil => rfl
  | cons l ls ih =>
    rw [List.flatMap_cons, List.length_append, ih, length_splitLines, List.flatten_cons,
      List.count_append, List.length_cons]
    omega

theorem flatMap_splitLines_eq_iff : ls.flatMap splitLines = ls ↔ ∀ l ∈ ls, '\n' ∉ l := by
  constructor
  · intro same l mem feed
    have count := length_flatMap_splitLines ls
    rw [same] at count
    have none : ls.flatten.count '\n' = 0 := by omega
    exact List.count_eq_zero.mp none (List.mem_flatten.mpr ⟨l, mem, feed⟩)
  · intro single
    induction ls with
    | nil => rfl
    | cons l ls ih =>
      rw [List.flatMap_cons, splitLines_of_not_mem (single l List.mem_cons_self),
        ih fun k mem => single k (List.mem_cons_of_mem l mem)]
      rfl

/-- A text breaks off in a line, and what comes next goes on with that line. -/
theorem exists_broken_line (front : List Char) : ∃ own, own.count '\n' = 0 ∧
    own.length = (front.reverse.takeWhile (· ≠ '\n')).length ∧
    ∀ rest, (splitLines (front ++ rest)).drop (front.count '\n') = splitLines (own ++ rest) := by
  induction front using List.reverseRecOn with
  | nil => exact ⟨[], rfl, rfl, fun rest => rfl⟩
  | append_singleton front c ih =>
    obtain ⟨own, single, length, goes⟩ := ih
    by_cases feed : c = '\n'
    · subst feed
      refine ⟨[], rfl, by simp, fun rest => ?_⟩
      have whole : (front ++ ['\n']).count '\n' = (splitLines front).length := by
        simp [length_splitLines]
      rw [List.append_assoc, List.singleton_append, splitLines_append_feed, whole, List.drop_left]
      rfl
    · refine ⟨own ++ [c], by simp [single, feed], by simp [length, feed], fun rest => ?_⟩
      have same : (front ++ [c]).count '\n' = front.count '\n' := by simp [feed]
      rw [List.append_assoc, List.append_assoc, same]
      exact goes ([c] ++ rest)

theorem joined_lines (any : ls ≠ []) :
    ['\n'].intercalate ls ++ ['\n'] = ls.flatMap (· ++ ['\n']) := by
  induction ls with
  | nil => exact absurd rfl any
  | cons l ls ih =>
    cases ls with
    | nil => simp
    | cons k ls =>
      rw [List.intercalate_cons_cons, List.append_assoc, ih (by simp), List.flatMap_cons (x := l)]

/-- As many lines as a piece of text has line feeds before its last character, and one more, hold
all of it. -/
theorem prefix_of_lines (front : List Char) (c : Char) (rest : List Char) : front ++ [c] <+:
    ((splitLines (front ++ c :: rest)).take (front.count '\n' + 1)).flatMap (· ++ ['\n']) := by
  induction front with
  | nil =>
    obtain ⟨l, ls, split⟩ := exists_splitLines rest
    by_cases feed : c = '\n'
    · subst feed
      simp [splitLines_feed]
    · simp [splitLines_other feed split]
  | cons d front ih =>
    obtain ⟨l, ls, split⟩ := exists_splitLines (front ++ c :: rest)
    by_cases feed : d = '\n'
    · subst feed
      simpa [splitLines_feed] using ih
    · rw [split] at ih
      rw [List.cons_append, List.cons_append, splitLines_other feed split]
      simpa [feed] using ih

def lineStart : List (List Char) → Nat → Nat
  | l :: ls, n + 1 => byteLength l + 1 + lineStart ls n
  | _, _ => 0

/-- The byte at `i` is on line `n`. The line feed at the end of a line is a part of it. -/
def OnLine (s : Source) (n i : Nat) : Prop :=
  ∃ l, s.lines[n]? = some l ∧ lineStart s.lines n ≤ i ∧ i ≤ lineStart s.lines n + byteLength l

theorem lineStart_succ (here : ls[n]? = some l) :
    lineStart ls (n + 1) = lineStart ls n + byteLength l + 1 := by
  induction ls generalizing n with
  | nil => simp at here
  | cons k ls ih =>
    cases n with
    | zero =>
      cases here
      cases ls <;> simp [lineStart]
    | succ n =>
      have later := ih here
      rw [lineStart, later, lineStart]
      omega

theorem lineStart_mono (before : n ≤ m) : lineStart ls n ≤ lineStart ls m := by
  induction ls generalizing n m with
  | nil => simp [lineStart]
  | cons l ls ih =>
    cases n with
    | zero => simp [lineStart]
    | succ n =>
      cases m with
      | zero => omega
      | succ m =>
        have later := ih (Nat.le_of_succ_le_succ before)
        simp only [lineStart]
        omega

theorem OnLine.le (first : s.OnLine n i) (second : s.OnLine m j) (before : i ≤ j) : n ≤ m := by
  obtain ⟨_, _, low, _⟩ := first
  obtain ⟨l, here, _, high⟩ := second
  by_contra later
  have next := lineStart_succ here
  have room : lineStart s.lines (m + 1) ≤ lineStart s.lines n := lineStart_mono (by omega)
  omega

theorem OnLine.unique (first : s.OnLine n i) (second : s.OnLine m i) : n = m :=
  Nat.le_antisymm (first.le second (Nat.le_refl i)) (second.le first (Nat.le_refl i))

/-- Counting the line feeds before a byte gives the number of its line. -/
theorem onLine_line (inside : i ≤ s.size) : s.OnLine (s.line i) i := by
  unfold OnLine line lines
  unfold size at inside
  generalize s.text = text at inside
  induction text generalizing i with
  | nil =>
    obtain rfl : i = 0 := by simpa [byteLength] using inside
    exact ⟨[], by simp [splitLines, takeBytes, lineStart]⟩
  | cons c cs ih =>
    by_cases zero : i = 0
    · subst zero
      obtain ⟨l, ls, split⟩ := exists_splitLines (c :: cs)
      exact ⟨l, by simp [split, lineStart]⟩
    · have further : i - c.utf8Size ≤ byteLength cs := by
        simp only [byteLength] at inside
        omega
      obtain ⟨l, here, low, high⟩ := ih further
      rw [takeBytes, if_neg zero]
      by_cases feed : c = '\n'
      · subst feed
        have one : '\n'.utf8Size = 1 := rfl
        rw [splitLines_feed, List.count_cons_self]
        refine ⟨l, here, ?_, ?_⟩ <;> simp only [lineStart, byteLength] <;> omega
      · obtain ⟨k, ls, split⟩ := exists_splitLines cs
        rw [List.count_cons_of_ne feed, splitLines_other feed split]
        rw [split] at here low high
        cases number : (takeBytes (i - c.utf8Size) cs).count '\n' with
        | zero =>
          rw [number] at here low high
          cases here
          refine ⟨c :: l, rfl, ?_, ?_⟩ <;> simp only [lineStart, byteLength] at * <;> omega
        | succ n =>
          rw [number] at here low high
          refine ⟨l, here, ?_, ?_⟩ <;> simp only [lineStart, byteLength] at * <;> omega

end Dialogue.Source
