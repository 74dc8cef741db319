import Dialogue.Excerpt
import Dialogue.Proofs.Source.Lines
import Dialogue.Proofs.Term.Subterms

/-!
What an excerpt shows of a span. The line after the last is looked for at the last byte of the
span, which is a place between characters only if the last character has no other byte; that is
the one way in which a span can be without an excerpt. Otherwise the excerpt is made of the lines
that hold a byte of the span, and what stands in them from the first column on is the span's text.
-/
namespace Dialogue
open Text (byteLength takeBytes)

namespace Text
variable {front rest : List Char} {c : Char} {k : Nat}

theorem utf8Size_le_of_boundary (boundary : Boundary (byteLength front + k) (front ++ c :: rest))
    (inside : 0 < k) :
    c.utf8Size ≤ k := by
  obtain ⟨taken, whole, length⟩ := boundary
  rcases List.prefix_or_prefix_of_prefix whole (List.prefix_append front (c :: rest))
    with ⟨more, rfl⟩ | ⟨more, rfl⟩
  · rw [byteLength_append] at length
    omega
  · rw [byteLength_append] at length
    cases more with
    | nil =>
      simp only [byteLength] at length
      omega
    | cons d more =>
      obtain ⟨rfl, _⟩ := List.cons_prefix_cons.mp ((List.prefix_append_right_inj front).mp whole)
      simp only [byteLength] at length
      omega

theorem utf8Size_eq_one_iff : c.utf8Size = 1 ↔ c.toNat < 0x80 := by
  rw [Char.utf8Size_eq_one_iff, UInt32.le_iff_toNat_le]
  exact Nat.lt_succ_iff.symm

end Text

namespace Span
variable {s : Span} {n : Nat}

/-- Line `n` of the source holds a byte of the span or, if that is empty, the place where it
stands. -/
def Touches (s : Span) (n : Nat) : Prop :=
  if s.isEmpty then s.source.OnLine n s.start
  else ∃ i, s.start ≤ i ∧ i < s.stop ∧ s.source.OnLine n i

theorem lastByte_cases (s : Span) : s.isEmpty = true ∧ s.lastByte = s.start ∨
    s.isEmpty = false ∧ s.lastByte + 1 = s.stop ∧ s.start ≤ s.lastByte := by
  by_cases empty : s.length = 0
  · exact Or.inl ⟨by simp [isEmpty, empty], by simp [lastByte, isEmpty, empty]⟩
  · refine Or.inr ⟨by simp [isEmpty, empty], ?_⟩
    simp only [lastByte, isEmpty, beq_eq_false_iff_ne.mpr empty, Bool.false_eq_true, if_false, stop]
    omega

theorem Valid.lastByte_between (valid : s.Valid) :
    s.start ≤ s.lastByte ∧ s.lastByte ≤ s.source.size := by
  obtain ⟨front, ⟨rest, whole⟩, length⟩ := valid.2
  have room : s.stop ≤ s.source.size := by
    rw [Source.size, ← whole, Text.byteLength_append]
    omega
  have extent : s.start ≤ s.stop := Nat.le_add_right ..
  rcases s.lastByte_cases with ⟨_, same⟩ | ⟨_, last, inside⟩ <;> omega

theorem Valid.onLine_start (valid : s.Valid) : s.source.OnLine (s.source.line s.start) s.start :=
  Source.onLine_line (Nat.le_trans valid.lastByte_between.1 valid.lastByte_between.2)

theorem Valid.onLine_lastByte (valid : s.Valid) :
    s.source.OnLine (s.source.line s.lastByte) s.lastByte :=
  Source.onLine_line valid.lastByte_between.2

/-- The lines that a span touches are those from the line of its start to the line of its last
byte. -/
theorem touches_iff (valid : s.Valid) :
    s.Touches n ↔ s.source.line s.start ≤ n ∧ n ≤ s.source.line s.lastByte := by
  have first := valid.onLine_start
  have final := valid.onLine_lastByte
  rcases s.lastByte_cases with ⟨empty, same⟩ | ⟨filled, last, inside⟩
  · rw [same] at final
    rw [Touches, if_pos empty, same]
    constructor
    · exact fun on => ⟨Nat.le_of_eq (first.unique on), Nat.le_of_eq (on.unique final)⟩
    · rintro ⟨low, high⟩
      rwa [Nat.le_antisymm high low]
  · rw [Touches, if_neg (by simp [filled])]
    constructor
    · rintro ⟨i, low, high, on⟩
      exact ⟨first.le on low, on.le final (by omega)⟩
    · rintro ⟨low, high⟩
      rcases Nat.lt_or_eq_of_le low with later | same
      · -- A line behind the first one begins inside the span.
        obtain ⟨_, here, start, _⟩ := final
        obtain ⟨_, before, _, reach⟩ := first
        have next := Source.lineStart_succ before
        have behind : Source.lineStart s.source.lines (s.source.line s.start + 1) ≤
            Source.lineStart s.source.lines n := Source.lineStart_mono later
        have ahead : Source.lineStart s.source.lines n ≤
            Source.lineStart s.source.lines (s.source.line s.lastByte) := Source.lineStart_mono high
        obtain ⟨known, _⟩ := List.getElem?_eq_some_iff.mp here
        have line := List.getElem?_eq_getElem (Nat.lt_of_le_of_lt high known)
        exact ⟨_, by omega, by omega, _, line, Nat.le_refl _, Nat.le_add_right ..⟩
      · subst same
        exact ⟨s.start, Nat.le_refl _, by omega, first⟩

theorem Valid.last (valid : s.Valid) (filled : s.isEmpty = false) : ∃ before own c after,
    s.contents = own ++ [c] ∧ s.source.text = before ++ own ++ c :: after ∧
      byteLength before = s.start ∧ s.lastByte + 1 = byteLength (before ++ own) + c.utf8Size := by
  obtain ⟨before, after, text, start, length⟩ := valid.parts
  rcases s.lastByte_cases with ⟨empty, _⟩ | ⟨_, last, _⟩
  · simp [empty] at filled
  cases found : s.contents.getLast? with
  | none =>
    rw [List.getLast?_eq_none_iff.mp found] at length
    simp [isEmpty, ← length, byteLength] at filled
  | some c =>
    obtain ⟨own, whole⟩ := List.getLast?_eq_some_iff.mp found
    refine ⟨before, own, c, after, whole, by simp [text, whole], start, ?_⟩
    rw [whole, Text.byteLength_append] at length
    rw [Text.byteLength_append, last, stop]
    simp only [byteLength] at length
    omega

/-- The last byte of a span is a place between characters unless the last character has several. -/
theorem boundary_lastByte_iff (valid : s.Valid) : Text.Boundary s.lastByte s.source.text ↔
    ¬ (s.isEmpty = false ∧ ∃ c ∈ s.contents.getLast?, 0x80 ≤ c.toNat) := by
  rcases s.lastByte_cases with ⟨empty, same⟩ | ⟨filled, _, _⟩
  · rw [same]
    simp [empty, valid.1]
  obtain ⟨before, own, c, after, whole, text, _, place⟩ := valid.last filled
  have pos := c.utf8Size_pos
  have last : (∃ d ∈ s.contents.getLast?, 0x80 ≤ d.toNat) ↔ 0x80 ≤ c.toNat := by simp [whole]
  have ascii : c.utf8Size = 1 ↔ ¬ 0x80 ≤ c.toNat := by rw [Text.utf8Size_eq_one_iff, Nat.not_le]
  rw [last, text, and_iff_right filled, ← ascii]
  constructor
  · intro boundary
    by_contra several
    have inside : s.lastByte = byteLength (before ++ own) + (c.utf8Size - 1) := by omega
    rw [inside] at boundary
    have := Text.utf8Size_le_of_boundary boundary (by omega)
    omega
  · intro one
    exact ⟨before ++ own, List.prefix_append .., by omega⟩

end Span

namespace Excerpt

/-- The excerpt shows the lines that a span touches and where in them its text stands. -/
structure Shows (e : Excerpt) (s : Span) : Prop where
  first : s.Touches e.start
  touched : ∀ n, s.Touches n ↔ e.start ≤ n ∧ n < e.start + e.lines.length
  lines : e.lines = (s.source.lines.drop e.start).take e.lines.length
  contents : s.contents <+: (['\n'].intercalate e.lines ++ ['\n']).drop e.startColumn
  carets : e.lines.length = 1 → e.carets? = some (if s.contents = [] then 1 else s.contents.length)

variable {s : Span} {e : Excerpt}

theorem of_excerpt (found : s.excerpt? = some e) : Text.Boundary s.lastByte s.source.text ∧
    e.start = s.source.line s.start ∧ e.startColumn = s.source.column s.start ∧
    e.lines = (s.source.lines.drop e.start).take (s.source.line s.lastByte - e.start + 1) ∧
    (e.lines.length = 1 → e.endColumn = e.startColumn + s.contents.length) := by
  unfold Span.excerpt? at found
  split at found
  · rename_i checked
    simp only [List.all_cons, List.all_nil, Bool.and_eq_true, Text.isBoundary_iff] at checked
    cases found
    exact ⟨checked.2.1, rfl, rfl, rfl, fun one => if_pos one⟩
  · cases found

theorem excerpt?_eq_none_iff (valid : s.Valid) :
    s.excerpt? = none ↔ s.isEmpty = false ∧ ∃ c ∈ s.contents.getLast?, 0x80 ≤ c.toNat := by
  rw [← not_iff_not, ← Span.boundary_lastByte_iff valid]
  constructor
  · intro some
    obtain ⟨e, found⟩ := Option.ne_none_iff_exists'.mp some
    exact (of_excerpt found).1
  · intro boundary
    unfold Span.excerpt?
    rw [if_pos (by simp [Text.isBoundary_iff, valid.1, valid.2, boundary])]
    exact Option.some_ne_none _

theorem length_lines (valid : s.Valid) (found : s.excerpt? = some e) :
    e.start + e.lines.length = s.source.line s.lastByte + 1 := by
  obtain ⟨_, start, _, lines, _⟩ := of_excerpt found
  have order := valid.onLine_start.le valid.onLine_lastByte valid.lastByte_between.1
  obtain ⟨_, here, _⟩ := valid.onLine_lastByte
  obtain ⟨known, _⟩ := List.getElem?_eq_some_iff.mp here
  rw [lines, List.length_take, List.length_drop]
  omega

theorem prefix_contents (valid : s.Valid) (found : s.excerpt? = some e) :
    s.contents <+: (['\n'].intercalate e.lines ++ ['\n']).drop e.startColumn := by
  obtain ⟨boundary, start, column, lines, _⟩ := of_excerpt found
  have length := length_lines valid found
  have order := valid.onLine_start.le valid.onLine_lastByte valid.lastByte_between.1
  rcases s.lastByte_cases with ⟨empty, _⟩ | ⟨filled, _, _⟩
  · obtain ⟨_, _, _, _, bytes⟩ := valid.parts
    have none : s.contents = [] := Text.eq_nil_of_byteLength (bytes.trans (beq_iff_eq.mp empty))
    rw [none]
    exact List.nil_prefix
  obtain ⟨before, own, c, after, whole, text, place, last⟩ := valid.last filled
  obtain ⟨begun, single, width, goes⟩ := Source.exists_broken_line before
  have one : c.utf8Size = 1 := by
    have ascii := (Span.boundary_lastByte_iff valid).mp boundary
    rw [Text.utf8Size_eq_one_iff]
    by_contra several
    exact ascii ⟨filled, c, by simp [whole], by omega⟩
  have ahead : takeBytes s.start s.source.text = before := by
    rw [text, ← place, List.append_assoc, Text.takeBytes_byteLength_append]
  have first : e.start = before.count '\n' := by rw [start, Source.line, ahead]
  have final : s.source.line s.lastByte = before.count '\n' + (begun ++ own).count '\n' := by
    have reached : s.lastByte = byteLength (before ++ own) := by omega
    rw [Source.line, reached, text, Text.takeBytes_byteLength_append, List.count_append,
      List.count_append, single, Nat.zero_add]
  have shown : e.lines =
      (Source.splitLines (begun ++ own ++ c :: after)).take ((begun ++ own).count '\n' + 1) := by
    rw [lines, first, final, Nat.add_sub_cancel_left, Source.lines, text, List.append_assoc before,
      goes, List.append_assoc]
  -- The first line stands there from its beginning, the span only from its first column on.
  obtain ⟨more, same⟩ := Source.prefix_of_lines (begun ++ own) c after
  have begins : e.startColumn = begun.length := by rw [column, Source.column, ahead, width]
  rw [Source.joined_lines (List.ne_nil_of_length_pos (by omega)), shown, ← same, begins, whole]
  exact ⟨more, by simp⟩

/-- A span that is cut between characters has no excerpt if and only if it is not empty and its
last character is not ASCII. Any other excerpt shows the lines that the span touches, its text
from the first column on, and under a single line a caret for each character of it. -/
theorem excerpt_exact {s : Span} (valid : s.Valid) :
    (s.excerpt? = none ↔ s.isEmpty = false ∧ ∃ c ∈ s.contents.getLast?, 0x80 ≤ c.toNat) ∧
    ∀ e, s.excerpt? = some e → e.Shows s := by
  refine ⟨excerpt?_eq_none_iff valid, fun e found => ?_⟩
  obtain ⟨_, start, _, lines, ending⟩ := of_excerpt found
  have length := length_lines valid found
  have order := valid.onLine_start.le valid.onLine_lastByte valid.lastByte_between.1
  refine ⟨?_, fun n => ?_, ?_, prefix_contents valid found, fun single => ?_⟩
  · rw [Span.touches_iff valid]
    omega
  · rw [Span.touches_iff valid]
    omega
  · have count : s.source.line s.lastByte - e.start + 1 = e.lines.length := by omega
    rw [← count]
    exact lines
  · rw [carets?, isMultiline, single, ending single, Nat.add_sub_cancel_left]
    by_cases none : s.contents = []
    · simp [none]
    · have any := List.length_pos_iff.mpr none
      simp [none, Nat.max_eq_left any]

/-- A section that begins after a letter of two bytes and ends with the line feed of the next
line, the place between that line feed and the one behind it, and a section that ends with such a
letter. -/
theorem excerpt_exact_two_bytes :
    let source : Source := ⟨"Né [go\non](É)\n\n".toList, "./source"⟩
    let sound : Span := ⟨source, 4, 12⟩
    let empty : Span := .point source 16
    let broken : Span := ⟨source, 4, 10⟩
    sound.Valid ∧ empty.Valid ∧ broken.Valid ∧ broken.excerpt? = none ∧
      (∃ e, sound.excerpt? = some e ∧ e.start = 0 ∧ e.startColumn = 3 ∧
        e.lines = ["Né [go".toList, "on](É)".toList] ∧ e.Shows sound) ∧
      ∃ e, empty.excerpt? = some e ∧ e.start = 2 ∧ e.lines = [[]] ∧ e.carets? = some 1 := by
  intro source sound empty broken
  have first : sound.Valid :=
    ⟨Text.isBoundary_iff.mp (by decide), Text.isBoundary_iff.mp (by decide)⟩
  have second : empty.Valid :=
    ⟨Text.isBoundary_iff.mp (by decide), Text.isBoundary_iff.mp (by decide)⟩
  have third : broken.Valid :=
    ⟨Text.isBoundary_iff.mp (by decide), Text.isBoundary_iff.mp (by decide)⟩
  refine ⟨first, second, third,
    (excerpt_exact third).1.mpr ⟨rfl, 'É', by decide +kernel, by decide⟩, ?_, ?_⟩
  · have found : sound.excerpt? =
      some ⟨"./source", 0, ["Né [go".toList, "on](É)".toList], 3, 0⟩ := by
      decide +kernel
    exact ⟨_, found, rfl, rfl, rfl, (excerpt_exact first).2 _ found⟩
  · have found : empty.excerpt? = some ⟨"./source", 2, [[]], 0, 0⟩ := by decide +kernel
    exact ⟨_, found, rfl, rfl, ((excerpt_exact second).2 _ found).carets rfl⟩

end Excerpt
end Dialogue
