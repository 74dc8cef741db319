import Dialogue.Terminal.Session
import Mathlib.Data.List.TakeWhile

/-!
What answers a menu. A line names an option if it holds a number with nothing but blanks around
it, and there are as many options as that. Of all that is typed, the first such line is the
answer.
-/
namespace Dialogue

namespace Text
variable {before word after : List Char} {c : Char}

theorem dropWhile_word (blank : ∀ c ∈ before, isBlank c = true)
    (solid : ∀ c ∈ word, isBlank c = false) (any : word ≠ []) :
    (before ++ (word ++ after)).dropWhile isBlank = word ++ after := by
  rw [List.dropWhile_append_of_pos blank]
  cases word with
  | nil => exact absurd rfl any
  | cons c cs =>
    have first := solid c List.mem_cons_self
    exact List.dropWhile_cons_of_neg (by rw [first]; exact Bool.false_ne_true)

theorem trim_word (blank : ∀ c ∈ before, isBlank c = true) (blank' : ∀ c ∈ after, isBlank c = true)
    (solid : ∀ c ∈ word, isBlank c = false) (any : word ≠ []) :
    trim (before ++ (word ++ after)) = word := by
  have back : (after.reverse ++ (word.reverse ++ [])).dropWhile isBlank = word.reverse ++ [] :=
    dropWhile_word (fun c mem => blank' c (List.mem_reverse.mp mem))
      (fun c mem => solid c (List.mem_reverse.mp mem)) (mt List.reverse_eq_nil_iff.mp any)
  rw [List.append_nil] at back
  rw [trim, trimStart, dropWhile_word blank solid any, trimEnd, List.reverse_append, back,
    List.reverse_reverse]

theorem exists_trim (cs : List Char) : ∃ before after, cs = before ++ (trim cs ++ after) ∧
    (∀ c ∈ before, isBlank c = true) ∧ ∀ c ∈ after, isBlank c = true := by
  refine ⟨cs.takeWhile isBlank, ((trimStart cs).reverse.takeWhile isBlank).reverse, ?_,
    fun c mem => List.mem_takeWhile_imp mem, fun c mem =>
      List.mem_takeWhile_imp (List.mem_reverse.mp mem)⟩
  rw [trim, trimEnd, ← List.reverse_append, List.takeWhile_append_dropWhile, List.reverse_reverse,
    trimStart, List.takeWhile_append_dropWhile]

theorem isBlank_of_isDigit (digit : c.isDigit = true) : isBlank c = false := by
  simp only [Char.isDigit, Bool.and_eq_true, decide_eq_true_eq, ge_iff_le, UInt32.le_iff_toNat_le]
    at digit
  have low : 48 ≤ c.toNat := digit.1
  have high : c.toNat ≤ 57 := digit.2
  simp only [isBlank, Bool.or_eq_false_iff, Bool.and_eq_false_iff, decide_eq_false_iff_not,
    beq_eq_false_iff_ne]
  omega

end Text

namespace Terminal
variable {count n index : Nat} {line sign digits : List Char}

/-- Without the blanks at its ends the line is the number `n` in digits, which may have a plus
sign. -/
def Writes (line : List Char) (n : Nat) : Prop :=
  ∃ before sign digits after, line = before ++ (sign ++ digits ++ after) ∧
    (∀ c ∈ before, Text.isBlank c = true) ∧ (∀ c ∈ after, Text.isBlank c = true) ∧
    (sign = [] ∨ sign = ['+']) ∧
    digits ≠ [] ∧ (∀ c ∈ digits, c.isDigit = true) ∧ Nat.ofDigitChars 10 digits 0 = n

theorem dropPlus_signed (signed : sign = [] ∨ sign = ['+'])
    (number : ∀ c ∈ digits, c.isDigit = true) :
    dropPlus (sign ++ digits) = digits := by
  rcases signed with rfl | rfl
  · cases digits with
    | nil => rfl
    | cons c cs =>
      have other : c ≠ '+' := by
        rintro rfl
        exact absurd (number '+' List.mem_cons_self) (by decide)
      unfold dropPlus
      split
      · rename_i same
        cases same
        exact absurd rfl other
      · rfl
  · rfl

theorem exists_sign (cs : List Char) :
    ∃ sign, cs = sign ++ dropPlus cs ∧ (sign = [] ∨ sign = ['+']) := by
  unfold dropPlus
  split
  · exact ⟨['+'], rfl, .inr rfl⟩
  · exact ⟨[], rfl, .inl rfl⟩

theorem readNumber?_eq (behind : dropPlus (Text.trim line) = digits) : readNumber? line =
    if digits ≠ [] ∧ digits.all Char.isDigit then
      if Nat.ofDigitChars 10 digits 0 ≤ greatestNumber then some (Nat.ofDigitChars 10 digits 0)
      else none
    else none := by
  subst behind
  rfl

theorem readNumber?_eq_some_iff :
    readNumber? line = some n ↔ Writes line n ∧ n ≤ greatestNumber := by
  constructor
  · intro read
    obtain ⟨before, after, parts, blank, blank'⟩ := Text.exists_trim line
    obtain ⟨sign, behind, signed⟩ := exists_sign (Text.trim line)
    rw [readNumber?_eq rfl] at read
    split_ifs at read with number small
    have value := Option.some.inj read
    rw [behind] at parts
    exact ⟨⟨before, sign, _, after, parts, blank, blank', signed, number.1,
      List.all_eq_true.mp number.2, value⟩,
      value ▸ small⟩
  · rintro ⟨⟨before, sign, digits, after, rfl, blank, blank', signed, any, number, value⟩, small⟩
    have solid : ∀ c ∈ sign ++ digits, Text.isBlank c = false := by
      intro c mem
      rcases List.mem_append.mp mem with mem | mem
      · rcases signed with rfl | rfl
        · cases mem
        · cases List.mem_singleton.mp mem
          rfl
      · exact Text.isBlank_of_isDigit (number c mem)
    have trimmed := Text.trim_word blank blank' solid (by simp [any])
    rw [readNumber?_eq (trimmed ▸ dropPlus_signed signed number), value, if_pos small,
      if_pos ⟨any, List.all_eq_true.mpr number⟩]

/-- The line names one of `count` options by its number, counted from one. -/
structure Picks (count : Nat) (line : List Char) (n : Nat) : Prop where
  writes : Writes line n
  small : n ≤ greatestNumber
  first : 1 ≤ n
  last : n ≤ count

theorem option?_of_picks (picks : Picks count line n) : option? count line = some (n - 1) := by
  rw [option?, readNumber?_eq_some_iff.mpr ⟨picks.writes, picks.small⟩]
  exact if_pos (And.intro picks.first picks.last)

theorem picks_of_option? (found : option? count line = some index) :
    Picks count line (index + 1) := by
  unfold option? at found
  split at found
  · rename_i n read
    obtain ⟨writes, small⟩ := readNumber?_eq_some_iff.mp read
    split_ifs at found with inside
    have number : n = index + 1 := by
      have := Option.some.inj found
      omega
    subst number
    exact ⟨writes, small, inside.1, inside.2⟩
  · cases found

def Unchosen (count : Nat) (lines : List (List Char)) : Prop :=
  ∀ l ∈ lines, ∀ n, ¬ Picks count l n

/-- Of these lines the first that names an option names number `n`. Those `before` it name none,
and those `after` it are still to be read. -/
def Chosen (count : Nat) (lines before after : List (List Char)) (n : Nat) : Prop :=
  ∃ line, lines = before ++ line :: after ∧ Unchosen count before ∧ Picks count line n

theorem unchosen_nil (count : Nat) : Unchosen count [] :=
  nofun

theorem option?_of_unchosen {lines : List (List Char)} (unchosen : Unchosen count lines)
    (mem : line ∈ lines) :
    option? count line = none := by
  cases found : option? count line with
  | none => rfl
  | some index => exact absurd (picks_of_option? found) (unchosen line mem _)

theorem unchosen_append_singleton {lines : List (List Char)} (unchosen : Unchosen count lines)
    (missing : option? count line = none) : Unchosen count (lines ++ [line]) := by
  intro l mem n picks
  rcases List.mem_append.mp mem with mem | mem
  · exact unchosen l mem n picks
  · cases List.mem_singleton.mp mem
    cases missing.symm.trans (option?_of_picks picks)

theorem unchosen_or_chosen (count : Nat) (lines : List (List Char)) :
    Unchosen count lines ∨ ∃ before after n, Chosen count lines before after n := by
  induction lines with
  | nil => exact .inl (unchosen_nil count)
  | cons l ls ih =>
    cases found : option? count l with
    | some index =>
      exact .inr ⟨[], ls, index + 1, l, rfl, unchosen_nil count, picks_of_option? found⟩
    | none =>
      have first : Unchosen count [l] := unchosen_append_singleton (unchosen_nil count) found
      rcases ih with none' | ⟨before, after, n, line, rfl, earlier, picks⟩
      · exact .inl (List.forall_mem_cons.mpr ⟨first l List.mem_cons_self, none'⟩)
      · exact .inr ⟨l :: before, after, n, line, rfl,
          List.forall_mem_cons.mpr ⟨first l List.mem_cons_self, earlier⟩, picks⟩

end Terminal
end Dialogue
