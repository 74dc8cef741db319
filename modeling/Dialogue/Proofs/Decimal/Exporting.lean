import Dialogue.Proofs.Decimal.Printing
import Dialogue.Proofs.Program.Tokens

/-!
Numbers printed in the exported layout. A whole number keeps a point and a zero, and a very great
or very small one is written with an exponent. In every case the text has only characters of
numbers and reads back to the number, so that different finite numbers have different texts.
-/
namespace Dialogue.Decimal
open Export (isNumeric)

variable {cs ds : List Char} {c : Char} {b : Nat}

/-- A text of characters of numbers that begins with a digit and reads as a decimal of the pattern
`b`. -/
structure Reads (cs : List Char) (b : Nat) : Prop where
  begins : ∃ c more, cs = c :: more ∧ c.isDigit = true
  numeric : ∀ c ∈ cs, isNumeric c = true
  value : ∃ d, readDecimal cs = some d ∧ d.bits = b

theorem numeric_of_digits (digits : ∀ c ∈ ds, c.isDigit = true) : ∀ c ∈ ds, isNumeric c = true := by
  intro c mem
  simp [isNumeric, digits c mem]

theorem begins_with_digit (any : ds ≠ []) (digits : ∀ c ∈ ds, c.isDigit = true) (more : List Char) :
    ∃ c rest, ds ++ more = c :: rest ∧ c.isDigit = true := by
  obtain ⟨c, rest, rfl⟩ := List.exists_cons_of_ne_nil any
  exact ⟨c, rest ++ more, rfl, digits c List.mem_cons_self⟩

theorem toDigits_isDigit (n : Nat) : ∀ c ∈ Nat.toDigits 10 n, c.isDigit = true :=
  fun _ mem => Nat.isDigit_of_mem_toDigits (by decide) (by decide) mem

/-! Numbers written in place. -/

theorem reads_point {whole fraction : List Char} (any : whole ≠ [])
    (digits : ∀ c ∈ whole ++ fraction, c.isDigit = true) :
    Reads (whole ++ '.' :: fraction)
      (bits ⟨digitsValue (whole ++ fraction), -fraction.length⟩) := by
  have left : ∀ c ∈ whole, c.isDigit = true := fun c mem => digits c (List.mem_append_left _ mem)
  have right : ∀ c ∈ fraction, c.isDigit = true := fun c mem =>
    digits c (List.mem_append_right _ mem)
  refine ⟨begins_with_digit any left _, ?_, _, readDecimal_point any digits, rfl⟩
  rw [List.forall_mem_append, List.forall_mem_cons]
  exact ⟨numeric_of_digits left, rfl, numeric_of_digits right⟩

theorem reads_positional (any : ds ≠ []) (digits : ∀ c ∈ ds, c.isDigit = true) (point : Int) :
    Reads (positional true ds point) (bits ⟨digitsValue ds, point - ds.length⟩) := by
  rcases positional_cases true digits point with
    ⟨k, text, exponent⟩ | ⟨whole, fraction, text, front, digits', value, exponent⟩
  · have all : ds ++ List.replicate k '0' ++ ['0'] = ds ++ List.replicate (k + 1) '0' := by
      rw [List.append_assoc, ← List.replicate_succ']
    have value : bits ⟨digitsValue (ds ++ List.replicate k '0' ++ ['0']), -1⟩ =
        bits ⟨digitsValue ds, k⟩ := by
      rw [all, digitsValue_append_zeros, bits_shift]
      congr 2
      omega
    rw [text, if_pos rfl, exponent, ← value]
    refine @reads_point (ds ++ List.replicate k '0') ['0'] ?_ ?_
    · simp [any]
    · intro c mem
      rw [all] at mem
      rcases List.mem_append.mp mem with digit | zero
      · exact digits c digit
      · exact mem_zeros zero
  · rw [text, exponent, ← value]
    exact reads_point front digits'

/-! Numbers written with an exponent. -/

theorem readExponent_minus (n : Nat) :
    readExponent ('e' :: '-' :: Nat.toDigits 10 n) = some (-(n : Int)) := by
  have value : digitsValue (Nat.toDigits 10 n) = n := Nat.ofDigitChars_ten_toDigits
  simpa [readExponent, takeSign, value] using toDigits_isDigit n

theorem readExponent_plus (n : Nat) :
    readExponent ('e' :: '+' :: Nat.toDigits 10 n) = some (n : Int) := by
  have value : digitsValue (Nat.toDigits 10 n) = n := Nat.ofDigitChars_ten_toDigits
  simpa [readExponent, takeSign, value] using toDigits_isDigit n

/-- The exponent as it is written, always with a sign. -/
def exponentText (e : Int) : List Char :=
  'e' :: (if e < 0 then ['-'] else ['+']) ++ Nat.toDigits 10 e.natAbs

theorem readExponent_exponentText (e : Int) : readExponent (exponentText e) = some e := by
  by_cases below : e < 0
  · rw [exponentText, if_pos below]
    refine (readExponent_minus e.natAbs).trans (congrArg some ?_)
    omega
  · rw [exponentText, if_neg below]
    refine (readExponent_plus e.natAbs).trans (congrArg some ?_)
    omega

theorem numeric_exponentText (e : Int) : ∀ c ∈ exponentText e, isNumeric c = true := by
  have digits := numeric_of_digits (toDigits_isDigit e.natAbs)
  rw [exponentText, List.cons_append, List.forall_mem_cons, List.forall_mem_append]
  refine ⟨rfl, ?_, digits⟩
  split <;> simp [isNumeric]

theorem readDecimal_exponent {first : Char} (digit : first.isDigit = true) (e : Int) :
    readDecimal (first :: exponentText e) = some ⟨digitsValue [first], e⟩ := by
  have digits : ∀ c ∈ [first], c.isDigit = true := by simp [digit]
  exact readDecimal_number (List.cons_ne_nil _ _) digits rfl rfl (readExponent_exponentText e)

theorem readDecimal_point_exponent {first : Char} {more : List Char}
    (digits : ∀ c ∈ first :: more, c.isDigit = true) (e : Int) :
    readDecimal (first :: '.' :: (more ++ exponentText e)) =
      some ⟨digitsValue (first :: more), e - more.length⟩ :=
  @readDecimal_fraction [first] more _ e (List.cons_ne_nil _ _) digits rfl
    (readExponent_exponentText e)

theorem reads_scientific (any : ds ≠ []) (digits : ∀ c ∈ ds, c.isDigit = true) (e : Int) :
    Reads (scientific true ds e) (bits ⟨digitsValue ds, e + 1 - ds.length⟩) := by
  obtain ⟨first, more, rfl⟩ := List.exists_cons_of_ne_nil any
  have digit := digits first List.mem_cons_self
  have numeric := numeric_of_digits digits
  have exponent : e + 1 - ((first :: more).length : Nat) = e - more.length := by
    rw [List.length_cons]
    omega
  rw [exponent]
  cases more with
  | nil =>
    have laid : scientific true [first] e = first :: exponentText e := rfl
    rw [laid]
    refine ⟨⟨_, _, rfl, digit⟩, ?_, _, readDecimal_exponent digit e, by simp⟩
    exact List.forall_mem_append.mpr ⟨numeric, numeric_exponentText e⟩
  | cons second rest =>
    have laid : scientific true (first :: second :: rest) e =
        first :: '.' :: (second :: rest ++ exponentText e) := by
      simp [scientific, exponentText]
    rw [laid]
    refine ⟨⟨_, _, rfl, digit⟩, ?_, _, readDecimal_point_exponent digits e, rfl⟩
    rw [List.forall_mem_cons] at numeric ⊢
    rw [List.forall_mem_cons, List.forall_mem_append]
    exact ⟨numeric.1, rfl, numeric.2, numeric_exponentText e⟩

/-! Whole texts. -/

theorem reads_magnitudeText (finite : b < infinityBits) : Reads (magnitudeText .exported b) b := by
  rcases Nat.eq_zero_or_pos b with rfl | pos
  · exact @reads_point ['0'] ['0'] (by simp) (by simp)
  · have back := shortest_bits Layout.exported.tie pos finite
    obtain ⟨ds, point, text, any, digits, same⟩ :=
      layOut_digits .exported (digits_pos_of_bits (back ▸ pos))
    unfold magnitudeText
    rw [if_neg pos.ne', if_neg finite.ne, text]
    split
    · rw [← back, same]
      exact reads_positional any digits point
    · have reads := reads_scientific any digits (point - 1)
      rw [Int.sub_add_cancel, ← same, back] at reads
      exact reads

theorem readFloat_exported {x : Float} (finite : magnitude x < infinityBits) :
    readFloat (textChars .exported x) = some x := by
  obtain ⟨⟨c, more, text, digit⟩, _, d, read, same⟩ := reads_magnitudeText finite
  rw [text] at read
  exact readFloat_of_magnitudeText finite text digit read same

theorem numeric_exported {x : Float} (finite : magnitude x < infinityBits) :
    ∃ c cs, textChars .exported x = c :: cs ∧ (c = '-' ∨ c.isDigit = true) ∧
      ∀ d ∈ c :: cs, isNumeric d = true := by
  obtain ⟨⟨c, more, text, digit⟩, numeric, _⟩ := reads_magnitudeText finite
  rw [textChars_of_number .exported finite.le]
  cases negative x with
  | true =>
    refine ⟨'-', _, rfl, .inl rfl, ?_⟩
    exact List.forall_mem_cons.mpr ⟨rfl, numeric⟩
  | false =>
    rw [text] at numeric ⊢
    exact ⟨c, more, rfl, .inr digit, numeric⟩

end Dialogue.Decimal
