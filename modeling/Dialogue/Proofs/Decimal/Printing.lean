import Dialogue.Decimal.Reading
import Dialogue.Proofs.Decimal.Nearest
import Dialogue.Proofs.Decimal.Pattern

/-!
Numbers printed in the plain layout. A finite number is printed as an optional minus sign and a
numeral, a digit followed by more digits and at most one point, and that text reads back to the
same number: moving the point and dropping zeros at the end change how a decimal is written and
not its value.
-/
namespace Dialogue.Decimal

/-- A text that begins with a digit and has only digits and points. -/
def Numeral (cs : List Char) : Prop :=
  (∃ c more, cs = c :: more ∧ c.isDigit = true) ∧ ∀ c ∈ cs, c.isDigit = true ∨ c = '.'

variable {cs ds : List Char} {c : Char}

/-! Digits. -/

theorem digitsValue_append_zeros (ds : List Char) (k : Nat) :
    digitsValue (ds ++ List.replicate k '0') = digitsValue ds * 10 ^ k := by
  change Nat.ofDigitChars 10 _ 0 = Nat.ofDigitChars 10 ds 0 * 10 ^ k
  rw [Nat.ofDigitChars_append, Nat.ofDigitChars_replicate_zero, Nat.mul_comm]

theorem digitsValue_zeros_append (k : Nat) (ds : List Char) :
    digitsValue (List.replicate k '0' ++ ds) = digitsValue ds := by
  change Nat.ofDigitChars 10 _ 0 = Nat.ofDigitChars 10 ds 0
  rw [Nat.ofDigitChars_append, Nat.ofDigitChars_replicate_zero, Nat.mul_zero]

theorem exists_zeros (cs : List Char) :
    ∃ k, cs = (cs.reverse.dropWhile (· == '0')).reverse ++ List.replicate k '0' := by
  have zeros : cs.reverse.takeWhile (· == '0') =
      List.replicate (cs.reverse.takeWhile (· == '0')).length '0' := by
    apply List.eq_replicate_of_mem
    intro c mem
    simpa using List.all_eq_true.mp List.all_takeWhile c mem
  have split :=
    congrArg List.reverse (List.takeWhile_append_dropWhile (p := (· == '0')) (l := cs.reverse))
  rw [List.reverse_append, zeros, List.reverse_replicate, List.reverse_reverse] at split
  exact ⟨_, split.symm⟩

theorem mem_zeros {k : Nat} (mem : c ∈ List.replicate k '0') : c.isDigit = true := by
  rw [List.eq_of_mem_replicate mem]
  decide

/-- The point stands behind all digits and further zeros, or somewhere among the digits or zeros
put before them. -/
theorem positional_cases (pointZero : Bool) (digits : ∀ c ∈ ds, c.isDigit = true) (point : Int) :
    (∃ k : Nat, positional pointZero ds point =
        ds ++ List.replicate k '0' ++ (if pointZero then ['.', '0'] else []) ∧
      point - ds.length = k) ∨
    ∃ whole fraction, positional pointZero ds point = whole ++ '.' :: fraction ∧ whole ≠ [] ∧
      (∀ c ∈ whole ++ fraction, c.isDigit = true) ∧
      digitsValue (whole ++ fraction) = digitsValue ds ∧
      point - ds.length = -fraction.length := by
  unfold positional
  by_cases low : point ≤ 0
  · right
    rw [if_pos low]
    refine ⟨['0'], List.replicate (-point).toNat '0' ++ ds, by simp, by simp, ?_, ?_, ?_⟩
    · intro c mem
      rw [← List.append_assoc] at mem
      rcases List.mem_append.mp mem with zero | digit
      · exact mem_zeros (k := (-point).toNat + 1) zero
      · exact digits c digit
    · exact digitsValue_zeros_append ((-point).toNat + 1) ds
    · simp
      omega
  · rw [if_neg low]
    by_cases high : (ds.length : Int) ≤ point
    · left
      rw [if_pos high]
      refine ⟨(point - ds.length).toNat, by rw [List.append_assoc], ?_⟩
      omega
    · right
      rw [if_neg high]
      have before : point.toNat < ds.length := by omega
      refine ⟨ds.take point.toNat, ds.drop point.toNat, rfl, ?_, ?_, ?_, ?_⟩
      · intro none
        have := congrArg List.length none
        simp only [List.length_take, List.length_nil] at this
        omega
      · rwa [List.take_append_drop]
      · rw [List.take_append_drop]
      · simp only [List.length_drop]
        omega

/-! Reading a numeral. -/

theorem span_digits {rest : List Char} (digits : ∀ c ∈ ds, c.isDigit = true)
    (ends : rest.takeWhile Char.isDigit = []) : (ds ++ rest).span Char.isDigit = (ds, rest) := by
  have parts := List.takeWhile_append_dropWhile (p := Char.isDigit) (l := rest)
  rw [ends, List.nil_append] at parts
  rw [List.span_eq_takeWhile_dropWhile, List.takeWhile_append_of_pos digits,
    List.dropWhile_append_of_pos digits, ends, List.append_nil, parts]

theorem readDecimal_number {rest : List Char} {e : Int} (any : ds ≠ [])
    (digits : ∀ c ∈ ds, c.isDigit = true) (ends : rest.takeWhile Char.isDigit = [])
    (pointless : takeFraction rest = ([], rest)) (read : readExponent rest = some e) :
    readDecimal (ds ++ rest) = some ⟨digitsValue ds, e⟩ := by
  unfold readDecimal
  rw [span_digits digits ends]
  simp [pointless, any, read]

theorem readDecimal_fraction {whole fraction rest : List Char} {e : Int} (any : whole ≠ [])
    (digits : ∀ c ∈ whole ++ fraction, c.isDigit = true) (ends : rest.takeWhile Char.isDigit = [])
    (read : readExponent rest = some e) : readDecimal (whole ++ '.' :: (fraction ++ rest)) =
      some ⟨digitsValue (whole ++ fraction), e - fraction.length⟩ := by
  have left : ∀ c ∈ whole, c.isDigit = true := fun c mem => digits c (List.mem_append_left _ mem)
  have right : ∀ c ∈ fraction, c.isDigit = true := fun c mem =>
    digits c (List.mem_append_right _ mem)
  have front : (whole ++ '.' :: (fraction ++ rest)).span Char.isDigit =
      (whole, '.' :: (fraction ++ rest)) :=
    span_digits left rfl
  have back : takeFraction ('.' :: (fraction ++ rest)) = (fraction, rest) := span_digits right ends
  unfold readDecimal
  rw [front]
  simp [back, any, read]

theorem readDecimal_whole (any : ds ≠ []) (digits : ∀ c ∈ ds, c.isDigit = true) :
    readDecimal ds = some ⟨digitsValue ds, 0⟩ := by
  rw [← List.append_nil ds, readDecimal_number any digits rfl rfl rfl, List.append_nil]

theorem readDecimal_point {whole fraction : List Char} (any : whole ≠ [])
    (digits : ∀ c ∈ whole ++ fraction, c.isDigit = true) :
    readDecimal (whole ++ '.' :: fraction) =
      some ⟨digitsValue (whole ++ fraction), -fraction.length⟩ := by
  have read := @readDecimal_fraction whole fraction [] 0 any digits rfl rfl
  rwa [List.append_nil, Int.zero_sub] at read

theorem readDecimal_positional (any : ds ≠ []) (digits : ∀ c ∈ ds, c.isDigit = true) (point : Int) :
    ∃ d, readDecimal (positional false ds point) = some d ∧
      d.bits = bits ⟨digitsValue ds, point - ds.length⟩ := by
  rcases positional_cases false digits point with
    ⟨k, text, exponent⟩ | ⟨whole, fraction, text, front, digits', value, exponent⟩
  · rw [text, if_neg Bool.false_ne_true, List.append_nil]
    refine ⟨_, readDecimal_whole (by simp [any]) ?_, ?_⟩
    · intro c mem
      rcases List.mem_append.mp mem with digit | zero
      · exact digits c digit
      · exact mem_zeros zero
    · rw [digitsValue_append_zeros, bits_shift, exponent, Int.zero_add]
  · rw [text]
    refine ⟨_, readDecimal_point front digits', ?_⟩
    rw [value, exponent]

theorem numeral_positional (any : ds ≠ []) (digits : ∀ c ∈ ds, c.isDigit = true) (point : Int) :
    Numeral (positional false ds point) := by
  rcases positional_cases false digits point
    with ⟨k, text, _⟩ | ⟨whole, fraction, text, front, digits', _, _⟩
  · rw [text, if_neg Bool.false_ne_true, List.append_nil]
    constructor
    · obtain ⟨c, more, rfl⟩ := List.exists_cons_of_ne_nil any
      exact ⟨c, more ++ List.replicate k '0', rfl, digits c List.mem_cons_self⟩
    · intro c mem
      rcases List.mem_append.mp mem with digit | zero
      · exact .inl (digits c digit)
      · exact .inl (mem_zeros zero)
  · rw [text]
    constructor
    · obtain ⟨c, more, rfl⟩ := List.exists_cons_of_ne_nil front
      exact ⟨c, more ++ '.' :: fraction, rfl, digits' c List.mem_cons_self⟩
    · intro c mem
      rcases List.mem_append.mp mem with left | right
      · exact .inl (digits' c (List.mem_append_left _ left))
      · rcases List.mem_cons.mp right with rfl | right
        · exact .inr rfl
        · exact .inl (digits' c (List.mem_append_right _ right))

/-! Printing a number. -/

theorem layOut_digits (layout : Layout) {d : Decimal} (pos : 0 < d.digits) :
    ∃ ds point, layOut layout d =
      (if layout.inPlace (point - 1) then positional layout.pointZero ds point
        else scientific layout.plusSign ds (point - 1)) ∧
      ds ≠ [] ∧ (∀ c ∈ ds, c.isDigit = true) ∧
      d.bits = bits ⟨digitsValue ds, point - ds.length⟩ := by
  obtain ⟨k, all⟩ := exists_zeros (Nat.toDigits 10 d.digits)
  have value : digitsValue (Nat.toDigits 10 d.digits) = d.digits := Nat.ofDigitChars_ten_toDigits
  refine ⟨_, (Nat.toDigits 10 d.digits).length + d.exponent, rfl, ?_, ?_, ?_⟩
  · intro none
    rw [none] at all
    rw [all, digitsValue_append_zeros] at value
    simp [digitsValue] at value
    omega
  · intro c mem
    have digit : c ∈ Nat.toDigits 10 d.digits := by
      rw [all]
      exact List.mem_append_left _ mem
    exact Nat.isDigit_of_mem_toDigits (by decide) (by decide) digit
  · generalize ((Nat.toDigits 10 d.digits).reverse.dropWhile (· == '0')).reverse = ds at *
    have length := congrArg List.length all
    rw [all, digitsValue_append_zeros] at value
    have exponent : ((Nat.toDigits 10 d.digits).length : Int) + d.exponent - ds.length =
        d.exponent + k := by
      rw [length, List.length_append, List.length_replicate]
      omega
    rw [exponent, ← bits_shift, value]

theorem digits_pos_of_bits {d : Decimal} (pos : 0 < d.bits) : 0 < d.digits := by
  rcases Nat.eq_zero_or_pos d.digits with none | pos'
  · simp [bits, none] at pos
  · exact pos'

theorem readDecimal_magnitudeText {b : Nat} (finite : b < infinityBits) :
    Numeral (magnitudeText .plain b) ∧
      ∃ d, readDecimal (magnitudeText .plain b) = some d ∧ d.bits = b := by
  rcases Nat.eq_zero_or_pos b with rfl | pos
  · have text : magnitudeText .plain 0 = ['0'] := rfl
    have read : readDecimal ['0'] = some ⟨digitsValue ['0'], 0⟩ :=
      readDecimal_whole (by simp) (by simp)
    rw [text]
    refine ⟨⟨⟨'0', [], rfl, by decide⟩, by simp⟩, _, read, ?_⟩
    simp [digitsValue, bits]
  · have back := shortest_bits Layout.plain.tie pos finite
    obtain ⟨ds, point, text, any, digits, same⟩ :=
      layOut_digits .plain (digits_pos_of_bits (back ▸ pos))
    obtain ⟨d, read, value⟩ := readDecimal_positional any digits point
    unfold magnitudeText
    rw [if_neg pos.ne', if_neg finite.ne, text]
    exact ⟨numeral_positional any digits point, d, read, by rw [value, ← same, back]⟩

/-! Reading a number. -/

theorem toLower_of_isDigit (digit : c.isDigit = true) : c.toLower = c := by
  simp only [Char.isDigit, Bool.and_eq_true, decide_eq_true_eq] at digit
  unfold Char.toLower
  rw [dif_neg]
  intro upper
  have low : 'A'.val ≤ c.val := upper.1
  have high := digit.2
  exact absurd (UInt32.le_trans low high) (by decide)

theorem takeSign_of_digit {more : List Char} (digit : c.isDigit = true) :
    takeSign (c :: more) = (false, c :: more) := by
  unfold takeSign
  split
  · rename_i same
    cases same
    cases digit
  · rename_i same
    cases same
    cases digit
  · rfl

theorem readFloat_of_digit {sign : Bool} {more : List Char} (body : takeSign cs = (sign, c :: more))
    (digit : c.isDigit = true) : readFloat cs = (readDecimal (c :: more)).map (toFloat sign) := by
  have word : ∀ w : String, w.toList.head?.any Char.isDigit = false →
      String.ofList ((c :: more).map Char.toLower) ≠ w := by
    intro w letter same
    rw [← same, String.toList_ofList, List.map_cons, toLower_of_isDigit digit] at letter
    simp [digit] at letter
  unfold readFloat
  rw [body]
  dsimp only
  rw [if_neg, if_neg]
  · exact word "nan" (by decide)
  · rintro (inf | infinity)
    · exact word "inf" (by decide) inf
    · exact word "infinity" (by decide) infinity

theorem textChars_of_number (layout : Layout) {x : Float} (number : magnitude x ≤ infinityBits) :
    textChars layout x =
      (if negative x then ['-'] else []) ++ magnitudeText layout (magnitude x) := by
  unfold textChars
  dsimp only
  rw [← magnitude, if_neg (Nat.not_lt.mpr number)]
  by_cases below : x.toBits.toNat < signBit
  · have sign : negative x = false := by simpa [negative] using below
    rw [if_pos below, sign]
    rfl
  · have sign : negative x = true := by simpa [negative] using below
    rw [if_neg below, sign]
    rfl

theorem readFloat_of_magnitudeText {layout : Layout} {x : Float} {more : List Char} {d : Decimal}
    (finite : magnitude x < infinityBits) (text : magnitudeText layout (magnitude x) = c :: more)
    (digit : c.isDigit = true) (read : readDecimal (c :: more) = some d)
    (same : d.bits = magnitude x) :
    readFloat (textChars layout x) = some x := by
  have signs : takeSign (textChars layout x) = (negative x, c :: more) := by
    rw [textChars_of_number layout finite.le, text]
    cases negative x with
    | true => rfl
    | false => exact takeSign_of_digit digit
  rw [readFloat_of_digit signs digit, read]
  simp [toFloat, same, floatOfBits_magnitude]

/-- A finite number is printed as a text that reads back to it. -/
theorem readFloat_textChars {x : Float} (finite : magnitude x < infinityBits) :
    readFloat (textChars .plain x) = some x := by
  obtain ⟨⟨⟨c, more, text, digit⟩, _⟩, d, read, same⟩ := readDecimal_magnitudeText finite
  rw [text] at read
  exact readFloat_of_magnitudeText finite text digit read same

end Dialogue.Decimal
