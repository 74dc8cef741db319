import Dialogue.Proofs.Decimal.Printing
import Dialogue.Proofs.Term.Tokens

/-!
The texts of symbols and literals as tokens. A symbol, a truth value or a finite number is read as
itself, and so is a string, unless some character of it is written by its number, which is no
escape that a string literal may hold. The text of an infinite number is read as a symbol.
-/
namespace Dialogue

namespace Text

def ByNumber (c : Char) : Prop :=
  escape c = escapeByNumber c

instance : DecidablePred ByNumber := fun c =>
  inferInstanceAs (Decidable (escape c = escapeByNumber c))

end Text

namespace Lexer
open Decimal (magnitude infinityBits)

variable {source : Source} {stop : Nat} {c : Char} {cs rest rest' text value : List Char}
  {token token' : Token} {ls : List Lexeme} {x : Float}

def Regular : Token → Prop
  | .symbol name => ∃ c more, name.toList = c :: more ∧ (∀ x ∈ c :: more, isSymbolChar x = true) ∧
      runToken? c more = some (.symbol name)
  | .literal (.number x) => magnitude x ≤ infinityBits
  | .literal (.symbol _) => False
  | _ => True

theorem magnitude_of_readFloat {more : List Char} (starts : startsNumber c more = true)
    (read : Decimal.readFloat (c :: more) = some x) : magnitude x ≤ infinityBits := by
  have decimal : ∀ {sign d body}, Decimal.takeSign (c :: more) = (sign, d :: body) →
      d.isDigit = true → magnitude x ≤ infinityBits := by
    intro sign d body signs digit
    rw [Decimal.readFloat_of_digit signs digit] at read
    obtain ⟨value, _, rfl⟩ := Option.map_eq_some_iff.mp read
    rw [Decimal.toFloat, Decimal.magnitude_floatOfBits sign (Decimal.bits_le value)]
    exact Decimal.bits_le value
  simp only [startsNumber, Bool.or_eq_true, Bool.and_eq_true, beq_iff_eq, Option.any_eq_true]
    at starts
  rcases starts with digit | ⟨sign, d, head, digit⟩
  · exact decimal (Decimal.takeSign_of_digit digit) digit
  · obtain ⟨body, rfl⟩ := List.head?_eq_some_iff.mp head
    rcases sign with rfl | rfl
    · exact decimal rfl digit
    · exact decimal rfl digit

theorem regular_word (chars : ∀ x ∈ c :: cs, isSymbolChar x = true)
    (run : startsNumber c cs = false) :
    Regular (word (c :: cs)) := by
  unfold word
  dsimp only
  split
  · trivial
  split
  · trivial
  split
  · trivial
  rename_i yes no none
  refine ⟨c, cs, String.toList_ofList, chars, ?_⟩
  simp only [runToken?, run, word, if_neg yes, if_neg no, if_neg none]
  rfl

theorem regular_of_scans (scans : Scans text token rest) : Regular token := by
  cases scans with
  | opening | closing | string => trivial
  | @run c more _ _ chars ends reads =>
    unfold runToken? at reads
    split at reads
    · rename_i starts
      obtain ⟨x, read, rfl⟩ := Option.map_eq_some_iff.mp reads
      exact magnitude_of_readFloat starts read
    · rename_i starts
      cases reads
      exact regular_word chars (Bool.of_not_eq_true starts)

theorem Lexes.regular (lexes : Lexes source stop cs ls) : ∀ l ∈ ls, Regular l.token := by
  induction lexes with
  | nil => simp
  | cons _ scans _ ih =>
    intro l mem
    rcases List.mem_cons.mp mem with rfl | mem
    · exact regular_of_scans scans
    · exact ih l mem

/-! Strings. -/

theorem escape_cases (c : Char) : Text.ByNumber c ∨
    (∃ e, Text.escape c = ['\\', e] ∧ unescape? e = some c) ∨
    Text.escape c = [c] ∧ c ≠ '"' ∧ c ≠ '\\' := by
  by_cases quote : c = '"'
  · subst quote
    exact .inr (.inl ⟨'"', rfl, rfl⟩)
  by_cases backslash : c = '\\'
  · subst backslash
    exact .inr (.inl ⟨'\\', rfl, rfl⟩)
  by_cases feed : c = '\n'
  · subst feed
    exact .inr (.inl ⟨'n', rfl, rfl⟩)
  by_cases carriage : c = '\r'
  · subst carriage
    exact .inr (.inl ⟨'r', rfl, rfl⟩)
  by_cases tab : c = '\t'
  · subst tab
    exact .inr (.inl ⟨'t', rfl, rfl⟩)
  by_cases zero : c = '\x00'
  · subst zero
    exact .inr (.inl ⟨'0', rfl, rfl⟩)
  unfold Text.ByNumber Text.escape
  rw [if_neg quote, if_neg backslash, if_neg feed, if_neg carriage, if_neg tab, if_neg zero]
  by_cases hidden : Text.isHidden c = true
  · exact .inl (if_pos hidden)
  · exact .inr (.inr ⟨if_neg hidden, quote, backslash⟩)

theorem literal_of_quoted (plain : ∀ c ∈ value, ¬ Text.ByNumber c) (rest : List Char) :
    Literal (value.flatMap Text.escape ++ '"' :: rest) value rest := by
  induction value with
  | nil => exact .close rest
  | cons c value ih =>
    have later := ih fun d mem => plain d (List.mem_cons_of_mem c mem)
    rw [List.flatMap_cons, List.append_assoc]
    rcases escape_cases c with number | ⟨e, letter, known⟩ | ⟨same, quote, backslash⟩
    · exact absurd number (plain c List.mem_cons_self)
    · rw [letter]
      exact .escaped known later
    · rw [same]
      exact .plain quote backslash later

theorem not_literal_of_byNumber {read : List Char} (number : Text.ByNumber c) :
    ¬ Literal (Text.escape c ++ cs) read rest := by
  intro body
  rw [number, Text.escapeByNumber] at body
  simp only [List.append_assoc, List.cons_append, List.nil_append] at body
  cases body with
  | escaped known => cases known
  | plain _ backslash => exact absurd rfl backslash

theorem literal_behind {read : List Char} (body : Literal (Text.escape c ++ cs) read rest) :
    ∃ read', Literal cs read' rest := by
  rcases escape_cases c with number | ⟨e, letter, _⟩ | ⟨same, quote, backslash⟩
  · exact absurd body (not_literal_of_byNumber number)
  · rw [letter] at body
    cases body with
    | escaped _ later => exact ⟨_, later⟩
    | plain _ backslash => exact absurd rfl backslash
  · rw [same] at body
    cases body with
    | close => exact absurd rfl quote
    | escaped => exact absurd rfl backslash
    | plain _ _ later => exact ⟨_, later⟩

theorem plain_of_literal {read : List Char}
    (body : Literal (value.flatMap Text.escape ++ '"' :: rest) read rest') :
    ∀ c ∈ value, ¬ Text.ByNumber c := by
  induction value generalizing read with
  | nil => simp
  | cons d value ih =>
    rw [List.flatMap_cons, List.append_assoc] at body
    obtain ⟨read', later⟩ := literal_behind body
    intro c mem number
    rcases List.mem_cons.mp mem with rfl | mem
    · exact not_literal_of_byNumber number body
    · exact ih later c mem number

/-! Symbols and literals. -/

theorem isSymbolChar_of_numeral (numeral : Decimal.Numeral cs) :
    ∀ c ∈ cs, isSymbolChar c = true := by
  intro c mem
  rcases numeral.2 c mem with digit | rfl
  · exact isSymbolChar_of_isDigit digit
  · decide

theorem scans_text {name : String} (c : Char) (more : List Char) (text : name.toList = c :: more)
    (chars : ∀ x ∈ c :: more, isSymbolChar x = true) (reads : runToken? c more = some token)
    (ends : Ends rest) : Scans (name.toList ++ rest) token rest := by
  rw [text]
  exact .run chars ends reads

theorem scans_symbol {name : String} (regular : Regular (.symbol name)) (ends : Ends rest) :
    Scans (name.toList ++ rest) (.symbol name) rest := by
  obtain ⟨c, more, text, chars, reads⟩ := regular
  exact scans_text c more text chars reads ends

theorem scans_number (finite : magnitude x < infinityBits) (ends : Ends rest) :
    Scans ((Decimal.text .plain x).toList ++ rest) (.literal (.number x)) rest := by
  have back := Decimal.readFloat_textChars finite
  obtain ⟨numeral, _⟩ := Decimal.readDecimal_magnitudeText finite
  have chars := isSymbolChar_of_numeral numeral
  obtain ⟨⟨c, more, text, digit⟩, _⟩ := numeral
  have whole := Decimal.textChars_of_number .plain finite.le
  rw [text] at chars whole
  cases sign : Decimal.negative x with
  | false =>
    rw [sign] at whole
    rw [whole] at back
    apply scans_text c more (String.toList_ofList.trans whole) chars _ ends
    simpa [runToken?, startsNumber, digit] using back
  | true =>
    rw [sign] at whole
    rw [whole] at back
    apply scans_text '-' (c :: more) (String.toList_ofList.trans whole) _ _ ends
    · intro y mem
      rcases List.mem_cons.mp mem with rfl | mem
      · decide
      · exact chars y mem
    · simpa [runToken?, startsNumber, digit] using back

/-- The text of an infinity is read as a symbol. -/
theorem scans_infinity (infinite : magnitude x = infinityBits) (ends : Ends rest) :
    ∃ name, Scans ((Decimal.text .plain x).toList ++ rest) (.symbol name) rest := by
  have whole := Decimal.textChars_of_number .plain infinite.le
  rw [infinite] at whole
  cases sign : Decimal.negative x with
  | false =>
    rw [sign] at whole
    have spelled := String.toList_ofList.trans whole
    exact ⟨_, scans_text 'i' ['n', 'f'] spelled (by simp; decide) rfl ends⟩
  | true =>
    rw [sign] at whole
    have spelled := String.toList_ofList.trans whole
    exact ⟨_, scans_text '-' ['i', 'n', 'f'] spelled (by simp; decide) rfl ends⟩

def Faithful : Value → Prop
  | .number x => x.isInf = false
  | .string s => ∀ c ∈ s.toList, ¬ Text.ByNumber c
  | _ => True

instance : DecidablePred Faithful
  | .number x => inferInstanceAs (Decidable (x.isInf = false))
  -- The characters of the string are gone through, not all that there are.
  | .string s => List.decidableBAll (fun c => ¬ Text.ByNumber c) s.toList
  | .boolean _ | .nil | .symbol _ => .isTrue trivial

theorem scans_string {s : String} (plain : ∀ c ∈ s.toList, ¬ Text.ByNumber c) (rest : List Char) :
    Scans ((Text.quote s).toList ++ rest) (.literal (.string s)) rest := by
  have body := Scans.string (literal_of_quoted plain rest)
  rw [String.ofList_toList] at body
  simpa [Text.quote, Text.quoteChars] using body

theorem scans_literal {v : Value} (regular : Regular (.literal v)) (faithful : Faithful v)
    (ends : Ends rest) :
    Scans (v.literalText.toList ++ rest) (.literal v) rest := by
  cases v with
  | boolean b =>
    cases b with
    | false => exact scans_text 'f' ['a', 'l', 's', 'e'] rfl (by simp; decide) rfl ends
    | true => exact scans_text 't' ['r', 'u', 'e'] rfl (by simp; decide) rfl ends
  | nil => exact scans_text 'n' ['i', 'l'] rfl (by simp; decide) rfl ends
  | symbol name => exact regular.elim
  | string s => exact scans_string faithful rest
  | number x =>
    have finite : magnitude x ≠ infinityBits := by
      intro infinite
      have := (Decimal.isInf_iff x).mpr infinite
      rw [faithful] at this
      cases this
    exact scans_number (Nat.lt_of_le_of_ne regular finite) ends

theorem literal_of_scans (scans : Scans ('"' :: cs) token rest) : ∃ read, Literal cs read rest := by
  generalize same : '"' :: cs = text at scans
  cases scans with
  | opening d => cases d <;> simp [Delimiter.opener] at same
  | closing d => cases d <;> simp [Delimiter.closer] at same
  | string body =>
    cases same
    exact ⟨_, body⟩
  | run chars =>
    obtain ⟨rfl, _⟩ := List.cons.inj same
    exact absurd (chars _ List.mem_cons_self) (by decide)

theorem literal_cases {v : Value} (regular : Regular (.literal v)) (ends : Ends rest) :
    (Faithful v ∧ Scans (v.literalText.toList ++ rest) (.literal v) rest) ∨
    (¬ Faithful v ∧ ∃ name, Scans (v.literalText.toList ++ rest) (.symbol name) rest) ∨
    ¬ ∃ ls, Lexes source stop (v.literalText.toList ++ rest) ls := by
  by_cases faithful : Faithful v
  · exact .inl ⟨faithful, scans_literal regular faithful ends⟩
  cases v with
  | boolean | nil | symbol => exact absurd trivial faithful
  | number x =>
    have infinite : x.isInf = true := Bool.of_not_eq_false faithful
    exact .inr (.inl ⟨faithful, scans_infinity ((Decimal.isInf_iff x).mp infinite) ends⟩)
  | string s =>
    right
    right
    rintro ⟨ls, lexes⟩
    have text : (Text.quote s).toList ++ rest =
        '"' :: (s.toList.flatMap Text.escape ++ '"' :: rest) := by
      simp [Text.quote, Text.quoteChars]
    change Lexes source stop ((Text.quote s).toList ++ rest) ls at lexes
    rw [text] at lexes
    have front : skip false ('"' :: (s.toList.flatMap Text.escape ++ '"' :: rest)) = _ :=
      skip_of_start (by decide)
    cases lexes with
    | nil blank => cases front.symm.trans blank
    | cons found scans =>
      cases front.symm.trans found
      obtain ⟨read, body⟩ := literal_of_scans scans
      exact faithful (plain_of_literal body)

end Lexer
end Dialogue
