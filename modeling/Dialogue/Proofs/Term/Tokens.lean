import Dialogue.Term.Lexer

/-!
What makes up a token. A bracket stands for itself, a string literal goes to its closing quote,
and a run of symbol characters goes to the first character that is none. The tokens of a text are
those that stand between its blanks; cutting the text at the end of one of them changes nothing
before the cut.
-/
namespace Dialogue

def Delimiter.opener : Delimiter → Char
  | .round => '('
  | .square => '['

def Delimiter.closer : Delimiter → Char
  | .round => ')'
  | .square => ']'

namespace Lexer

def isSeparator (c : Char) : Bool :=
  Text.isBlank c || c == ',' || c == ';'

def Ends (rest : List Char) : Prop :=
  ∀ c, rest.head? = some c → isSymbolChar c = false

/-- The characters of a string literal after its opening quote, what they stand for, and the
rest. -/
inductive Literal : List Char → List Char → List Char → Prop where
  | close (rest : List Char) : Literal ('"' :: rest) [] rest
  | escaped {e c : Char} {cs value rest : List Char} (known : unescape? e = some c)
      (later : Literal cs value rest) : Literal ('\\' :: e :: cs) (c :: value) rest
  | plain {c : Char} {cs value rest : List Char} (quote : c ≠ '"') (backslash : c ≠ '\\')
      (later : Literal cs value rest) : Literal (c :: cs) (c :: value) rest

def runToken? (c : Char) (more : List Char) : Option Token :=
  if startsNumber c more then (Decimal.readFloat (c :: more)).map fun x => .literal (.number x)
  else some (word (c :: more))

/-- A text that begins with a token, the token, and the rest. -/
inductive Scans : List Char → Token → List Char → Prop where
  | opening (d : Delimiter) (rest : List Char) : Scans (d.opener :: rest) (.opening d) rest
  | closing (d : Delimiter) (rest : List Char) : Scans (d.closer :: rest) (.closing d) rest
  | string {cs value rest : List Char} (body : Literal cs value rest) :
      Scans ('"' :: cs) (.literal (.string (String.ofList value))) rest
  | run {c : Char} {more rest : List Char} {token : Token}
      (chars : ∀ x ∈ c :: more, isSymbolChar x = true) (ends : Ends rest)
      (reads : runToken? c more = some token) : Scans (c :: more ++ rest) token rest

/-- The tokens of the last characters of a snippet that ends at `stop`. -/
inductive Lexes (source : Source) (stop : Nat) : List Char → List Lexeme → Prop where
  | nil {cs : List Char} (blank : skip false cs = []) : Lexes source stop cs []
  | cons {cs here rest : List Char} {token : Token} {ls : List Lexeme}
      (front : skip false cs = here) (scans : Scans here token rest)
      (later : Lexes source stop rest ls) :
      Lexes source stop cs (⟨token, between source stop here rest⟩ :: ls)

section
variable {c : Char} {cs more rest value read opening : List Char} {s : String} {token : Token}

theorem ends_nil : Ends [] := by
  intro c head
  simp at head

theorem run_append (chars : ∀ x ∈ more, isSymbolChar x = true) (ends : Ends rest) :
    (more ++ rest).takeWhile isSymbolChar = more ∧
      (more ++ rest).dropWhile isSymbolChar = rest := by
  induction more with
  | nil =>
    cases rest with
    | nil => simp
    | cons c cs =>
      have last := ends c rfl
      simp [last]
  | cons c more ih =>
    have first := chars c List.mem_cons_self
    have later := ih fun x mem => chars x (List.mem_cons_of_mem c mem)
    simp [first, later]

theorem chars_of_run (cs : List Char) : ∀ x ∈ cs.takeWhile isSymbolChar, isSymbolChar x = true := by
  intro x mem
  exact List.all_eq_true.mp List.all_takeWhile x mem

theorem ends_of_run (cs : List Char) : Ends (cs.dropWhile isSymbolChar) := by
  intro c head
  have other := List.head?_dropWhile_not isSymbolChar cs
  rw [head] at other
  exact other

theorem isSymbolChar_of_isDigit (digit : c.isDigit = true) : isSymbolChar c = true := by
  simp only [Char.isDigit, Bool.and_eq_true, decide_eq_true_eq] at digit
  have low : 48 ≤ c.toNat := digit.1
  have high : c.toNat ≤ 57 := digit.2
  have unblank : Text.isBlank c = false := by
    simp only [Text.isBlank, Bool.or_eq_false_iff, Bool.and_eq_false_iff, decide_eq_false_iff_not,
      beq_eq_false_iff_ne]
    omega
  have unbroken : c ∉ breaks := by
    intro mem
    simp only [breaks, List.mem_cons, List.not_mem_nil, or_false] at mem
    rcases mem with rfl | rfl | rfl | rfl | rfl | rfl | rfl | rfl | rfl <;>
      revert low high <;> decide
  simp [isSymbolChar, unblank, unbroken]

/-- Whether a run is a number can be told from the run alone. -/
theorem startsNumber_append (ends : Ends rest) :
    startsNumber c (more ++ rest) = startsNumber c more := by
  cases more with
  | cons d more => rfl
  | nil =>
    cases rest with
    | nil => rfl
    | cons d rest =>
      have stops := ends d rfl
      have last : d.isDigit = false := by
        cases digit : d.isDigit with
        | false => rfl
        | true => exact absurd (isSymbolChar_of_isDigit digit) (by simp [stops])
      simp [startsNumber, last]

theorem ok_of_map {ε α β : Type} {x : Except ε α} {f : α → β} {b : β} (mapped : x.map f = .ok b) :
    ∃ a, x = .ok a ∧ f a = b := by
  cases x with
  | error => simp [Except.map] at mapped
  | ok a => exact ⟨a, rfl, by simpa [Except.map] using mapped⟩

/-- A backslash is the last character or escapes the next one; what does neither is none. -/
theorem ne_backslash (last : c = '\\' → cs = [] → False)
    (other : ∀ e tail, c = '\\' → cs = e :: tail → False) : c ≠ '\\' := by
  intro same
  cases cs with
  | nil => exact last same rfl
  | cons e cs => exact other e cs same rfl

theorem literal_of_scanString {r : { r : List Char // r.length ≤ cs.length }}
    (scanned : scanString opening read cs = .ok (s, r)) :
    ∃ value, s = String.ofList (read.reverse ++ value) ∧ Literal cs value r.1 := by
  induction read, cs using scanString.induct with
  | case1 | case3 => simp [scanString] at scanned
  | case2 read cs =>
    simp only [scanString, Except.ok.injEq, Prod.mk.injEq] at scanned
    obtain ⟨rfl, rfl⟩ := scanned
    exact ⟨[], by simp, .close cs⟩
  | case4 read e cs unknown => simp [scanString, unknown] at scanned
  | case5 read e cs c known ih =>
    simp only [scanString, known] at scanned
    obtain ⟨⟨s', r'⟩, later, same⟩ := ok_of_map scanned
    obtain ⟨rfl, rfl⟩ := Prod.mk.inj same
    obtain ⟨value, whole, body⟩ := ih later
    refine ⟨c :: value, ?_, .escaped known body⟩
    simpa only [List.reverse_cons, List.append_assoc, List.singleton_append] using whole
  | case6 read c cs quote last other ih =>
    have backslash := ne_backslash last other
    simp only [scanString] at scanned
    obtain ⟨⟨s', r'⟩, later, same⟩ := ok_of_map scanned
    obtain ⟨rfl, rfl⟩ := Prod.mk.inj same
    obtain ⟨value, whole, body⟩ := ih later
    refine ⟨c :: value, ?_, .plain quote backslash body⟩
    simpa only [List.reverse_cons, List.append_assoc, List.singleton_append] using whole

theorem scanString_of_literal (body : Literal cs value rest) (opening read : List Char) :
    ∃ r, scanString opening read cs = .ok (String.ofList (read.reverse ++ value), r) ∧
      r.1 = rest := by
  induction body generalizing read with
  | close rest => exact ⟨⟨rest, by simp⟩, by simp [scanString], rfl⟩
  | @escaped e c cs value rest known later ih =>
    obtain ⟨r, scanned, same⟩ := ih (c :: read)
    refine ⟨⟨r.1, by have := r.2; simp only [List.length_cons]; omega⟩, ?_, same⟩
    rw [List.reverse_cons, List.append_assoc, List.singleton_append] at scanned
    simp only [scanString, known, scanned, Except.map]
  | @plain c cs value rest quote backslash later ih =>
    obtain ⟨r, scanned, same⟩ := ih (c :: read)
    refine ⟨⟨r.1, by have := r.2; simp only [List.length_cons]; omega⟩, ?_, same⟩
    rw [List.reverse_cons, List.append_assoc, List.singleton_append] at scanned
    rw [scanString, scanned]
    · rfl
    · exact quote
    · intro same
      exact absurd same backslash
    · intro e cs same
      exact absurd same backslash

theorem skip_cases (b : Bool) (cs : List Char) :
    skip b cs = [] ∨ ∃ c rest, skip b cs = c :: rest ∧ isSeparator c = false := by
  induction cs generalizing b with
  | nil => simp [skip]
  | cons c cs ih =>
    rw [skip]
    by_cases comment : b = true
    · rw [if_pos comment]
      exact ih _
    · rw [if_neg comment]
      by_cases blank : (Text.isBlank c || c == ',') = true
      · rw [if_pos blank]
        exact ih false
      · rw [if_neg blank]
        by_cases semicolon : (c == ';') = true
        · rw [if_pos semicolon]
          exact ih true
        · rw [if_neg semicolon]
          right
          refine ⟨c, cs, rfl, ?_⟩
          simp only [isSeparator, Bool.or_eq_false_iff]
          exact ⟨Bool.or_eq_false_iff.mp (Bool.of_not_eq_true blank), Bool.of_not_eq_true semicolon⟩

theorem start_of_skip {b : Bool} (front : skip b cs = c :: more) : isSeparator c = false := by
  rcases skip_cases b cs with none | ⟨d, tail, found, start⟩
  · cases front.symm.trans none
  · cases front.symm.trans found
    exact start

theorem skip_of_start (start : isSeparator c = false) : skip false (c :: cs) = c :: cs := by
  simp only [isSeparator, Bool.or_eq_false_iff] at start
  simp [skip, start]

theorem isSymbolChar_of_start (start : isSeparator c = false)
    (brackets : c ≠ '(' ∧ c ≠ '[' ∧ c ≠ ')' ∧ c ≠ ']') (quote : c ≠ '"')
    (braces : ¬ (c = '{' ∨ c = '}')) : isSymbolChar c = true := by
  simp only [isSeparator, Bool.or_eq_false_iff, beq_eq_false_iff_ne] at start
  have unbroken : c ∉ breaks := by
    simp only [breaks, List.mem_cons, List.not_mem_nil, or_false]
    grind
  simp [isSymbolChar, start, unbroken]

theorem scans_run (front : isSymbolChar c = true)
    (reads : runToken? c (cs.takeWhile isSymbolChar) = some token) :
    Scans (c :: cs) token (cs.dropWhile isSymbolChar) := by
  have chars : ∀ x ∈ c :: cs.takeWhile isSymbolChar, isSymbolChar x = true := by
    intro x mem
    rcases List.mem_cons.mp mem with rfl | mem
    · exact front
    · exact chars_of_run cs x mem
  have scans := Scans.run chars (ends_of_run cs) reads
  rwa [List.cons_append, List.takeWhile_append_dropWhile] at scans

theorem scans_of_scanToken {t : Scanned (c :: cs)} (start : isSeparator c = false)
    (scanned : scanToken c cs = .ok t) : Scans (c :: cs) t.token t.rest := by
  unfold scanToken at scanned
  split at scanned
  · subst c; cases scanned; exact .opening .round cs
  split at scanned
  · subst c; cases scanned; exact .opening .square cs
  split at scanned
  · subst c; cases scanned; exact .closing .round cs
  split at scanned
  · subst c; cases scanned; exact .closing .square cs
  split at scanned
  · subst c
    obtain ⟨⟨s, r⟩, read, rfl⟩ := ok_of_map scanned
    obtain ⟨value, rfl, body⟩ := literal_of_scanString read
    exact .string body
  split at scanned
  · cases scanned
  -- What is left is a run, which is a number or a word.
  rename_i round square round' square' quote braces
  have front := isSymbolChar_of_start start ⟨round, square, round', square'⟩ quote braces
  have same : startsNumber c (cs.takeWhile isSymbolChar) = startsNumber c cs := by
    rw [← startsNumber_append (ends_of_run cs), List.takeWhile_append_dropWhile]
  dsimp only at scanned
  split at scanned
  · rename_i number
    split at scanned
    · rename_i x read
      cases scanned
      exact scans_run front (by simp [runToken?, same, number, read])
    · cases scanned
  · rename_i number
    cases scanned
    exact scans_run front (by simp [runToken?, same, number])

theorem not_isSeparator_of_isSymbolChar (symbol : isSymbolChar c = true) :
    isSeparator c = false := by
  simp only [isSymbolChar, breaks, Bool.and_eq_true, Bool.not_eq_true', List.contains_eq_mem,
    decide_eq_false_iff_not, List.mem_cons, List.not_mem_nil, or_false, not_or] at symbol
  simp [isSeparator, symbol]

theorem scanToken_of_scans {text : List Char} (scans : Scans text token rest) :
    ∃ c cs, text = c :: cs ∧ isSeparator c = false ∧
      ∃ t, scanToken c cs = .ok t ∧ t.token = token ∧ t.rest = rest := by
  cases scans with
  | opening d rest =>
    cases d with
    | round => exact ⟨'(', rest, rfl, by decide, _, rfl, rfl, rfl⟩
    | square => exact ⟨'[', rest, rfl, by decide, _, rfl, rfl, rfl⟩
  | closing d rest =>
    cases d with
    | round => exact ⟨')', rest, rfl, by decide, _, rfl, rfl, rfl⟩
    | square => exact ⟨']', rest, rfl, by decide, _, rfl, rfl, rfl⟩
  | @string cs value _ body =>
    obtain ⟨r, read, same⟩ := scanString_of_literal body ('"' :: cs) []
    have shorter : r.1.length < ('"' :: cs).length := by
      have := r.2
      simp only [List.length_cons]
      omega
    refine ⟨'"', cs, rfl, by decide, ⟨_, r.1, shorter⟩, ?_, rfl, same⟩
    simp [scanToken, read, Except.map]
  | @run c more _ _ chars ends reads =>
    have front := chars c List.mem_cons_self
    obtain ⟨inside, outside⟩ := run_append (fun x mem => chars x (List.mem_cons_of_mem c mem)) ends
    have number : startsNumber c (more ++ rest) = startsNumber c more := startsNumber_append ends
    refine ⟨c, more ++ rest, rfl, not_isSeparator_of_isSymbolChar front, ?_⟩
    have other : c ≠ '(' ∧ c ≠ '[' ∧ c ≠ ')' ∧ c ≠ ']' ∧ c ≠ '"' ∧ ¬ (c = '{' ∨ c = '}') := by
      simp only [isSymbolChar, breaks, Bool.and_eq_true, Bool.not_eq_true', List.contains_eq_mem,
        decide_eq_false_iff_not, List.mem_cons, List.not_mem_nil, or_false, not_or] at front
      simp [front]
    obtain ⟨round, square, round', square', quote, braces⟩ := other
    unfold scanToken
    rw [if_neg round, if_neg square, if_neg round', if_neg square', if_neg quote, if_neg braces]
    unfold runToken? at reads
    dsimp only
    rw [inside, number]
    split at reads
    · rename_i starts
      obtain ⟨x, read, rfl⟩ := Option.map_eq_some_iff.mp reads
      rw [if_pos starts, read]
      exact ⟨_, rfl, rfl, outside⟩
    · rename_i starts
      cases reads
      rw [if_neg starts]
      exact ⟨_, rfl, rfl, outside⟩

variable {source : Source} {stop : Nat} {ls : List Lexeme}

theorem lexFrom_blank (blank : skip false cs = []) : lexFrom source stop cs = .ok [] := by
  rw [lexFrom]
  split
  · rfl
  · rename_i c more other
    rw [blank] at other
    cases other

theorem lexFrom_token {t : Scanned (c :: more)} (front : skip false cs = c :: more)
    (scanned : scanToken c more = .ok t) :
    lexFrom source stop cs = (lexFrom source stop t.rest).map fun ls =>
      ⟨t.token, between source stop (c :: more) t.rest⟩ :: ls := by
  rw [lexFrom]
  split
  · rename_i blank
    rw [front] at blank
    cases blank
  · rename_i c' more' other
    obtain ⟨rfl, rfl⟩ := List.cons.inj (front.symm.trans other)
    rw [scanned]

theorem lexFrom_misread {m : Misread} (front : skip false cs = c :: more)
    (misread : scanToken c more = .error m) :
    lexFrom source stop cs =
      .error { cause := m.cause, span := between source stop m.here m.after } := by
  rw [lexFrom]
  split
  · rename_i blank
    rw [front] at blank
    cases blank
  · rename_i c' more' other
    obtain ⟨rfl, rfl⟩ := List.cons.inj (front.symm.trans other)
    rw [misread]

/-- Reading a text to its end is a succession of tokens. -/
theorem lexFrom_iff : lexFrom source stop cs = .ok ls ↔ Lexes source stop cs ls := by
  constructor
  · intro lexed
    induction cs using lexFrom.induct generalizing ls with
    | case1 cs blank =>
      rw [lexFrom_blank blank] at lexed
      cases lexed
      exact .nil blank
    | case2 cs c more front m misread =>
      rw [lexFrom_misread front misread] at lexed
      cases lexed
    | case3 cs c more front t scanned ih =>
      rw [lexFrom_token front scanned] at lexed
      obtain ⟨later, rest, rfl⟩ := ok_of_map lexed
      exact .cons front (scans_of_scanToken (start_of_skip front) scanned) (ih rest)
  · intro lexes
    induction lexes with
    | nil blank => exact lexFrom_blank blank
    | @cons cs here rest token ls front scans later ih =>
      obtain ⟨c, more, rfl, start, t, scanned, rfl, rfl⟩ := scanToken_of_scans scans
      rw [lexFrom_token front scanned, ih]
      rfl

theorem Scans.unique {text rest' : List Char} {token' : Token} (scans : Scans text token rest)
    (scans' : Scans text token' rest') :
    token = token' ∧ rest = rest' := by
  obtain ⟨c, cs, rfl, _, t, scanned, rfl, rfl⟩ := scanToken_of_scans scans
  obtain ⟨c', cs', same, _, t', scanned', rfl, rfl⟩ := scanToken_of_scans scans'
  cases same
  rw [scanned] at scanned'
  cases scanned'
  exact ⟨rfl, rfl⟩

theorem Scans.skip {text : List Char} (scans : Scans text token rest) : skip false text = text := by
  obtain ⟨c, cs, rfl, start, _⟩ := scanToken_of_scans scans
  exact skip_of_start start

theorem Lexes.first {text : List Char} (lexes : Lexes source stop text ls)
    (scans : Scans text token rest) :
    ∃ later, ls = ⟨token, between source stop text rest⟩ :: later ∧
    Lexes source stop rest later := by
  have front := scans.skip
  cases lexes with
  | nil blank =>
    obtain ⟨c, cs, rfl, _⟩ := scanToken_of_scans scans
    cases front.symm.trans blank
  | cons found scans' later =>
    cases front.symm.trans found
    obtain ⟨rfl, rfl⟩ := scans.unique scans'
    exact ⟨_, rfl, later⟩

end
end Lexer
end Dialogue
