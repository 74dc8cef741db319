import Dialogue.Program.Json

/-!
Values as tokens, and texts that spell tokens. Blanks may stand between tokens and carry nothing;
a number goes on for as long as its characters do, and a quoted text ends at the first quote that
is not escaped. So a text spells one list of tokens only, however it is laid out.
-/
namespace Dialogue.Export

inductive Token where
  | mark (c : Char)
  | null
  | boolean (b : Bool)
  | number (cs : List Char)
  | string (body : List Char)

def marks : List Char :=
  ['[', ']', '\x7b', '\x7d', ',', ':']

def isBlank (c : Char) : Bool :=
  c == ' ' || c == '\n' || c == '\r' || c == '\t'

def isNumeric (c : Char) : Bool :=
  c.isDigit || c == '-' || c == '+' || c == '.' || c == 'e' || c == 'E'

/-- No quote in the text ends it: each one has a backslash of its own before it. -/
def isBody : List Char → Bool
  | [] => true
  | ['\\'] => false
  | '\\' :: _ :: cs => isBody cs
  | c :: cs => c != '"' && isBody cs

namespace Token

def chars : Token → List Char
  | mark c => [c]
  | null => ['n', 'u', 'l', 'l']
  | boolean true => ['t', 'r', 'u', 'e']
  | boolean false => ['f', 'a', 'l', 's', 'e']
  | number cs => cs
  | string body => '"' :: (body ++ ['"'])

inductive Regular : Token → Prop where
  | mark {c : Char} (known : c ∈ marks) : Regular (mark c)
  | null : Regular null
  | boolean (b : Bool) : Regular (boolean b)
  | number {c : Char} {cs : List Char} (first : c = '-' ∨ c.isDigit = true)
      (numeric : ∀ d ∈ c :: cs, isNumeric d = true) : Regular (number (c :: cs))
  | string {body : List Char} (closed : isBody body = true) : Regular (string body)

end Token

/-- No character that would make a number longer comes first. -/
def Parted (cs : List Char) : Prop :=
  ∀ c ∈ cs.head?, isNumeric c = false

inductive Spelled : List Token → List Char → Prop where
  | nil : Spelled [] []
  | blank {c : Char} {ts : List Token} {cs : List Char} (blank : isBlank c = true)
      (rest : Spelled ts cs) : Spelled ts (c :: cs)
  | token {t : Token} {ts : List Token} {cs : List Char} (regular : t.Regular)
      (parted : ∀ ds, t = .number ds → Parted cs) (rest : Spelled ts cs) :
      Spelled (t :: ts) (t.chars ++ cs)

/-! Reading a token off a text. -/

/-- What stands before the first quote that is not escaped, and what comes after it. -/
def closeQuote : List Char → List Char × List Char
  | [] => ([], [])
  | ['\\'] => (['\\'], [])
  | '\\' :: c :: cs => ('\\' :: c :: (closeQuote cs).1, (closeQuote cs).2)
  | c :: cs => if c = '"' then ([], cs) else (c :: (closeQuote cs).1, (closeQuote cs).2)

def firstToken? : List Char → Option (Token × List Char)
  | [] => none
  | 'n' :: 'u' :: 'l' :: 'l' :: cs => some (.null, cs)
  | 't' :: 'r' :: 'u' :: 'e' :: cs => some (.boolean true, cs)
  | 'f' :: 'a' :: 'l' :: 's' :: 'e' :: cs => some (.boolean false, cs)
  | '"' :: cs => some (.string (closeQuote cs).1, (closeQuote cs).2)
  | c :: cs =>
    if c ∈ marks then some (.mark c, cs)
    else some (.number ((c :: cs).takeWhile isNumeric), (c :: cs).dropWhile isNumeric)

theorem closeQuote_cons {c : Char} (quote : c ≠ '"') (backslash : c ≠ '\\') (cs : List Char) :
    closeQuote (c :: cs) = (c :: (closeQuote cs).1, (closeQuote cs).2) := by
  rw [closeQuote, if_neg quote] <;> simp_all

theorem closeQuote_body {body : List Char} (closed : isBody body = true) (cs : List Char) :
    closeQuote (body ++ '"' :: cs) = (body, cs) := by
  fun_induction isBody body with
  | case1 => rfl
  | case2 => cases closed
  | case3 c body ih =>
    have rest := ih closed
    simp only [List.cons_append, closeQuote, rest]
  | case4 c body last escaping ih =>
    rw [Bool.and_eq_true, bne_iff_ne] at closed
    have backslash : c ≠ '\\' := by
      intro same
      cases body with
      | nil => exact last same rfl
      | cons d ds => exact escaping d ds same rfl
    rw [List.cons_append, closeQuote_cons closed.1 backslash, ih closed.2]

theorem takeWhile_number {ds cs : List Char} (numeric : ∀ d ∈ ds, isNumeric d = true)
    (parted : Parted cs) :
    (ds ++ cs).takeWhile isNumeric = ds ∧ (ds ++ cs).dropWhile isNumeric = cs := by
  rw [List.takeWhile_append_of_pos numeric, List.dropWhile_append_of_pos numeric]
  cases cs with
  | nil => simp
  | cons c cs =>
    have other := parted c rfl
    simp [other]

theorem firstToken?_number {c : Char} (first : c = '-' ∨ c.isDigit = true) (cs : List Char) :
    firstToken? (c :: cs) =
      some (.number ((c :: cs).takeWhile isNumeric), (c :: cs).dropWhile isNumeric) := by
  have unmarked : c ∉ marks := by
    intro mem
    simp only [marks, List.mem_cons, List.not_mem_nil, or_false] at mem
    rcases mem with rfl | rfl | rfl | rfl | rfl | rfl <;> revert first <;> decide
  unfold firstToken?
  split <;> simp_all

theorem firstToken?_chars {t : Token} {cs : List Char} (regular : t.Regular)
    (parted : ∀ ds, t = .number ds → Parted cs) : firstToken? (t.chars ++ cs) = some (t, cs) := by
  cases regular with
  | mark known =>
    simp only [marks, List.mem_cons, List.not_mem_nil, or_false] at known
    rcases known with rfl | rfl | rfl | rfl | rfl | rfl <;> rfl
  | null => rfl
  | boolean b => cases b <;> rfl
  | number first numeric =>
    obtain ⟨taken, dropped⟩ := takeWhile_number numeric (parted _ rfl)
    rw [List.cons_append] at taken dropped
    rw [Token.chars, List.cons_append, firstToken?_number first, taken, dropped]
  | string closed =>
    rw [Token.chars, List.cons_append, List.append_assoc, List.singleton_append, firstToken?,
      closeQuote_body closed]

theorem Token.chars_inj {t u : Token} {cs ds : List Char} (regular : t.Regular)
    (regular' : u.Regular) (parted : ∀ es, t = .number es → Parted cs)
    (parted' : ∀ es, u = .number es → Parted ds) (same : t.chars ++ cs = u.chars ++ ds) :
    t = u ∧ cs = ds := by
  have read := firstToken?_chars regular parted
  rw [same, firstToken?_chars regular' parted'] at read
  cases read
  exact ⟨rfl, rfl⟩

theorem not_blank_of_numeric {c : Char} (numeric : isNumeric c = true) : isBlank c = false := by
  rw [← Bool.not_eq_true]
  intro blank
  simp only [isBlank, Bool.or_eq_true, beq_iff_eq] at blank
  rcases blank with ((rfl | rfl) | rfl) | rfl <;> cases numeric

theorem Token.Regular.begins {t : Token} (regular : t.Regular) :
    ∃ c cs, t.chars = c :: cs ∧ isBlank c = false := by
  cases regular with
  | mark known =>
    simp only [marks, List.mem_cons, List.not_mem_nil, or_false] at known
    rcases known with rfl | rfl | rfl | rfl | rfl | rfl <;> exact ⟨_, [], rfl, rfl⟩
  | null => exact ⟨_, _, rfl, rfl⟩
  | boolean b => cases b <;> exact ⟨_, _, rfl, rfl⟩
  | @number c cs first numeric =>
    exact ⟨c, cs, rfl, not_blank_of_numeric (numeric c List.mem_cons_self)⟩
  | string closed => exact ⟨_, _, rfl, rfl⟩

/-- A text spells one list of tokens only. -/
theorem Spelled.unique {ts us : List Token} {cs : List Char} (left : Spelled ts cs)
    (right : Spelled us cs) : ts = us := by
  induction left generalizing us with
  | nil =>
    generalize empty : [] = cs at right
    cases right with
    | nil => rfl
    | blank => cases empty
    | token regular =>
      obtain ⟨c, more, text, _⟩ := regular.begins
      rw [text] at empty
      cases empty
  | @blank c ts cs blank _ ih =>
    generalize whole : c :: cs = all at right
    cases right with
    | nil => cases whole
    | blank _ rest =>
      cases whole
      exact ih rest
    | token regular =>
      obtain ⟨d, more, text, other⟩ := regular.begins
      rw [text] at whole
      cases whole
      rw [blank] at other
      cases other
  | @token t ts cs regular parted _ ih =>
    generalize whole : t.chars ++ cs = all at right
    obtain ⟨d, more, text, other⟩ := regular.begins
    cases right with
    | nil =>
      rw [text] at whole
      cases whole
    | blank blank =>
      rw [text] at whole
      cases whole
      rw [blank] at other
      cases other
    | token regular' parted' rest =>
      obtain ⟨rfl, rfl⟩ := Token.chars_inj regular regular' parted parted' whole
      rw [ih rest]

/-! The tokens of a value. -/

mutual

def Json.tokens (w : Writer) : Json → List Token
  | .null => [.null]
  | .boolean b => [.boolean b]
  | .natural n => [.number (Nat.toDigits 10 n)]
  | .number x => [.number (w.number x)]
  | .string s => [.string (w.escaped s)]
  | .array .nil => [.mark '[', .mark ']']
  | .array (.cons v vs) => .mark '[' :: (v.tokens w ++ (vs.moreTokens w ++ [.mark ']']))
  | .object .nil => [.mark '\x7b', .mark '\x7d']
  | .object (.cons name v ms) =>
    .mark '\x7b' :: .string (w.escaped name) :: .mark ':' ::
      (v.tokens w ++ (ms.moreTokens w ++ [.mark '\x7d']))

def Items.moreTokens (w : Writer) : Items → List Token
  | .nil => []
  | .cons v vs => .mark ',' :: (v.tokens w ++ vs.moreTokens w)

def Members.moreTokens (w : Writer) : Members → List Token
  | .nil => []
  | .cons name v ms =>
    .mark ',' :: .string (w.escaped name) :: .mark ':' :: (v.tokens w ++ ms.moreTokens w)

end

/-- What is relied on of a writer: its texts spell the values, texts are escaped and finite numbers
printed so that they can be told apart, and every other number is written like null. -/
structure Writer.Standard (w : Writer) : Prop where
  spelled (v : Json) : Spelled (v.finite.tokens w) (w.text v).toList
  texts {s t : String} : w.escaped s = w.escaped t → s = t
  numbers {x y : Float} : x.isFinite = true → y.isFinite = true → w.number x = w.number y → x = y
  infinite (v : Json) : w.text v = w.text v.finite

end Dialogue.Export
