import Dialogue.Decimal.Reading
import Dialogue.Problem
import Dialogue.Text.Blank

/-!
Splitting a snippet into tokens. White space, commas and comments separate tokens; symbols and
numbers run to the next blank or breaking character, so that a number followed by letters is a
mistake and not two tokens. Scanning works on the characters still to come, and a place is known by
what comes from there on.
-/
namespace Dialogue.Lexer

/-- Characters that end a symbol or a number, apart from blanks. -/
def breaks : List Char :=
  ['(', ')', '[', ']', '{', '}', '"', ';', ',']

def isSymbolChar (c : Char) : Bool :=
  !Text.isBlank c && !breaks.contains c

/-- Drops blanks, commas and comments; a comment ends before the next line feed. -/
def skip (inComment : Bool) : List Char → List Char
  | [] => []
  | c :: cs =>
    if inComment then skip (c != '\n') cs
    else if Text.isBlank c || c == ',' then skip false cs
    else if c == ';' then skip true cs
    else c :: cs

/-- A mistake, with what comes from its first character on and what comes after it. -/
structure Misread where
  cause : Cause
  here : List Char
  after : List Char

structure Scanned (cs : List Char) where
  token : Token
  rest : List Char
  shorter : rest.length < cs.length

def unescape? : Char → Option Char
  | '"' => some '"'
  | '\\' => some '\\'
  | 'n' => some '\n'
  | 'r' => some '\r'
  | 't' => some '\t'
  | '0' => some '\x00'
  | _ => none

/-- The rest of a string literal whose quote stands at `opening`; `read` is reversed. -/
def scanString (opening : List Char) (read : List Char) :
    (cs : List Char) → Except Misread (String × { rest : List Char // rest.length ≤ cs.length })
  | [] => .error ⟨.unterminatedString, opening, []⟩
  | '"' :: cs => .ok (String.ofList read.reverse, ⟨cs, by simp⟩)
  | '\\' :: [] => .error ⟨.unterminatedString, opening, []⟩
  | '\\' :: e :: cs =>
    match unescape? e with
    | none => .error ⟨.unknownEscape e, '\\' :: e :: cs, cs⟩
    | some c => (scanString opening (c :: read) cs).map fun (s, r) => (s, ⟨r.1, by grind⟩)
  | c :: cs => (scanString opening (c :: read) cs).map fun (s, r) => (s, ⟨r.1, by grind⟩)

def word (run : List Char) : Token :=
  let name := String.ofList run
  if name = "true" then .literal (.boolean true)
  else if name = "false" then .literal (.boolean false)
  else if name = "nil" then .literal .nil
  else .symbol name

def startsNumber (c : Char) (cs : List Char) : Bool :=
  c.isDigit || ((c == '-' || c == '+') && cs.head?.any Char.isDigit)

/-- The token that begins with `c`, which is no blank, comma or comment. -/
def scanToken (c : Char) (cs : List Char) : Except Misread (Scanned (c :: cs)) :=
  if c = '(' then .ok ⟨.opening .round, cs, by simp⟩
  else if c = '[' then .ok ⟨.opening .square, cs, by simp⟩
  else if c = ')' then .ok ⟨.closing .round, cs, by simp⟩
  else if c = ']' then .ok ⟨.closing .square, cs, by simp⟩
  else if c = '"' then
    (scanString (c :: cs) [] cs).map fun (s, r) => ⟨.literal (.string s), r.1, by grind⟩
  else if c = '{' ∨ c = '}' then .error ⟨.mapsUnsupported, c :: cs, c :: cs⟩
  else
    let run := c :: cs.takeWhile isSymbolChar
    let rest := cs.dropWhile isSymbolChar
    have shorter : rest.length < (c :: cs).length := by
      have := (List.dropWhile_suffix (l := cs) isSymbolChar).length_le
      simp only [List.length_cons, rest]; omega
    if startsNumber c cs then
      match Decimal.readFloat run with
      | some x => .ok ⟨.literal (.number x), rest, shorter⟩
      | none => .error ⟨.invalidNumber (String.ofList run), c :: cs, rest⟩
    else .ok ⟨word run, rest, shorter⟩

theorem skip_length_le (b : Bool) (cs : List Char) : (skip b cs).length ≤ cs.length := by
  induction cs generalizing b with
  | nil => simp [skip]
  | cons c cs ih =>
    simp only [skip, List.length_cons]
    have h₁ := ih (c != '\n')
    have h₂ := ih false
    have h₃ := ih true
    repeat' split
    all_goals first | omega | simp

/-- The section between two places of a snippet that ends at `stop`. -/
def between (source : Source) (stop : Nat) (a b : List Char) : Span :=
  ⟨source, stop - Text.byteLength a, Text.byteLength a - Text.byteLength b⟩

/-- The tokens of `cs`, the last characters of a snippet that ends at `stop`. -/
def lexFrom (source : Source) (stop : Nat) (cs : List Char) : Except Problem (List Lexeme) :=
  match _h : skip false cs with
  | [] => .ok []
  | c :: rest =>
    match scanToken c rest with
    | .error m => .error { cause := m.cause, span := between source stop m.here m.after }
    | .ok t =>
      (lexFrom source stop t.rest).map fun ls =>
        ⟨t.token, between source stop (c :: rest) t.rest⟩ :: ls
termination_by cs.length
decreasing_by
  have := skip_length_le false cs
  rw [_h] at this
  exact Nat.lt_of_lt_of_le t.shorter this

def lex (s : Span) : Except Problem (List Lexeme) :=
  lexFrom s.source s.stop s.contents

end Dialogue.Lexer
