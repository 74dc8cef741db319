import Dialogue.Markdown.Line
import Dialogue.Markdown.NamedReference
import Dialogue.Text.Punctuation

/-!
The parts of links: character references and escapes, destinations, titles, labels, and the
definitions that labels refer to.
-/
namespace Dialogue.Markdown

def hexValue (cs : List Char) : Nat :=
  cs.foldl (fun n c =>
    16 * n + if c.isDigit then c.toNat - 48 else (c.toLower.toNat - 97) + 10) 0

def decimalValue (cs : List Char) : Nat :=
  cs.foldl (fun n c => 10 * n + (c.toNat - 48)) 0

def isHexDigit (c : Char) : Bool :=
  c.isDigit || ('a' ≤ c.toLower && c.toLower ≤ 'f')

/-- The character with this number; the number zero stands for the replacement character. -/
def numbered? (n : Nat) : Option (List Char) :=
  if n = 0 then some [Char.ofNat 0xFFFD]
  else if n.isValidChar then some [Char.ofNat n] else none

def characterReference? : List Char → Option (List Char × List Char)
  | '&' :: '#' :: cs =>
    let (limit, isDigit, value, cs) : Nat × (Char → Bool) × (List Char → Nat) × List Char :=
      match cs with
      | 'x' :: cs => (6, isHexDigit, hexValue, cs)
      | 'X' :: cs => (6, isHexDigit, hexValue, cs)
      | cs => (7, Char.isDigit, decimalValue, cs)
    let ds := cs.takeWhile isDigit
    match cs.dropWhile isDigit with
    | ';' :: rest =>
      if ds = [] ∨ limit < ds.length then none else (numbered? (value ds)).map (·, rest)
    | _ => none
  | '&' :: cs =>
    match cs.dropWhile Char.isAlphanum with
    | ';' :: rest => (namedReference? (String.ofList (cs.takeWhile Char.isAlphanum))).map (·, rest)
    | _ => none
  | _ => none

def unescape : Nat → List Char → List Char
  | 0, cs => cs
  | _, [] => []
  | fuel + 1, '\\' :: c :: cs =>
    if Text.isAsciiPunctuation c then c :: unescape fuel cs else '\\' :: unescape fuel (c :: cs)
  | fuel + 1, c :: cs =>
    match characterReference? (c :: cs) with
    | some (text, rest) => text ++ unescape fuel rest
    | none => c :: unescape fuel cs

def resolved (cs : List Char) : List Char :=
  unescape cs.length cs

def angled? : List Char → Option (List Char × List Char)
  | [] => none
  | '\\' :: c :: cs =>
    if Text.isAsciiPunctuation c then (angled? cs).map fun (d, r) => ('\\' :: c :: d, r)
    else (angled? (c :: cs)).map fun (d, r) => ('\\' :: d, r)
  | c :: cs =>
    if c = '>' then some ([], cs)
    else if isLineEnd c || c == '<' then none
    else (angled? cs).map fun (d, r) => (c :: d, r)

/-- A bare destination, with `depth` parentheses open, and what follows. Parentheses are balanced
and at most 32 deep. -/
def bare? (depth : Nat) : List Char → Option (List Char × List Char)
  | [] => if depth = 0 then some ([], []) else none
  | '\\' :: c :: cs =>
    if Text.isAsciiPunctuation c then (bare? depth cs).map fun (d, r) => ('\\' :: c :: d, r)
    else (bare? depth (c :: cs)).map fun (d, r) => ('\\' :: d, r)
  | c :: cs =>
    if c.toNat ≤ 0x20 then if depth = 0 then some ([], c :: cs) else none
    else if c = '(' then
      if 32 < depth then none else (bare? (depth + 1) cs).map fun (d, r) => (c :: d, r)
    else if c = ')' then
      if depth = 0 then some ([], c :: cs) else (bare? (depth - 1) cs).map fun (d, r) => (c :: d, r)
    else (bare? depth cs).map fun (d, r) => (c :: d, r)

def destination? : List Char → Option (List Char × List Char)
  | '<' :: cs => angled? cs
  | cs => bare? 0 cs

def titleEnd? (close : Char) : List Char → Option (List Char)
  | [] => none
  | '\\' :: c :: cs =>
    if Text.isAsciiPunctuation c then titleEnd? close cs else titleEnd? close (c :: cs)
  | c :: cs =>
    if c = close then some cs
    else if close = ')' ∧ c = '(' then none
    else titleEnd? close cs

def title? : List Char → Option (List Char)
  | '"' :: cs => titleEnd? '"' cs
  | '\x27' :: cs => titleEnd? '\x27' cs
  | '(' :: cs => titleEnd? ')' cs
  | _ => none

/-- Blanks with at most one line ending among them. -/
def separator (cs : List Char) : List Char :=
  match cs.dropWhile isGap with
  | c :: rest => if isLineEnd c then rest.dropWhile isGap else c :: rest
  | [] => []

def label? : Nat → List Char → Option (List Char × List Char)
  | 0, _ => none
  | _, [] => none
  | left + 1, '\\' :: c :: cs => (label? left cs).map fun (l, r) => ('\\' :: c :: l, r)
  | left + 1, c :: cs =>
    if c = ']' then some ([], cs)
    else if c = '[' then none
    else (label? left cs).map fun (l, r) => (c :: l, r)

def isLabelBlank (c : Char) : Bool :=
  isGap c || isLineEnd c

/-- Letters with a small and a capital form are told apart by neither. -/
def foldCase (c : Char) : Char :=
  let n := c.toNat
  if (0x41 ≤ n ∧ n ≤ 0x5A) ∨ (0xC0 ≤ n ∧ n ≤ 0xDE ∧ n ≠ 0xD7) ∨ (0x391 ≤ n ∧ n ≤ 0x3A9) ∨
      (0x410 ≤ n ∧ n ≤ 0x42F) then Char.ofNat (n + 0x20)
  else if 0x400 ≤ n ∧ n ≤ 0x40F then Char.ofNat (n + 0x50)
  else if 0x100 ≤ n ∧ n ≤ 0x137 ∧ n % 2 = 0 then Char.ofNat (n + 1)
  else c

def labelWords : List Char → List (List Char)
  | [] => [[]]
  | c :: cs =>
    if isLabelBlank c then [] :: labelWords cs
    else match labelWords cs with
      | [] => [[c]]
      | w :: ws => (c :: w) :: ws

/-- Labels are compared without regard to case and to the amount of blanks. -/
def normalLabel (cs : List Char) : List Char :=
  [' '].intercalate (((labelWords cs).filter (· ≠ [])).map (·.map foldCase))

/-- Normalized labels with their destinations; the first definition of a label counts. -/
abbrev Definitions :=
  List (List Char × List Char)

def Definitions.find? (ds : Definitions) (label : List Char) : Option (List Char) :=
  let key := normalLabel label
  if key = [] then none else ds.lookup key

/-- After a definition nothing else may stand on the line. -/
def lineRest? (cs : List Char) : Option (List Char) :=
  match cs.dropWhile isGap with
  | [] => some []
  | c :: rest => if isLineEnd c then some rest else none

def definition? : List Char → Option ((List Char × List Char) × List Char)
  | '[' :: cs => do
    let (label, rest) ← label? 1000 cs
    let key := normalLabel label
    let rest ← match rest with
      | ':' :: rest => some (separator rest)
      | _ => none
    if key = [] ∨ rest = [] then none
    let (destination, after) ← destination? rest
    if destination = [] ∧ rest.head? ≠ some '<' then none
    let entry := (key, resolved destination)
    let titled := do
      let gap := separator after
      if gap.length = after.length then none
      let rest ← title? gap
      lineRest? rest
    match titled with
    | some rest => some (entry, rest)
    | none => (lineRest? after).map (entry, ·)
  | _ => none

def definitions : Nat → List Glyph → Definitions × List Glyph
  | 0, gs => ([], gs)
  | fuel + 1, gs =>
    match definition? (chars gs) with
    | none => ([], gs)
    | some (entry, rest) =>
      let (ds, gs) := definitions fuel (gs.drop (gs.length - rest.length))
      (entry :: ds, gs)

end Dialogue.Markdown
