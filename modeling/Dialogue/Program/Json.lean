import Dialogue.Decimal.Layout

/-!
Values in machine-readable form, and what writes them. A writer decides how texts are escaped, how
numbers are printed and how a value is laid out. The writers here differ only in the blanks between
the parts of a value; a number that is not finite is no value of theirs and is written as null.
-/
namespace Dialogue.Export

mutual

inductive Json where
  | null
  | boolean (b : Bool)
  | natural (n : Nat)
  | number (x : Float)
  | string (s : String)
  | array (items : Items)
  | object (members : Members)

inductive Items where
  | nil
  | cons (v : Json) (vs : Items)

inductive Members where
  | nil
  | cons (name : String) (v : Json) (vs : Members)

end

mutual

/-- The same value with null for every number that is not finite. -/
def Json.finite : Json → Json
  | .number x => if Decimal.isFinite x then .number x else .null
  | .array vs => .array vs.finite
  | .object ms => .object ms.finite
  | v => v

def Items.finite : Items → Items
  | .nil => .nil
  | .cons v vs => .cons v.finite vs.finite

def Members.finite : Members → Members
  | .nil => .nil
  | .cons name v ms => .cons name v.finite ms.finite

end

structure Writer where
  escaped : String → List Char
  number : Float → List Char
  text : Json → String

def escape (c : Char) : List Char :=
  if c = '"' then ['\\', '"']
  else if c = '\\' then ['\\', '\\']
  else if c = '\x08' then ['\\', 'b']
  else if c = '\x0c' then ['\\', 'f']
  else if c = '\n' then ['\\', 'n']
  else if c = '\r' then ['\\', 'r']
  else if c = '\t' then ['\\', 't']
  else if c.toNat < 0x20 then
    ['\\', 'u', '0', '0', if c.toNat < 0x10 then '0' else '1'] ++ Nat.toDigits 16 (c.toNat % 16)
  else [c]

def escapeAll (s : String) : List Char :=
  s.toList.flatMap escape

def quote (s : String) : List Char :=
  '"' :: (escapeAll s ++ ['"'])

/-- The blanks before a part at some depth, and between a name and its value. -/
structure Spacing where
  line : Nat → List Char
  gap : List Char

namespace Spacing

def pretty : Spacing :=
  ⟨fun depth => '\n' :: List.replicate (2 * depth) ' ', [' ']⟩

def compact : Spacing :=
  ⟨fun _ => [], []⟩

end Spacing

mutual

def Json.chars (s : Spacing) (depth : Nat) : Json → List Char
  | .null => ['n', 'u', 'l', 'l']
  | .boolean true => ['t', 'r', 'u', 'e']
  | .boolean false => ['f', 'a', 'l', 's', 'e']
  | .natural n => Nat.toDigits 10 n
  | .number x => Decimal.textChars .exported x
  | .string t => quote t
  | .array .nil => ['[', ']']
  | .array (.cons v vs) =>
    '[' :: (s.line (depth + 1) ++ (v.chars s (depth + 1) ++
      (vs.more s (depth + 1) ++ (s.line depth ++ [']']))))
  | .object .nil => ['\x7b', '\x7d']
  | .object (.cons name v ms) =>
    '\x7b' :: (s.line (depth + 1) ++ (quote name ++ (':' :: (s.gap ++ (v.chars s (depth + 1) ++
      (ms.more s (depth + 1) ++ (s.line depth ++ ['\x7d'])))))))

def Items.more (s : Spacing) (depth : Nat) : Items → List Char
  | .nil => []
  | .cons v vs => ',' :: (s.line depth ++ (v.chars s depth ++ vs.more s depth))

def Members.more (s : Spacing) (depth : Nat) : Members → List Char
  | .nil => []
  | .cons name v ms =>
    ',' :: (s.line depth ++
      (quote name ++ (':' :: (s.gap ++ (v.chars s depth ++ ms.more s depth)))))

end

namespace Writer

def spaced (s : Spacing) : Writer where
  escaped := escapeAll
  number := Decimal.textChars .exported
  text v := String.ofList (v.finite.chars s 0)

def pretty : Writer :=
  spaced .pretty

def compact : Writer :=
  spaced .compact

end Writer
end Dialogue.Export
