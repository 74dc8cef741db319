import Dialogue.Text.Quoted
import Dialogue.Decimal.Layout

/-!
The values a dialogue computes with. Symbols name variables, nodes, labels and functions; they occur
in terms and operands and never on a machine's stack.
-/
namespace Dialogue

inductive Value where
  | boolean (b : Bool)
  | number (x : Float)
  | string (s : String)
  | nil
  | symbol (name : String)
deriving Repr, Inhabited, DecidableEq

/-- The kinds of value, as prototypes and type faults name them. -/
inductive Kind where
  | boolean
  | number
  | string
  | nil
  | symbol
deriving DecidableEq, Repr

def Kind.all : List Kind :=
  [.boolean, .number, .string, .nil, .symbol]

def Kind.name : Kind → String
  | .boolean => "boolean"
  | .number => "number"
  | .string => "string"
  | .nil => "nil"
  | .symbol => "symbol"

def Kind.ofName? (s : String) : Option Kind :=
  Kind.all.find? (·.name == s)

namespace Value

def kind : Value → Kind
  | boolean _ => .boolean
  | number _ => .number
  | string _ => .string
  | nil => .nil
  | symbol _ => .symbol

def boolean? : Value → Option Bool
  | boolean b => some b
  | _ => none

def number? : Value → Option Float
  | number x => some x
  | _ => none

def string? : Value → Option String
  | string s => some s
  | _ => none

def truthText (b : Bool) : String :=
  if b then "true" else "false"

/-- A value as it is spliced into a line of dialogue. -/
def text : Value → String
  | boolean b => truthText b
  | number x => Decimal.text .plain x
  | string s => s
  | nil => "nil"
  | symbol name => name

/-- A value as it is written in code, strings in quotes. -/
def literalText : Value → String
  | string s => Text.quote s
  | v => v.text

def inspect : Value → String
  | boolean b => s!"Boolean({truthText b})"
  | number x => s!"Number({Decimal.text .marked x})"
  | string s => s!"String({Text.quote s})"
  | nil => "Nil"
  | symbol name => s!"Symbol({name})"

/-- Equality as dialogues see it: values of different kinds differ, numbers compare as numbers. -/
def equal : Value → Value → Bool
  | boolean a, boolean b => a == b
  | number a, number b => a == b
  | string a, string b => a == b
  | nil, nil => true
  | symbol a, symbol b => a == b
  | _, _ => false

end Value
end Dialogue
