import Dialogue.Program.Opcode

/-!
The built-in operators of the expression language, by name, with the number of operands each takes
and whether its forms leave a value. A list headed by any other symbol calls a native function.
-/
namespace Dialogue

/-- Whether a form leaves exactly one value on the stack or the stack as it found it. -/
inductive Class where
  | expression
  | statement
deriving DecidableEq, Repr

def Class.text : Class → String
  | .expression => "an expression"
  | .statement => "a statement"

inductive Arity where
  | exactly (n : Nat)
  | atLeast (n : Nat)
deriving DecidableEq, Repr

namespace Arity

def accepts : Arity → Nat → Bool
  | exactly n, count => count == n
  | atLeast n, count => n ≤ count

def operands (n : Nat) : String :=
  if n = 1 then "1 operand" else s!"{n} operands"

def text : Arity → String
  | exactly n => s!"exactly {operands n}"
  | atLeast n => s!"at least {operands n}"

end Arity

inductive Operator where
  | greaterThan
  | lessThan
  | equal
  | not
  | and
  | or
  | add
  | subtract
  | multiply
  | divide
  | increment
  | decrement
  | concat
  | assign
  | whileLoop
  | conditional
  | sequence
  | assembly
  | print
  | choose
deriving DecidableEq, Repr

namespace Operator

def all : List Operator :=
  [greaterThan, lessThan, equal, not, and, or, add, subtract, multiply, divide, increment,
    decrement, concat, assign, whileLoop, conditional, sequence, assembly, print, choose]

def name : Operator → String
  | greaterThan => "gt"
  | lessThan => "lt"
  | equal => "eq"
  | not => "not"
  | and => "and"
  | or => "or"
  | add => "+"
  | subtract => "-"
  | multiply => "*"
  | divide => "/"
  | increment => "inc"
  | decrement => "dec"
  | concat => "concat"
  | assign => "set!"
  | whileLoop => "while"
  | conditional => "if"
  | sequence => "do"
  | assembly => "asm"
  | print => "print"
  | choose => "choose"

def ofName? (s : String) : Option Operator :=
  all.find? (·.name == s)

/-- A conditional is listed as an expression and takes the class of its branches. -/
def formClass : Operator → Class
  | assign | whileLoop | sequence | assembly | print | choose => .statement
  | _ => .expression

def arity : Operator → Arity
  | not | increment | decrement | print => .exactly 1
  | greaterThan | lessThan | equal | assign | whileLoop => .exactly 2
  | conditional => .exactly 3
  | and | or | add | subtract | multiply | divide | concat => .atLeast 1
  | sequence | choose => .atLeast 1
  | assembly => .atLeast 0

def opcode? : Operator → Option Opcode
  | greaterThan => some .greaterThan
  | lessThan => some .lessThan
  | equal => some .equal
  | not => some .not
  | and => some .and
  | or => some .or
  | add => some .add
  | subtract => some .subtract
  | multiply => some .multiply
  | divide => some .divide
  | increment => some .increment
  | decrement => some .decrement
  | concat => some .concat
  | assign | whileLoop | conditional | sequence | assembly | print | choose => none

/-- Operators that fold any number of operands from left to right. -/
def isVariadic (o : Operator) : Bool :=
  match o.arity with
  | .atLeast _ => o.opcode?.isSome
  | .exactly _ => false

theorem mem_all (o : Operator) : o ∈ all := by
  cases o <;> decide

theorem ofName?_name (o : Operator) : ofName? o.name = some o := by
  cases o <;> decide

end Operator
end Dialogue
