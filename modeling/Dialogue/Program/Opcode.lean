/-!
The instruction set by name: what each operation is called, how many values it needs on the stack
and what kind of operand is written after it.
-/
namespace Dialogue

inductive Opcode where
  | pushString
  | pushNumber
  | pushBool
  | pushNull
  | popValue
  | concat
  | and
  | or
  | not
  | equal
  | greaterThan
  | lessThan
  | add
  | subtract
  | multiply
  | divide
  | increment
  | decrement
  | loadVariable
  | storeVariable
  | showLine
  | jump
  | jumpIfFalse
  | pushChoice
  | showChoice
  | enterNode
  | exitNode
  | endDialogue
  | call
deriving DecidableEq, Repr

inductive OperandKind where
  | none
  | address
  | name
  | string
  | number
  | boolean
deriving DecidableEq, Repr

def OperandKind.label : OperandKind → String
  | .none => "none"
  | .address => "address"
  | .name => "name"
  | .string => "string"
  | .number => "number"
  | .boolean => "boolean"

namespace Opcode

def all : List Opcode :=
  [pushString, pushNumber, pushBool, pushNull, popValue, concat, and, or, not, equal, greaterThan,
    lessThan, add, subtract, multiply, divide, increment, decrement, loadVariable, storeVariable,
    showLine, jump, jumpIfFalse, pushChoice, showChoice, enterNode, exitNode, endDialogue, call]

def name : Opcode → String
  | pushString => "PushString"
  | pushNumber => "PushNumber"
  | pushBool => "PushBool"
  | pushNull => "PushNull"
  | popValue => "PopValue"
  | concat => "Concat"
  | and => "And"
  | or => "Or"
  | not => "Not"
  | equal => "Equal"
  | greaterThan => "GreaterThan"
  | lessThan => "LessThan"
  | add => "Add"
  | subtract => "Subtract"
  | multiply => "Multiply"
  | divide => "Divide"
  | increment => "Increment"
  | decrement => "Decrement"
  | loadVariable => "LoadVariable"
  | storeVariable => "StoreVariable"
  | showLine => "ShowLine"
  | jump => "Jump"
  | jumpIfFalse => "JumpIfFalse"
  | pushChoice => "PushChoice"
  | showChoice => "ShowChoice"
  | enterNode => "EnterNode"
  | exitNode => "ExitNode"
  | endDialogue => "EndDialogue"
  | call => "Call"

/-- `Lessthan` is an older spelling of `LessThan`. -/
def ofName? (s : String) : Option Opcode :=
  if s = "Lessthan" then some lessThan else all.find? (·.name == s)

def stackNeeded : Opcode → Nat
  | pushString | pushNumber | pushBool | pushNull => 0
  | loadVariable | jump | showChoice | enterNode | exitNode | endDialogue | call => 0
  | popValue | not | increment | decrement => 1
  | storeVariable | showLine | jumpIfFalse | pushChoice => 1
  | concat | and | or | equal | greaterThan | lessThan => 2
  | add | subtract | multiply | divide => 2

def operandKind : Opcode → OperandKind
  | pushString => .string
  | pushNumber => .number
  | pushBool => .boolean
  | jump | jumpIfFalse | pushChoice => .address
  | loadVariable | storeVariable | showChoice | enterNode | exitNode | call => .name
  | _ => .none

theorem mem_all (o : Opcode) : o ∈ all := by
  cases o <;> decide

theorem ofName?_name (o : Opcode) : ofName? o.name = some o := by
  cases o <;> decide

end Opcode
end Dialogue
