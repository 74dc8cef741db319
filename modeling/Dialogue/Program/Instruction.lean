import Dialogue.Program.Opcode
import Dialogue.Decimal.Natural
import Dialogue.Value

/-!
Instructions: opcodes with their operands. Addresses count instructions from the start of a program.
An instruction can be taken apart into opcode and operand value and built from them again.
-/
namespace Dialogue

inductive Instruction where
  | pushString (s : String)
  | pushNumber (x : Float)
  | pushBool (b : Bool)
  | pushNull
  | popValue
  | concat
  | and
  | or
  | not
  | equal
  | greaterThan
  | lessThan
  | add
  | subtract
  | multiply
  | divide
  | increment
  | decrement
  | loadVariable (name : String)
  | storeVariable (name : String)
  | showLine
  | jump (address : Nat)
  | jumpIfFalse (address : Nat)
  | pushChoice (address : Nat)
  | showChoice (node : String)
  | enterNode (node : String)
  | exitNode (node : String)
  | endDialogue
  | call (name : String)
deriving DecidableEq, Repr, Inhabited

namespace Instruction

def opcode : Instruction → Opcode
  | pushString _ => .pushString
  | pushNumber _ => .pushNumber
  | pushBool _ => .pushBool
  | pushNull => .pushNull
  | popValue => .popValue
  | concat => .concat
  | and => .and
  | or => .or
  | not => .not
  | equal => .equal
  | greaterThan => .greaterThan
  | lessThan => .lessThan
  | add => .add
  | subtract => .subtract
  | multiply => .multiply
  | divide => .divide
  | increment => .increment
  | decrement => .decrement
  | loadVariable _ => .loadVariable
  | storeVariable _ => .storeVariable
  | showLine => .showLine
  | jump _ => .jump
  | jumpIfFalse _ => .jumpIfFalse
  | pushChoice _ => .pushChoice
  | showChoice _ => .showChoice
  | enterNode _ => .enterNode
  | exitNode _ => .exitNode
  | endDialogue => .endDialogue
  | call _ => .call

/-- The operand as a value: an address is a number, a name a symbol. -/
def operand? : Instruction → Option Value
  | pushString s => some (.string s)
  | pushNumber x => some (.number x)
  | pushBool b => some (.boolean b)
  | jump a | jumpIfFalse a | pushChoice a => some (.number (Decimal.floatOfNat a))
  | loadVariable s | storeVariable s | showChoice s | enterNode s | exitNode s | call s =>
    some (.symbol s)
  | _ => none

/-- Greater addresses than this cannot be written. -/
def maxAddress : Nat :=
  0xFFFFFFFFFFFFFFFF

def ofOpcode? : Opcode → Option Instruction
  | .pushNull => some pushNull
  | .popValue => some popValue
  | .concat => some concat
  | .and => some and
  | .or => some or
  | .not => some not
  | .equal => some equal
  | .greaterThan => some greaterThan
  | .lessThan => some lessThan
  | .add => some add
  | .subtract => some subtract
  | .multiply => some multiply
  | .divide => some divide
  | .increment => some increment
  | .decrement => some decrement
  | .showLine => some showLine
  | .endDialogue => some endDialogue
  | _ => none

def ofAddress? (address : Nat) : Opcode → Option Instruction
  | .jump => some (jump address)
  | .jumpIfFalse => some (jumpIfFalse address)
  | .pushChoice => some (pushChoice address)
  | _ => none

def ofSymbol? (name : String) : Opcode → Option Instruction
  | .loadVariable => some (loadVariable name)
  | .storeVariable => some (storeVariable name)
  | .showChoice => some (showChoice name)
  | .enterNode => some (enterNode name)
  | .exitNode => some (exitNode name)
  | .call => some (call name)
  | _ => none

/-- The instruction with this opcode and operand, when the operand is of the opcode's kind. An
address is given as a number, and the greatest address stands for all beyond it. -/
def build? (opcode : Opcode) : Option Value → Option Instruction
  | none => ofOpcode? opcode
  | some (.string s) => if opcode.operandKind = .string then some (pushString s) else none
  | some (.boolean b) => if opcode.operandKind = .boolean then some (pushBool b) else none
  | some (.number x) =>
    if opcode.operandKind = .number then some (pushNumber x)
    else (Decimal.natural? x).bind fun n => ofAddress? (min n maxAddress) opcode
  | some (.symbol name) => ofSymbol? name opcode
  | some .nil => none

def retarget? (address : Nat) : Instruction → Option Instruction
  | jump _ => some (jump address)
  | jumpIfFalse _ => some (jumpIfFalse address)
  | pushChoice _ => some (pushChoice address)
  | _ => none

def text (i : Instruction) : String :=
  match i.operand? with
  | none => i.opcode.name
  | some v => s!"{i.opcode.name} {v.literalText}"

end Instruction
end Dialogue
