import Dialogue.Code.Fragment
import Dialogue.Term.Basic

/-!
Assembly: instructions written one by one as `(Opcode)` or `(Opcode operand)`, with `(Label name)`
naming the address of the instruction that follows. Addresses are written as names.
-/
namespace Dialogue.Assembly

/-- The operand written after an opcode: none, a symbol or a literal. -/
def operand? : List Term → Option (Option Value)
  | [] => some none
  | [.symbol _ name] => some (some (.symbol name))
  | [.literal _ v] => some (some v)
  | _ => none

def firstSpan (span : Span) : List Term → Span
  | [] => span
  | t :: _ => t.span

def element (span : Span) (head : String) (arguments : List Term) : Emit Unit :=
  match operand? arguments with
  | none => .fail .assemblyOperands span
  | some operand =>
    if head = "Label" then
      match operand with
      | some (.symbol name) => .define name span
      | _ => .fail .labelName span
    else match Opcode.ofName? head with
      | none => .fail (.unknownOpcode head) span
      | some opcode =>
        match Instruction.ofAddress? 0 opcode, operand with
        | some i, some (.symbol target) => .refer i target (firstSpan span arguments)
        | some _, _ => .fail (.operandKind opcode) span
        | none, _ =>
          match Instruction.build? opcode operand with
          | some i => .emit i
          | none => .fail (.operandKind opcode) span

def elements : List Term → Emit Unit
  | [] => pure ()
  | .list span (.symbol _ head :: arguments) :: ts => do
    element span head arguments
    elements ts
  | .list span _ :: _ => .fail .assemblyHead span
  | t :: _ => .fail .assemblyElement t.span

end Dialogue.Assembly
