import Dialogue.Program.Instruction

/-!
Programs: where to start and what to run. A listing shows one instruction a line.
-/
namespace Dialogue

structure Program where
  start : Nat
  code : List Instruction
deriving DecidableEq, Repr, Inhabited

/-- At least four digits, as listings and run-time messages write addresses. -/
def addressText (address : Nat) : String :=
  let digits := toString address
  String.ofList (List.replicate (4 - digits.length) '0') ++ digits

namespace Program

def listingLine (start address : Nat) (i : Instruction) : String :=
  let marker := if address = start then ">" else " "
  let argument := match i.operand? with
    | none => "--"
    | some v => v.literalText
  s!"{marker}{addressText address}\t{i.opcode.name}\t{argument}\n"

def listingLines (start : Nat) : Nat → List Instruction → List String
  | _, [] => []
  | address, i :: is => listingLine start address i :: listingLines start (address + 1) is

def listing (p : Program) : String :=
  "Addr.\tInst.\tArg?\n---\n" ++ String.join (listingLines p.start 0 p.code)

end Program
end Dialogue
