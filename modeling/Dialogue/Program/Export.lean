import Dialogue.Program.Basic
import Dialogue.Program.Json

/-!
Programs in machine-readable form. An instruction is an object with its opcode under `op` and its
operand, if any, under `arg`; a program has its `start` and the list of its instructions under
`code`. How that is written is up to a writer.
-/
namespace Dialogue.Export

def argument? : Instruction → Option Json
  | .pushString s | .loadVariable s | .storeVariable s | .showChoice s | .enterNode s | .exitNode s
  | .call s => some (.string s)
  | .pushNumber x => some (.number x)
  | .pushBool b => some (.boolean b)
  | .jump a | .jumpIfFalse a | .pushChoice a => some (.natural a)
  | _ => none

def arguments (i : Instruction) : Members :=
  match argument? i with
  | none => .nil
  | some v => .cons "arg" v .nil

def instruction (i : Instruction) : Json :=
  .object (.cons "op" (.string i.opcode.name) (arguments i))

def instructions : List Instruction → Items
  | [] => .nil
  | i :: is => .cons (instruction i) (instructions is)

def value (p : Program) : Json :=
  .object (.cons "start" (.natural p.start) (.cons "code" (.array (instructions p.code)) .nil))

def program (p : Program) (w : Writer := .pretty) : String :=
  w.text (value p)

def compact (i : Instruction) : String :=
  Writer.compact.text (instruction i)

end Dialogue.Export
