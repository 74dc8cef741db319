import Dialogue.Terminal.Command

/-!
The command line: a document and what to do with it. Games are played line by line.
-/
namespace Dialogue.Main
open Terminal

/-- More instructions than any game takes between two answers. -/
def fuel : Nat :=
  1000000000000000000

def usage : String :=
  "usage: dialogue <document> [--check | --dump | --emit json]\n"

def parse? : List String → Option (String × Mode)
  | [path] => some (path, .play)
  | [path, "--check"] => some (path, .check)
  | [path, "--dump"] => some (path, .dump)
  | [path, "--emit", "json"] => some (path, .emit)
  | _ => none

def print (s : Screen) : IO Unit := do
  let out ← IO.getStdout
  let err ← IO.getStderr
  out.putStr s.out
  out.flush
  err.putStr s.err

def document (path : String) : IO (Except String (List Char)) := do
  try
    let text ← IO.FS.readFile path
    return .ok text.toList
  catch
    | .noFileOrDirectory _ _ _ => return .error noFile
    | e => return .error (toString e)

def finish (f : Finish) : IO UInt32 := do
  print f.screen
  return f.code.toUInt32

/-- Shows what is new, and asks on. -/
partial def converse (s : Session) : IO UInt32 := do
  match s.standing with
  | .asking =>
    print s.screen
    let line ← (← IO.getStdin).getLine
    let shown := { s with machine := { s.machine with memory := Screen.blank } }
    if line.isEmpty then return 0
    else match shown.answer fuel line.toList with
      | some next => converse next
      | none => return 1
  | _ => finish s.finish

def runWith (styling : Styling) (w : Export.Writer) (path : String) (mode : Mode) : IO UInt32 := do
  match (← document path).mapError .unreadable >>= Mode.program path with
  | .error f =>
    finish (.failure styling Screen.blank ((f.message? path).getD "Syntax Error"))
  | .ok p =>
    match mode with
    | .play =>
      match Session.begin fuel styling p with
      | some s => converse s
      | none => return 1
    | other => finish (.success (other.shown styling w path p))

end Dialogue.Main

def main (arguments : List String) : IO UInt32 := do
  match Dialogue.Main.parse? arguments with
  | some (path, mode) =>
    let color ← (← IO.getStdout).isTty
    Dialogue.Main.runWith color .pretty path mode
  | none =>
    IO.eprint Dialogue.Main.usage
    return 2
