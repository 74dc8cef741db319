import Dialogue.Program.Export
import Dialogue.Script.Outline
import Dialogue.Terminal.Session

/-!
The command that plays a document, or only checks it, or writes out its program. Results go to the
first output and messages to the second; a message about a failure comes with exit code one.
-/
namespace Dialogue.Terminal

inductive Mode where
  | play
  | check
  | dump
  | emit
deriving DecidableEq, Repr

inductive Failure where
  | unreadable (reason : String)
  | invalid (p : Problem)

def noFile : String :=
  "No such file or directory (os error 2)"

def Failure.message? (path : String) : Failure → Option String
  | .unreadable reason => some s!"Could not read '{path}': {reason}"
  | .invalid p => p.diagnostic.message?

def Mode.program (path : String) (text : List Char) : Except Failure Program :=
  (Script.program ⟨text, path⟩).mapError .invalid

structure Finish where
  code : Nat
  screen : Screen
deriving DecidableEq, Repr

namespace Finish

def success (s : Screen) : Finish :=
  ⟨0, s⟩

def failure (styling : Styling) (s : Screen) (message : String) : Finish :=
  ⟨1, s.report (statusText styling .fatal message)⟩

end Finish

def Session.finish (s : Session) : Finish :=
  match s.standing with
  | .failed t => .failure s.styling s.screen t.text
  | _ => .success s.screen

def Mode.shown (styling : Styling) (w : Export.Writer) (path : String) (p : Program) : Mode → Screen
  | .check =>
    Screen.blank.report
      (statusText styling .success s!"'{path}' compiled to {p.code.length} instructions")
  | .dump => Screen.blank.write p.listing
  | .emit => Screen.blank.write (Export.program p w ++ "\n")
  | .play => Screen.blank

/-- The whole command on a document with everything that is typed. There is no result when a
message cannot be laid out, or when a game takes more instructions than `fuel`. -/
def command (fuel : Nat) (styling : Styling) (mode : Mode) (path : String)
    (document : Except String (List Char)) (lines : List (List Char))
    (w : Export.Writer := .pretty) : Option Finish :=
  match document.mapError .unreadable >>= Mode.program path with
  | .error f => (f.message? path).map (Finish.failure styling Screen.blank)
  | .ok p =>
    match mode with
    | .play => (play fuel styling p lines).map Session.finish
    | other => some (.success (other.shown styling w path p))

end Dialogue.Terminal
