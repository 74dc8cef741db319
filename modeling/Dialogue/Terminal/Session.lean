import Dialogue.Machine.Basic
import Dialogue.Terminal.Status
import Dialogue.Text.Blank

/-!
Playing a dialogue on a terminal. Lines and menus are written as they are shown; at a menu the
player is asked for a number until one of the options is named, and the game is over when the
machine stops or the player's input ends.
-/
namespace Dialogue.Terminal
open Machine (Host Trace Status)

structure Screen where
  out : String
  err : String
deriving DecidableEq, Repr

namespace Screen

def blank : Screen :=
  ⟨"", ""⟩

def write (s : Screen) (text : String) : Screen :=
  { s with out := s.out ++ text }

def report (s : Screen) (text : String) : Screen :=
  { s with err := s.err ++ text }

end Screen

def menuText (styling : Styling) : Nat → List String → String
  | _, [] => ""
  | n, t :: ts =>
    let number := String.ofList (styling.run .onlyBold (toString n).toList)
    "  " ++ number ++ ". " ++ render styling t ++ "\n" ++ menuText styling (n + 1) ts

/-- Shows lines and menus and never pauses. -/
def host (styling : Styling) : Host Screen where
  enter _ _ s := (.proceed, s)
  leave _ _ s := (.proceed, s)
  line _ text s := (.proceed, s.write (render styling text ++ "\n\n"))
  menu _ texts s := s.write (menuText styling 1 texts)
  finish _ s := s

def promptText (styling : Styling) : String :=
  String.ofList (styling.run .onlyBold ['>']) ++ " "

/-- The greatest number a player can give; there is never a longer menu. -/
def greatestNumber : Nat :=
  0xFFFFFFFFFFFFFFFF

def hintText (styling : Styling) (count : Nat) : String :=
  statusText styling .info s!"Pick a number from 1 to {count}"

def dropPlus : List Char → List Char
  | '+' :: cs => cs
  | cs => cs

/-- A number written in digits, with an optional sign, after blanks are trimmed. One that is too
great is none. -/
def readNumber? (line : List Char) : Option Nat :=
  let ds := dropPlus (Text.trim line)
  if ds ≠ [] ∧ ds.all Char.isDigit then
    let n := ds.foldl (fun n c => 10 * n + (c.toNat - 48)) 0
    if n ≤ greatestNumber then some n else none
  else none

/-- The option that a line names, counted from zero. -/
def option? (count : Nat) (line : List Char) : Option Nat :=
  match readNumber? line with
  | some n => if 1 ≤ n ∧ n ≤ count then some (n - 1) else none
  | none => none

/-- Where a game stands: at a prompt, over, or broken off by a fault. -/
inductive Standing where
  | asking
  | over
  | failed (t : Trace)
deriving DecidableEq, Repr

structure Session where
  styling : Styling
  machine : Machine Screen
  standing : Standing

namespace Session

def screen (s : Session) : Screen :=
  s.machine.memory

def prompted (styling : Styling) (m : Machine Screen) : Session :=
  ⟨styling, { m with memory := m.memory.write (promptText styling) }, .asking⟩

/-- Goes on from where the machine halted: a pause is resumed, a menu prompts the player. -/
def settle (styling : Styling) :
    Nat → Option (Except Trace Status × Machine Screen) → Option Session
  | _, none => none
  | _, some (.error t, m) => some ⟨styling, m, .failed t⟩
  | fuel, some (.ok .waiting, m) => (fun _ => some (prompted styling m)) fuel
  | 0, some (.ok .suspended, _) => none
  | fuel + 1, some (.ok .suspended, m) => settle styling fuel (m.resume fuel)
  | _, some (.ok _, m) => some ⟨styling, m, .over⟩

def begin (fuel : Nat) (styling : Styling) (p : Program) : Option Session :=
  settle styling fuel ((Machine.new p (host styling) [] Screen.blank).run fuel)

def answer (fuel : Nat) (s : Session) (line : List Char) : Option Session :=
  let count := s.machine.core.choices.length
  match option? count line with
  | some index => settle s.styling fuel (s.machine.choose fuel index)
  | none =>
    some (prompted s.styling
      { s.machine with memory := s.machine.memory.report (hintText s.styling count) })

def answerAll (fuel : Nat) : Session → List (List Char) → Option Session
  | s, [] => some s
  | s, l :: ls =>
    match s.standing with
    | .asking => do
      let next ← s.answer fuel l
      answerAll fuel next ls
    | _ => some s

end Session

/-- A whole game with everything the player will type, line by line. -/
def play (fuel : Nat) (styling : Styling) (p : Program) (lines : List (List Char)) :
    Option Session := do
  let s ← Session.begin fuel styling p
  s.answerAll fuel lines

/-- Typed text as lines; the last one may lack its line feed. -/
def inputLines (cs : List Char) : List (List Char) :=
  let ls := Source.splitLines cs
  if ls.getLastD [] = [] then ls.dropLast else ls

end Dialogue.Terminal
