import Dialogue.Program.Basic

/-!
What can go wrong while a program runs, and where it happened.
-/
namespace Dialogue.Machine

inductive Status where
  /-- Idle, ready to run. -/
  | stopped
  | running
  /-- Paused by its host, ready to resume. -/
  | suspended
  /-- Showing a menu, ready for a choice. -/
  | waiting
  /-- After a fault; only a reset helps. -/
  | faulted
deriving DecidableEq, Repr

def Status.text : Status → String
  | .stopped => "stopped"
  | .running => "running"
  | .suspended => "suspended"
  | .waiting => "waiting for input"
  | .faulted => "in error"

/-- What a host may ask of a machine in the wrong state. -/
inductive Action where
  | run
  | resume
  | choose
  | step
deriving DecidableEq, Repr

def Action.text : Action → String
  | .run => "run"
  | .resume => "resume"
  | .choose => "choose"
  | .step => "step"

inductive Fault where
  | stackUnderflow (needed found : Nat)
  | typeMismatch (expected found : Kind)
  | unknownFunction (name : String)
  | arity (name : String) (expected found : Nat)
  | argumentType (name : String) (index : Nat) (expected found : Kind)
  | native (name message : String)
  | choiceOutOfRange (index count : Nat)
  | invalidTransition (action : Action) (status : Status)
  | outOfBounds (address length : Nat)
deriving DecidableEq, Repr

def Fault.text : Fault → String
  | .stackUnderflow needed found => s!"stack underflow: needed {needed} values, found {found}"
  | .typeMismatch expected found =>
    s!"type mismatch: expected a {expected.name}, found a {found.name}"
  | .unknownFunction name => s!"function does not exist: `{name}`"
  | .arity name expected found =>
    s!"`{name}` takes {expected} arguments, but only {found} are on the stack"
  | .argumentType name index expected found =>
    s!"argument {index} of `{name}` should be a {expected.name}, found a {found.name}"
  | .native name message => s!"`{name}` failed: {message}"
  | .choiceOutOfRange index count =>
    s!"choice {index} is out of range, there are {count} choices"
  | .invalidTransition action status => s!"can't {action.text} a VM that is {status.text}"
  | .outOfBounds address length =>
    s!"ran off the end of the program at {address} (length {length})"

/-- A fault with the address and the instruction at which it arose, if any. -/
structure Trace where
  fault : Fault
  address? : Option Nat := none
  instruction? : Option Instruction := none
deriving DecidableEq, Repr

def Trace.text (t : Trace) : String :=
  let address := match t.address? with
    | none => ""
    | some a => s!" at {addressText a}"
  let instruction := match t.instruction? with
    | none => ""
    | some i => s!" ({i.text})"
  s!"Runtime Error{address}{instruction}: {t.fault.text}"

end Dialogue.Machine
