import Dialogue.Machine.Core

/-!
The application a dialogue is embedded in. It is told of everything a player could observe, may
pause the machine where it is told of a node or a line, and provides native functions. Its own
memory is handed from one event to the next.
-/
namespace Dialogue.Machine

inductive Signal where
  | proceed
  | pause
deriving DecidableEq, Repr

structure View where
  node? : Option String
  store : Variables
  depth : Nat
deriving DecidableEq, Repr

def Core.view (c : Core) : View :=
  ⟨c.node?, c.store, c.stack.length⟩

structure Host (σ : Type) where
  enter : View → String → σ → Signal × σ
  leave : View → String → σ → Signal × σ
  line : View → String → σ → Signal × σ
  menu : View → List String → σ → σ
  finish : View → σ → σ

/-- A function of the host's, with the kinds of its arguments. It may fail with a message. -/
structure Native (σ : Type) where
  signature : List Kind
  invoke : List Value → σ → Except String Signal × σ

/-- Native functions by name; the one registered last is called. -/
abbrev Natives (σ : Type) :=
  List (String × Native σ)

namespace Natives
variable {σ : Type}

def signatures (ns : Natives σ) : Signatures :=
  fun name => (ns.lookup name).map Native.signature

/-- Registers a function, in place of one of the same name. -/
def add (ns : Natives σ) (name : String) (n : Native σ) : Natives σ :=
  (name, n) :: ns.filter (·.1 ≠ name)

def has (ns : Natives σ) (name : String) : Bool :=
  (ns.lookup name).isSome

end Natives
end Dialogue.Machine
