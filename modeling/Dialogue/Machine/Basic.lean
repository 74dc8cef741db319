import Dialogue.Machine.Host

/-!
The machine. Its host starts it, resumes it after a pause and answers its menus; each of these runs
instructions until the machine pauses, waits for a choice or stops. A program may run for ever, so
running takes a bound on the number of instructions and gives nothing when the bound is met.
-/
namespace Dialogue

structure Machine (σ : Type) where
  program : Program
  host : Machine.Host σ
  natives : Machine.Natives σ
  status : Machine.Status
  core : Machine.Core
  /-- The host's memory. -/
  memory : σ

namespace Machine
variable {σ : Type}

inductive Outcome where
  | proceeded
  | suspended
  | waiting
  | stopped
deriving DecidableEq, Repr

def Outcome.text : Outcome → String
  | .proceeded => "continue"
  | .suspended => "suspended"
  | .waiting => "waiting for input"
  | .stopped => "stopped"

def Outcome.status : Outcome → Status
  | .proceeded => .running
  | .suspended => .suspended
  | .waiting => .waiting
  | .stopped => .stopped

def Signal.outcome : Signal → Outcome
  | .proceed => .proceeded
  | .pause => .suspended

def new (program : Program) (host : Host σ) (natives : Natives σ) (memory : σ) : Machine σ :=
  ⟨program, host, natives, .stopped, .start 0, memory⟩

def fail {α : Type} (m : Machine σ) (t : Trace) : Except Trace α × Machine σ :=
  (.error t, { m with status := .faulted })

def refuse {α : Type} (m : Machine σ) (a : Action) : Except Trace α × Machine σ :=
  m.fail { fault := .invalidTransition a m.status }

def choices (m : Machine σ) : List String :=
  m.core.choices.map Choice.text

def start (m : Machine σ) : Except Trace Unit × Machine σ :=
  if m.status ≠ .stopped then m.refuse .run
  else (.ok (), { m with status := .running, core := .start m.program.start })

/-- Forces the machine to a stop, whatever it was doing. -/
def reset (m : Machine σ) : Machine σ :=
  { m with status := .stopped }

/-- Puts a request to the host, which sees the core as the instruction left it. -/
def ask (m : Machine σ) : Request → Except Fault Outcome × σ
  | .nothing => (.ok .proceeded, m.memory)
  | .enter node => let (s, w) := m.host.enter m.core.view node m.memory; (.ok s.outcome, w)
  | .leave node => let (s, w) := m.host.leave m.core.view node m.memory; (.ok s.outcome, w)
  | .line text => let (s, w) := m.host.line m.core.view text m.memory; (.ok s.outcome, w)
  | .menu texts => (.ok .waiting, m.host.menu m.core.view texts m.memory)
  | .finish => (.ok .stopped, m.host.finish m.core.view m.memory)
  | .call name arguments =>
    match m.natives.lookup name with
    | none => (.error (.unknownFunction name), m.memory)
    | some n =>
      match n.invoke arguments m.memory with
      | (.error message, w) => (.error (.native name message), w)
      | (.ok s, w) => (.ok s.outcome, w)

def step (m : Machine σ) : Except Trace Outcome × Machine σ :=
  if m.status ≠ .running then m.refuse .step
  else
    let address := m.core.pc
    match m.program.code[address]? with
    | none =>
      m.fail { fault := .outOfBounds address m.program.code.length, address? := some address }
    | some i =>
      let trace (f : Fault) : Trace := ⟨f, some address, some i⟩
      match ({ m.core with pc := address + 1 } : Core).execute m.natives.signatures i with
      | (.error f, core) => ({ m with core } : Machine σ).fail (trace f)
      | (.ok request, core) =>
        let m := { m with core }
        match m.ask request with
        | (.error f, memory) => ({ m with memory } : Machine σ).fail (trace f)
        | (.ok outcome, memory) => (.ok outcome, { m with memory, status := outcome.status })

/-- Executes instructions while the machine is running, at most `fuel` of them. -/
def proceed : Nat → Machine σ → Option (Except Trace Status × Machine σ)
  | fuel, m =>
    if m.status ≠ .running then some (.ok m.status, m)
    else match fuel with
      | 0 => none
      | fuel + 1 =>
        match m.step with
        | (.error t, m) => some (.error t, m)
        | (.ok _, m) => proceed fuel m

def run (fuel : Nat) (m : Machine σ) : Option (Except Trace Status × Machine σ) :=
  match m.start with
  | (.error t, m) => some (.error t, m)
  | (.ok (), m) => m.proceed fuel

def resume (fuel : Nat) (m : Machine σ) : Option (Except Trace Status × Machine σ) :=
  if m.status ≠ .suspended then some (m.refuse .resume)
  else ({ m with status := .running } : Machine σ).proceed fuel

/-- Answers a menu with an option, counted from zero. The host is told that the node is left. An
option that is not there changes nothing, so that the host may ask again. -/
def choose (fuel : Nat) (index : Nat) (m : Machine σ) :
    Option (Except Trace Status × Machine σ) :=
  if m.status ≠ .waiting then some (m.refuse .choose)
  else match m.core.choices[index]? with
    | none => some (.error { fault := .choiceOutOfRange index m.core.choices.length }, m)
    | some choice =>
      let (signal, memory) := m.host.leave m.core.view (m.core.node?.getD "") m.memory
      let m := { m with memory, core := { m.core with pc := choice.target, choices := [] } }
      match signal with
      | .pause => some (.ok .suspended, { m with status := .suspended })
      | .proceed => ({ m with status := .running } : Machine σ).proceed fuel

end Machine
end Dialogue
