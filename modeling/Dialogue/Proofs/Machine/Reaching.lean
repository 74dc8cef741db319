import Dialogue.Proofs.Machine.Path

/-!
What a machine can come to. Its host starts, runs, steps, resumes, answers and resets it in any
order. Whatever is asked of it, the machine first changes as a whole and then takes steps; a machine
is reached in the middle of a run as well as between two operations, and a run that never ends has
all its states among those reached.
-/
namespace Dialogue.Machine
variable {σ : Type} {origin m m' : Machine σ} {log : List Event} {fuel : Nat}

inductive Operation where
  | start
  | run
  | step
  | resume
  | choose (index : Nat)
  | reset
deriving DecidableEq, Repr

inductive Reply where
  | nothing
  | status (s : Status)
  | outcome (o : Outcome)
deriving DecidableEq, Repr

/-- An operation that executes at most `fuel` instructions; nothing comes of one that needs more. -/
def operate (fuel : Nat) (m : Machine σ) : Operation → Option (Except Trace Reply × Machine σ)
  | .start => some (m.start.1.map fun _ => .nothing, m.start.2)
  | .run => (m.run fuel).map fun r => (r.1.map .status, r.2)
  | .step => some (m.step.1.map .outcome, m.step.2)
  | .resume => (m.resume fuel).map fun r => (r.1.map .status, r.2)
  | .choose index => (m.choose fuel index).map fun r => (r.1.map .status, r.2)
  | .reset => some (.ok .nothing, m.reset)

def answered (m : Machine σ) (choice : Choice) : Machine σ :=
  let (signal, memory) := m.host.leave m.core.view (m.core.node?.getD "") m.memory
  { m with
    core := { m.core with pc := choice.target, choices := [] }
    memory
    status := signal.outcome.status }

def farewell (m : Machine σ) : Event :=
  ⟨m.core.view, .leave (m.core.node?.getD "")⟩

/-- What operations on `origin` come to, instruction by instruction, with everything that was asked
since the machine was last started. -/
inductive Reached (origin : Machine σ) : List Event → Machine σ → Prop where
  | new : Reached origin [] origin
  | start {log : List Event} {m m' : Machine σ} (before : Reached origin log m)
      (begun : m.start = (.ok (), m')) : Reached origin [] m'
  | step {log : List Event} {m : Machine σ} (before : Reached origin log m)
      (running : m.status = .running) : Reached origin (log ++ m.events) m.step.2
  | wake {log : List Event} {m : Machine σ} (before : Reached origin log m)
      (suspended : m.status = .suspended) : Reached origin log { m with status := .running }
  | answer {log : List Event} {m : Machine σ} {choice : Choice} (before : Reached origin log m)
      (waiting : m.status = .waiting) (offered : choice ∈ m.core.choices) :
      Reached origin (log ++ [m.farewell]) (m.answered choice)
  | refuse {log : List Event} {m : Machine σ} (before : Reached origin log m) :
      Reached origin log { m with status := .faulted }
  | reset {log : List Event} {m : Machine σ} (before : Reached origin log m) :
      Reached origin log m.reset

def Faults (origin : Machine σ) (t : Trace) (m' : Machine σ) : Prop :=
  ∃ log m, Reached origin log m ∧ m.status = .running ∧ m.step = (.error t, m')

def Trace.Refusal (t : Trace) : Prop :=
  (∃ action status, t.fault = .invalidTransition action status) ∨
    ∃ index count, t.fault = .choiceOutOfRange index count

/-- An operation has come to `m'`, and if it failed, by a refusal or in a step. -/
structure Arrives {α : Type} (origin : Machine σ) (r : Except Trace α) (m' : Machine σ) : Prop where
  reached : ∃ log, Reached origin log m'
  faults : ∀ t, r = .error t → t.Refusal ∨ Faults origin t m'

theorem Arrives.map {α β : Type} {r : Except Trace α} (arrives : Arrives origin r m') (f : α → β) :
    Arrives origin (r.map f) m' := by
  refine ⟨arrives.reached, fun t failed => arrives.faults t ?_⟩
  cases r with
  | ok => cases failed
  | error => cases failed; rfl

theorem Reached.arrives {α : Type} (reached : Reached origin log m) (a : α) :
    Arrives origin (.ok a) m :=
  ⟨⟨log, reached⟩, fun _ failed => by cases failed⟩

theorem Reached.refused {α : Type} {r : Except Trace α} {action : Action}
    (reached : Reached origin log m) (refused : m.refuse action = (r, m')) :
    Arrives origin r m' := by
  cases refused
  refine ⟨⟨log, reached.refuse⟩, fun t failed => ?_⟩
  cases failed
  exact Or.inl (Or.inl ⟨_, _, rfl⟩)

theorem start_of_stopped (stopped : m.status = .stopped) :
    m.start = (.ok (), { m with status := .running, core := Core.start m.program.start }) := by
  unfold start
  rw [if_neg (not_not_intro stopped)]

theorem start_ok (begun : m.start = (.ok (), m')) : m.status = .stopped ∧
    m' = { m with status := .running, core := Core.start m.program.start } := by
  by_cases stopped : m.status = .stopped
  · rw [start_of_stopped stopped] at begun
    exact ⟨stopped, (Prod.mk.inj begun).2.symm⟩
  · unfold start at begun
    rw [if_pos stopped] at begun
    cases begun

theorem step_fixed (m : Machine σ) : m.step.2.program = m.program ∧ m.step.2.host = m.host ∧
    m.step.2.natives = m.natives := by
  unfold step
  split
  · exact ⟨rfl, rfl, rfl⟩
  · dsimp only
    split
    · exact ⟨rfl, rfl, rfl⟩
    · split
      · exact ⟨rfl, rfl, rfl⟩
      · split <;> exact ⟨rfl, rfl, rfl⟩

theorem step_status (m : Machine σ) : m.step.2.status = match m.step.1 with
    | .ok o => o.status
    | .error _ => .faulted := by
  unfold step
  split
  · rfl
  · dsimp only
    split
    · rfl
    · split
      · rfl
      · split <;> rfl

theorem ask_shallow {r : Request} {f : Fault} {memory : σ} (answer : m.ask r = (.error f, memory)) :
    ∀ needed found, f ≠ .stackUnderflow needed found := by
  cases r with
  | call name arguments =>
    simp only [ask] at answer
    split at answer
    · cases answer; nofun
    · split at answer
      · cases answer; nofun
      · cases answer
  | _ => cases answer

/-- The ways in which a step can go: the instruction fails, its request does, or neither. -/
theorem step_cases (running : m.status = .running) {e : Effect} (effect : m.effect? = some e) :
    (∃ f i, e.1 = .error f ∧ m.step = (.error ⟨f, some m.core.pc, some i⟩,
      { m with core := e.2, status := .faulted })) ∨
    (∃ r f i memory, e.1 = .ok r ∧ ({ m with core := e.2 } : Machine σ).ask r = (.error f, memory) ∧
      m.step = (.error ⟨f, some m.core.pc, some i⟩,
        { m with core := e.2, memory := memory, status := .faulted })) ∨
    ∃ r o memory, e.1 = .ok r ∧ ({ m with core := e.2 } : Machine σ).ask r = (.ok o, memory) ∧
      m.step = (.ok o, { m with core := e.2, memory := memory, status := o.status }) := by
  obtain ⟨f | r, core⟩ := e
  · obtain ⟨i, step⟩ := step_of_fault running effect
    exact Or.inl ⟨f, i, rfl, step⟩
  · cases answer : ({ m with core := core } : Machine σ).ask r with
    | mk result memory =>
      cases result with
      | error f =>
        obtain ⟨i, step⟩ := step_of_refusal running effect answer
        exact Or.inr (Or.inl ⟨r, f, i, memory, rfl, answer, step⟩)
      | ok o =>
        exact Or.inr (Or.inr ⟨r, o, memory, rfl, answer,
          step_of_request running effect answer⟩)

theorem Reached.fixed (reached : Reached origin log m) :
    m.program = origin.program ∧ m.host = origin.host ∧ m.natives = origin.natives := by
  induction reached with
  | new => exact ⟨rfl, rfl, rfl⟩
  | start _ begun same =>
    rw [(start_ok begun).2]
    exact same
  | @step _ m _ _ same =>
    obtain ⟨program, host, natives⟩ := m.step_fixed
    rw [program, host, natives]
    exact same
  | wake _ _ same | answer _ _ _ same | refuse _ same | reset _ same => exact same

theorem choose_eq {index : Nat} {choice : Choice} (waiting : m.status = .waiting)
    (there : m.core.choices[index]? = some choice) :
    m.choose fuel index = (m.answered choice).proceed fuel := by
  unfold choose answered
  rw [if_neg (not_not_intro waiting), there]
  rcases m.host.leave m.core.view (m.core.node?.getD "") m.memory with ⟨_ | _, memory⟩
  · rfl
  · unfold proceed
    rfl

theorem Reached.stepped (reached : Reached origin log m) : Arrives origin m.step.1 m.step.2 := by
  by_cases running : m.status = .running
  · refine ⟨⟨_, reached.step running⟩, fun t failed => Or.inr ⟨log, m, reached, running, ?_⟩⟩
    rw [← failed]
  · have refused : m.step = m.refuse .step := by
      unfold Machine.step
      rw [if_pos running]
    rw [refused]
    exact reached.refused rfl

theorem Reached.proceeded (reached : Reached origin log m) {r : Except Trace Status}
    (ended : m.proceed fuel = some (r, m')) : Arrives origin r m' := by
  induction fuel generalizing log m with
  | zero =>
    unfold proceed at ended
    split at ended
    · cases ended
      exact reached.arrives _
    · cases ended
  | succ fuel ih =>
    unfold proceed at ended
    split at ended
    · cases ended
      exact reached.arrives _
    · rename_i running
      have next := reached.step (Decidable.not_not.mp running)
      dsimp only at ended
      cases stepped : m.step with
      | mk result after =>
        rw [stepped] at ended next
        cases result with
        | ok => exact ih next ended
        | error t =>
          cases ended
          have arrives := reached.stepped
          rw [stepped] at arrives
          exact arrives.map fun _ => m'.status

theorem Reached.started (reached : Reached origin log m) : Arrives origin m.start.1 m.start.2 := by
  cases begun : m.start with
  | mk result after =>
    cases result with
    | ok => exact (reached.start begun).arrives ()
    | error t =>
      unfold Machine.start at begun
      split at begun
      · exact reached.refused begun
      · cases begun

theorem Reached.ran (reached : Reached origin log m) {r : Except Trace Status}
    (ended : m.run fuel = some (r, m')) : Arrives origin r m' := by
  unfold Machine.run at ended
  cases begun : m.start with
  | mk result after =>
    rw [begun] at ended
    cases result with
    | ok => exact (reached.start begun).proceeded ended
    | error t =>
      cases ended
      have arrives := reached.started
      rw [begun] at arrives
      exact arrives.map fun _ => m'.status

theorem Reached.resumed (reached : Reached origin log m) {r : Except Trace Status}
    (ended : m.resume fuel = some (r, m')) : Arrives origin r m' := by
  unfold Machine.resume at ended
  split at ended
  · exact reached.refused (Option.some.inj ended)
  · rename_i suspended
    exact (reached.wake (Decidable.not_not.mp suspended)).proceeded ended

theorem Reached.chose (reached : Reached origin log m) {index : Nat} {r : Except Trace Status}
    (ended : m.choose fuel index = some (r, m')) : Arrives origin r m' := by
  by_cases waiting : m.status = .waiting
  · cases there : m.core.choices[index]? with
    | some choice =>
      rw [choose_eq waiting there] at ended
      exact (reached.answer waiting (List.mem_of_getElem? there)).proceeded ended
    | none =>
      unfold Machine.choose at ended
      rw [if_neg (not_not_intro waiting), there] at ended
      cases ended
      refine ⟨⟨log, reached⟩, fun t failed => ?_⟩
      cases failed
      exact Or.inl (Or.inr ⟨_, _, rfl⟩)
  · unfold Machine.choose at ended
    rw [if_pos waiting] at ended
    exact reached.refused (Option.some.inj ended)

/-- What comes of an operation is reached, and its fault is a refusal or the fault of a step. -/
theorem Reached.operated (reached : Reached origin log m) {op : Operation} {r : Except Trace Reply}
    (done : m.operate fuel op = some (r, m')) : Arrives origin r m' := by
  cases op with
  | start =>
    cases done
    exact reached.started.map _
  | step =>
    cases done
    exact reached.stepped.map _
  | reset =>
    cases done
    exact reached.reset.arrives _
  | run =>
    obtain ⟨⟨result, after⟩, ended, same⟩ := Option.map_eq_some_iff.mp done
    cases same
    exact (reached.ran ended).map _
  | resume =>
    obtain ⟨⟨result, after⟩, ended, same⟩ := Option.map_eq_some_iff.mp done
    cases same
    exact (reached.resumed ended).map _
  | choose index =>
    obtain ⟨⟨result, after⟩, ended, same⟩ := Option.map_eq_some_iff.mp done
    cases same
    exact (reached.chose ended).map _

end Dialogue.Machine
