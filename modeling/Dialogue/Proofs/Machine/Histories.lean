import Dialogue.Proofs.Machine.Bounds
import Dialogue.Proofs.Machine.Moving
import Dialogue.Proofs.Machine.Telling

/-!
What can be seen of machines without looking at addresses: of each instruction, of each operation,
and of operations one after the other. Nothing of it tells the machines of two aligned programs
apart. Two machines that correspond keep corresponding while they go on, and once they are halted
it does not matter where they are.
-/
namespace Dialogue.Machine

variable {σ : Type} {T : Nat → Nat → Prop}

/-- What can be seen of a machine, without the addresses in it. -/
structure Seen (σ : Type) where
  status : Status
  stack : List Value
  store : Variables
  node? : Option String
  choices : List String
  memory : σ

def seen (m : Machine σ) : Seen σ :=
  ⟨m.status, m.core.stack, m.core.store, m.core.node?, m.choices, m.memory⟩

/-- A fault with its instruction, but without any addresses. -/
def Trace.unplaced (t : Trace) : Trace :=
  { t with address? := t.address?.map fun _ => 0, instruction? := t.instruction?.map (·.pointed 0) }

/-- What each of the next `fuel` instructions asks, and what can be seen of the machine after it. -/
def watched : Nat → Machine σ → List (List Event × Seen σ)
  | 0, _ => []
  | fuel + 1, m =>
    if m.status = .running then (m.events, m.step.2.seen) :: watched fuel m.step.2 else []

/-- The same for an operation of at most `fuel` instructions; an answer to a menu comes before
them. -/
def watchedBy (fuel : Nat) (m : Machine σ) : Operation → List (List Event × Seen σ)
  | .start | .reset => []
  | .run => m.start.2.watched fuel
  | .step => m.watched 1
  | .resume =>
    if m.status = .suspended then ({ m with status := .running } : Machine σ).watched fuel else []
  | .choose index =>
    match m.core.choices[index]? with
    | some choice =>
      if m.status = .waiting then
        ([m.farewell], (m.answered choice).seen) :: (m.answered choice).watched fuel
      else []
    | none => []

/-- What can be seen of an operation: its course, and how it ends if it does so within its bound. -/
structure Episode (σ : Type) where
  course : List (List Event × Seen σ)
  ended? : Option (Except Trace Reply × Seen σ)

def episode (fuel : Nat) (m : Machine σ) (op : Operation) : Episode σ :=
  ⟨m.watchedBy fuel op, (m.operate fuel op).map fun r => (r.1.mapError Trace.unplaced, r.2.seen)⟩

/-- What can be seen of operations done one after the other, each with a bound of its own. The
last one seen is the first that does not end within its bound. -/
def history : List (Nat × Operation) → Machine σ → List (Episode σ)
  | [], _ => []
  | (fuel, op) :: ops, m => m.episode fuel op ::
    match m.operate fuel op with
    | some r => history ops r.2
    | none => []

/-- Machines that differ in addresses only. Where a machine is matters while it may still go on
from there. -/
structure Moved (T : Nat → Nat → Prop) (m m' : Machine σ) : Prop where
  program : m.program.Aligned T m'.program
  host : m'.host = m.host
  natives : m'.natives = m.natives
  status : m'.status = m.status
  core : m.core.Moved (fun a a' => m.status = .running ∨ m.status = .suspended → T a a') T m'.core
  memory : m'.memory = m.memory

variable {m m' : Machine σ} {fuel : Nat}

theorem Moved.seen (moved : Moved T m m') : m'.seen = m.seen := by
  have texts : m'.choices = m.choices := moved.core.texts
  rw [Machine.seen, Machine.seen, moved.status, moved.core.stack, moved.core.store, moved.core.node,
    texts, moved.memory]

theorem ask_moved (moved : Moved T m m') {c c' : Core} (view : c'.view = c.view) (r : Request) :
    ({ m' with core := c' } : Machine σ).ask r = ({ m with core := c } : Machine σ).ask r := by
  cases r <;> simp only [ask, moved.host, moved.natives, moved.memory, view]

/-- The instruction at hand does the same, and unless it ends the dialogue what comes next
corresponds. -/
theorem executed_moved (moved : Moved T m m') (running : m.status = .running) :
    ∃ i i', m.program.code[m.core.pc]? = some i ∧ m'.program.code[m'.core.pc]? = some i' ∧
      i.Moved T i' ∧
      Core.Same (fun a a' => i ≠ .endDialogue → T a a') T
        (({ m.core with pc := m.core.pc + 1 } : Core).execute m.natives.signatures i)
        (({ m'.core with pc := m'.core.pc + 1 } : Core).execute m'.natives.signatures i') := by
  have place := moved.core.pc (Or.inl running)
  obtain ⟨i, i', here, here', same⟩ := moved.program.instruction _ _ place
  refine ⟨i, i', here, here', same, ?_⟩
  rw [moved.natives]
  have next : i ≠ .endDialogue → T (m.core.pc + 1) (m'.core.pc + 1) := by
    intro goes
    refine moved.program.next _ _ place ?_
    rw [here]
    exact fun ends => goes (Option.some.inj ends)
  have core : Core.Moved (fun a a' => i ≠ .endDialogue → T a a') T
      { m.core with pc := m.core.pc + 1 }
      { m'.core with pc := m'.core.pc + 1 } := { moved.core with pc := next }
  exact Core.same_execute (fun _ _ there _ => there) core same _

theorem events_moved (moved : Moved T m m') (running : m.status = .running) :
    m'.events = m.events := by
  obtain ⟨i, i', here, here', _, same⟩ := executed_moved moved running
  rw [events, events, effect?_of_code here, effect?_of_code here']
  revert same
  generalize ({ m.core with pc := m.core.pc + 1 } : Core).execute m.natives.signatures i = e
  generalize ({ m'.core with pc := m'.core.pc + 1 } : Core).execute m'.natives.signatures i' = e'
  rintro ⟨result, core⟩
  obtain ⟨r, c⟩ := e
  obtain ⟨r', c'⟩ := e'
  cases result
  rcases r with _ | request
  · rfl
  · have view : c'.view = c.view := core.view
    cases request <;> simp only [view]

theorem moved_halted {P : Nat → Nat → Prop} (moved : Moved T m m') {c c' : Core}
    (core : c.Moved P T c') {w w' : σ} (memory : w' = w) {s : Status}
    (halted : s ≠ .running ∧ s ≠ .suspended) :
    Moved T { m with core := c, memory := w, status := s }
      { m' with core := c', memory := w', status := s } := by
  refine ⟨moved.program, moved.host, moved.natives, rfl, core.weaken ?_, memory⟩
  rintro _ (running | suspended)
  · exact absurd running halted.1
  · exact absurd suspended halted.2

theorem step_moved (moved : Moved T m m') (running : m.status = .running) :
    m'.step.1.mapError Trace.unplaced = m.step.1.mapError Trace.unplaced ∧
    Moved T m.step.2 m'.step.2 := by
  have running' := moved.status.trans running
  obtain ⟨i, i', here, here', same, effect⟩ := executed_moved moved running
  have unplaced : ∀ f, Trace.unplaced ⟨f, some m'.core.pc, some i'⟩ =
      Trace.unplaced ⟨f, some m.core.pc, some i⟩ := by
    intro f
    simp only [Trace.unplaced, Option.map_some, same.pointed_eq]
  -- The end of a dialogue has no successor that corresponds, but the machine stops there.
  have ended : i = .endDialogue → m.step.2.status = .stopped := by
    rintro rfl
    exact stopped_of_end running here
  rcases executed :
    ({ m.core with pc := m.core.pc + 1 } : Core).execute m.natives.signatures i with ⟨r, c⟩
  rcases executed' :
    ({ m'.core with pc := m'.core.pc + 1 } : Core).execute m'.natives.signatures i' with ⟨r', c'⟩
  rw [executed, executed'] at effect
  obtain ⟨result, core⟩ := effect
  cases result
  rcases r with f | request
  · rw [step_fails running here executed, step_fails running' here' executed']
    exact ⟨congrArg Except.error (unplaced f), moved_halted moved core moved.memory ⟨nofun, nofun⟩⟩
  · have asked : ({ m' with core := c' } : Machine σ).ask request =
        ({ m with core := c } : Machine σ).ask request :=
      ask_moved moved core.view request
    rcases answer : ({ m with core := c } : Machine σ).ask request with ⟨f | o, w⟩
    · rw [answer] at asked
      rw [step_refused running here executed answer, step_refused running' here' executed' asked]
      exact ⟨congrArg Except.error (unplaced f), moved_halted moved core rfl ⟨nofun, nofun⟩⟩
    · rw [answer] at asked
      rw [step_answered running here executed answer] at ended ⊢
      rw [step_answered running' here' executed' asked]
      refine ⟨rfl, moved.program, moved.host, moved.natives, rfl,
        core.weaken fun there goes => there ?_, rfl⟩
      intro last
      have stopped : o.status = .stopped := ended last
      change o.status = .running ∨ o.status = .suspended at goes
      rw [stopped] at goes
      rcases goes with goes | goes <;> cases goes

/-! Operations. -/

def Ended {α : Type} (T : Nat → Nat → Prop) : (r r' : Option (Except Trace α × Machine σ)) → Prop :=
  Option.Rel fun r r' => r'.1.mapError Trace.unplaced = r.1.mapError Trace.unplaced ∧
    Moved T r.2 r'.2

theorem Ended.either {α : Type} {r r' : Option (Except Trace α × Machine σ)}
    (ended : Ended T r r') :
    (r = none ∧ r' = none) ∨ ∃ x x', r = some x ∧ r' = some x' ∧
      x'.1.mapError Trace.unplaced = x.1.mapError Trace.unplaced ∧ Moved T x.2 x'.2 := by
  cases ended with
  | none => exact Or.inl ⟨rfl, rfl⟩
  | some same => exact Or.inr ⟨_, _, rfl, rfl, same⟩

theorem Ended.map {α β : Type} {r r' : Option (Except Trace α × Machine σ)} (ended : Ended T r r')
    (f : α → β) :
    Ended T (r.map fun x => (x.1.map f, x.2)) (r'.map fun x => (x.1.map f, x.2)) := by
  have commutes : ∀ x : Except Trace α, (x.map f).mapError Trace.unplaced =
      (x.mapError Trace.unplaced).map f := by
    intro x
    cases x <;> rfl
  cases ended with
  | none => exact .none
  | some same =>
    refine .some ⟨?_, same.2⟩
    rw [commutes, commutes, same.1]

theorem refuse_moved {α : Type} (moved : Moved T m m') (action : Action) :
    Ended T (some (m.refuse action : Except Trace α × Machine σ)) (some (m'.refuse action)) := by
  have fault : (Fault.invalidTransition action m'.status) = .invalidTransition action m.status := by
    rw [moved.status]
  refine .some ⟨?_, moved_halted moved moved.core moved.memory ⟨nofun, nofun⟩⟩
  show Except.error (Trace.unplaced { fault := .invalidTransition action m'.status }) = _
  rw [fault]
  rfl

theorem start_moved (moved : Moved T m m') : Ended T (some m.start) (some m'.start) := by
  by_cases stopped : m.status = .stopped
  · rw [start_of_stopped stopped, start_of_stopped (moved.status.trans stopped)]
    have fresh : (Core.start m.program.start).Moved (fun a a' => Status.running = .running ∨
        Status.running = .suspended → T a a') T (Core.start m'.program.start) :=
      ⟨fun _ => moved.program.starts, rfl, rfl, rfl, .nil⟩
    exact .some ⟨rfl, moved.program, moved.host, moved.natives, rfl, fresh, moved.memory⟩
  · have stopped' : m'.status ≠ .stopped := by rwa [moved.status]
    rw [start, start, if_pos stopped, if_pos stopped']
    exact refuse_moved moved .run

theorem proceed_moved (moved : Moved T m m') (fuel : Nat) :
    Ended T (m.proceed fuel) (m'.proceed fuel) := by
  induction fuel generalizing m m' with
  | zero =>
    by_cases running : m.status = .running
    · rw [proceed_zero running, proceed_zero (moved.status.trans running)]
      exact .none
    · rw [proceed_halted running, proceed_halted (by rwa [moved.status]), moved.status]
      exact .some ⟨rfl, moved⟩
  | succ fuel ih =>
    by_cases running : m.status = .running
    · have running' := moved.status.trans running
      obtain ⟨replies, next⟩ := step_moved moved running
      rcases stepped : m.step with ⟨t | o, n⟩ <;> rcases stepped' : m'.step with ⟨t' | o', n'⟩ <;>
        rw [stepped, stepped'] at replies next
      · rw [proceed_of_error running stepped, proceed_of_error running' stepped']
        exact .some ⟨congrArg Except.error (Except.error.inj replies), next⟩
      · cases replies
      · cases replies
      · rw [proceed_of_ok running stepped, proceed_of_ok running' stepped']
        exact ih next
    · rw [proceed_halted running, proceed_halted (by rwa [moved.status]), moved.status]
      exact .some ⟨rfl, moved⟩

theorem awake_moved (moved : Moved T m m') (suspended : m.status = .suspended) :
    Moved T { m with status := .running } { m' with status := .running } := by
  refine ⟨moved.program, moved.host, moved.natives, rfl, moved.core.weaken ?_, moved.memory⟩
  exact fun there _ => there (Or.inr suspended)

theorem answered_moved (moved : Moved T m m') (index : Nat) :
    (m.core.choices[index]? = none ∧ m'.core.choices[index]? = none) ∨
    ∃ choice choice', m.core.choices[index]? = some choice ∧
      m'.core.choices[index]? = some choice' ∧
      Moved T (m.answered choice) (m'.answered choice') := by
  have length := moved.core.choices.length_eq
  by_cases inside : index < m.core.choices.length
  · have inside' : index < m'.core.choices.length := by omega
    refine Or.inr ⟨_, _, List.getElem?_eq_getElem inside, List.getElem?_eq_getElem inside', ?_⟩
    have same := moved.core.choices.get inside inside'
    have told : m'.host.leave m'.core.view (m'.core.node?.getD "") m'.memory =
        m.host.leave m.core.view (m.core.node?.getD "") m.memory := by
      rw [moved.host, moved.core.view, moved.core.node, moved.memory]
    unfold answered
    rw [told]
    refine ⟨moved.program, moved.host, moved.natives, rfl, ?_, rfl⟩
    exact ⟨fun _ => same.2, moved.core.stack, moved.core.store, moved.core.node, .nil⟩
  · exact Or.inl ⟨List.getElem?_eq_none (by omega), List.getElem?_eq_none (by omega)⟩

theorem farewell_moved (moved : Moved T m m') : m'.farewell = m.farewell := by
  rw [farewell, farewell, moved.core.view, moved.core.node]

theorem operate_moved (moved : Moved T m m') (fuel : Nat) (op : Operation) :
    Ended T (m.operate fuel op) (m'.operate fuel op) := by
  have status := moved.status
  cases op with
  | start => exact (start_moved moved).map fun _ => Reply.nothing
  | run =>
    have begun := start_moved moved
    by_cases stopped : m.status = .stopped
    · have start := start_of_stopped stopped
      have start' := start_of_stopped (status.trans stopped)
      rw [start, start'] at begun
      rw [operate_run start, operate_run start']
      cases begun with
      | some same => exact (proceed_moved same.2 fuel).map Reply.status
    · have stopped' : m'.status ≠ .stopped := by rwa [status]
      simp only [operate, run, start, if_pos stopped, if_pos stopped']
      exact refuse_moved moved .run
  | step =>
    by_cases running : m.status = .running
    · have same : Ended T (some m.step) (some m'.step) := .some (step_moved moved running)
      exact same.map Reply.outcome
    · have running' : m'.status ≠ .running := by rwa [status]
      simp only [operate, step, if_pos running, if_pos running']
      exact refuse_moved moved .step
  | resume =>
    by_cases suspended : m.status = .suspended
    · rw [operate_resume suspended, operate_resume (status.trans suspended)]
      exact (proceed_moved (awake_moved moved suspended) fuel).map Reply.status
    · have suspended' : m'.status ≠ .suspended := by rwa [status]
      simp only [operate, resume, if_pos suspended, if_pos suspended']
      exact refuse_moved moved .resume
  | choose index =>
    by_cases waiting : m.status = .waiting
    · have waiting' := status.trans waiting
      rcases answered_moved moved index
        with ⟨missing, missing'⟩ | ⟨choice, choice', there, there', next⟩
      · rw [operate_choose_missing waiting missing, operate_choose_missing waiting' missing',
          moved.core.choices.length_eq]
        exact .some ⟨rfl, moved⟩
      · rw [operate_choose waiting there, operate_choose waiting' there']
        exact (proceed_moved next fuel).map Reply.status
    · have waiting' : m'.status ≠ .waiting := by rwa [status]
      simp only [operate, choose, if_pos waiting, if_pos waiting']
      exact refuse_moved moved .choose
  | reset => exact .some ⟨rfl, moved_halted moved moved.core moved.memory ⟨by decide, by decide⟩⟩

theorem watched_moved (moved : Moved T m m') (fuel : Nat) : m'.watched fuel = m.watched fuel := by
  induction fuel generalizing m m' with
  | zero => rfl
  | succ fuel ih =>
    rw [watched, watched, moved.status]
    by_cases running : m.status = .running
    · have next := (step_moved moved running).2
      rw [if_pos running, if_pos running, events_moved moved running, next.seen, ih next]
    · rw [if_neg running, if_neg running]

theorem watchedBy_moved (moved : Moved T m m') (fuel : Nat) (op : Operation) :
    m'.watchedBy fuel op = m.watchedBy fuel op := by
  cases op with
  | start | reset => rfl
  | run =>
    cases start_moved moved with
    | some same => exact watched_moved same.2 fuel
  | step => exact watched_moved moved 1
  | resume =>
    rw [watchedBy, watchedBy, moved.status]
    by_cases suspended : m.status = .suspended
    · rw [if_pos suspended, if_pos suspended, watched_moved (awake_moved moved suspended)]
    · rw [if_neg suspended, if_neg suspended]
  | choose index =>
    rw [watchedBy, watchedBy, moved.status, farewell_moved moved]
    rcases answered_moved moved index
      with ⟨missing, missing'⟩ | ⟨choice, choice', there, there', next⟩
    · rw [missing, missing']
    · rw [there, there']
      dsimp only
      rw [next.seen, watched_moved next]

theorem episode_moved (moved : Moved T m m') (fuel : Nat) (op : Operation) :
    m'.episode fuel op = m.episode fuel op := by
  rw [episode, episode, watchedBy_moved moved]
  rcases (operate_moved moved fuel op).either
    with ⟨none, none'⟩ | ⟨r, r', ended, ended', replies, next⟩
  · rw [none, none']
  · rw [ended, ended', Option.map_some, Option.map_some, replies, next.seen]

theorem history_moved (moved : Moved T m m') (ops : List (Nat × Operation)) :
    history ops m' = history ops m := by
  induction ops generalizing m m' with
  | nil => rfl
  | cons op ops ih =>
    obtain ⟨fuel, op⟩ := op
    rw [history, history, episode_moved moved]
    rcases (operate_moved moved fuel op).either with ⟨none, none'⟩ | ⟨r, r', ended, ended', _, next⟩
    · rw [none, none']
    · rw [ended, ended']
      exact congrArg _ (ih next)

/-- Whatever is done with the machines of two programs that are aligned, the same is seen of
them. -/
theorem history_of_aligned {p p' : Program} (aligned : p.Aligned T p') (host : Host σ)
    (natives : Natives σ) (memory : σ) (ops : List (Nat × Operation)) :
    history ops (new p' host natives memory) = history ops (new p host natives memory) := by
  have moved : Moved T (new p host natives memory) (new p' host natives memory) := by
    refine ⟨aligned, rfl, rfl, rfl, ⟨?_, rfl, rfl, rfl, .nil⟩, rfl⟩
    rintro (running | suspended)
    · cases running
    · cases suspended
  exact history_moved moved ops

end Dialogue.Machine
