import Dialogue.Machine.Basic

/-!
Stretches of a run. A path is a number of steps after each of which the machine goes on, taken at
addresses of a given kind, with everything that was asked of the host on the way. A machine has only
one path of each length, so what it comes to from a given state is determined.
-/
namespace Dialogue

def Program.Holds (p : Program) (start : Nat) (code : List Instruction) : Prop :=
  ∀ k, k < code.length → p.code[start + k]? = code[k]?

namespace Program
variable {p : Program} {start : Nat} {front back : List Instruction} {i : Instruction}

theorem Holds.left (holds : p.Holds start (front ++ back)) : p.Holds start front := by
  intro k inside
  have := holds k (by simp only [List.length_append]; omega)
  rwa [List.getElem?_append_left inside] at this

theorem Holds.right (holds : p.Holds start (front ++ back)) :
    p.Holds (start + front.length) back := by
  intro k inside
  have := holds (front.length + k) (by simp only [List.length_append]; omega)
  rw [List.getElem?_append_right (by omega), Nat.add_sub_cancel_left] at this
  rwa [Nat.add_assoc]

theorem Holds.head (holds : p.Holds start (i :: back)) : p.code[start]? = some i :=
  holds 0 (by simp)

theorem Holds.tail (holds : p.Holds start (i :: back)) : p.Holds (start + 1) back := by
  have split : p.Holds start ([i] ++ back) := holds
  exact split.right

theorem holds_drop (first start : Nat) (code : List Instruction) :
    (⟨first, code⟩ : Program).Holds start (code.drop start) :=
  fun _ _ => List.getElem?_drop.symm

end Program

namespace Machine
variable {σ : Type} {m m' m'' : Machine σ} {allowed : Nat → Prop} {stop n k : Nat}

/-- A request, and what could be seen of the machine when it was put. -/
structure Event where
  view : View
  request : Request
deriving DecidableEq, Repr

def effect? (m : Machine σ) : Option Effect :=
  m.program.code[m.core.pc]?.map fun i =>
    ({ m.core with pc := m.core.pc + 1 } : Core).execute m.natives.signatures i

/-- What the instruction at hand asks of the host or of a native function. -/
def events (m : Machine σ) : List Event :=
  match m.effect? with
  | none | some (.error _, _) | some (.ok .nothing, _) => []
  | some (.ok request, c) => [⟨c.view, request⟩]

inductive Path (allowed : Nat → Prop) : Nat → Machine σ → List Event → Machine σ → Prop where
  | stay (m : Machine σ) : Path allowed 0 m [] m
  | step {n : Nat} {m m' m'' : Machine σ} {es : List Event} (inside : allowed m.core.pc)
      (first : m.step = (.ok .proceeded, m')) (rest : Path allowed n m' es m'') :
      Path allowed (n + 1) m (m.events ++ es) m''

/-- The machine comes to the address `stop` for the first time as `m'`. -/
def Reaches (stop : Nat) (m : Machine σ) (es : List Event) (m' : Machine σ) : Prop :=
  m'.core.pc = stop ∧ ∃ n, Path (· ≠ stop) n m es m'

/-- The machine fails before it comes to the address `stop`; `m'` is what is left of it. -/
def Fails (stop : Nat) (m : Machine σ) (es : List Event) (t : Trace) (m' : Machine σ) : Prop :=
  ∃ n before earlier, Path (· ≠ stop) n m earlier before ∧ before.core.pc ≠ stop ∧
    before.step = (.error t, m') ∧ es = earlier ++ before.events

/-- The machine goes on for ever and never comes to the address `stop`. -/
def RunsOn (stop : Nat) (m : Machine σ) : Prop :=
  ∀ n, ∃ es m', Path (· ≠ stop) n m es m'

theorem Path.one (inside : allowed m.core.pc) (first : m.step = (.ok .proceeded, m')) :
    Path allowed 1 m m.events m' := by
  have := Path.step inside first (.stay m')
  rwa [List.append_nil] at this

theorem Path.trans {es fs : List Event} (first : Path allowed n m es m')
    (second : Path allowed k m' fs m'') : Path allowed (n + k) m (es ++ fs) m'' := by
  induction first with
  | stay => rwa [Nat.zero_add]
  | step inside first _ ih =>
    rw [Nat.add_right_comm, List.append_assoc]
    exact .step inside first (ih second)

theorem Path.mono {wider : Nat → Prop} {es : List Event} (weaken : ∀ a, allowed a → wider a)
    (path : Path allowed n m es m') : Path wider n m es m' := by
  induction path with
  | stay => exact .stay _
  | step inside first _ ih => exact .step (weaken _ inside) first ih

theorem Path.extends {other : Nat → Prop} {es fs : List Event} (short : Path allowed n m es m')
    (long : Path other (n + k) m fs m'') : ∃ rest, fs = es ++ rest ∧ Path other k m' rest m'' := by
  induction short generalizing fs with
  | stay => exact ⟨fs, rfl, by rwa [Nat.zero_add] at long⟩
  | @step n m m' _ _ inside first _ ih =>
    rw [Nat.add_right_comm] at long
    cases long with
    | step _ second rest =>
      cases first.symm.trans second
      obtain ⟨more, rfl, path⟩ := ih rest
      exact ⟨more, by rw [List.append_assoc], path⟩

theorem Path.stays {es : List Event} (path : Path allowed 0 m es m') : es = [] ∧ m' = m := by
  cases path
  exact ⟨rfl, rfl⟩

theorem Path.take {es : List Event} (path : Path allowed (n + k) m es m') :
    ∃ es m', Path allowed n m es m' := by
  induction n generalizing m es with
  | zero => exact ⟨_, _, .stay m⟩
  | succ n ih =>
    rw [Nat.add_right_comm] at path
    cases path with
    | step inside first rest =>
      obtain ⟨_, _, shorter⟩ := ih rest
      exact ⟨_, _, .step inside first shorter⟩

def Blocked (allowed : Nat → Prop) (m : Machine σ) : Prop :=
  ∀ next, allowed m.core.pc → m.step ≠ (.ok .proceeded, next)

theorem Path.length_le {es fs : List Event} (path : Path allowed n m es m')
    (blocked : m'.Blocked allowed) (long : Path allowed k m fs m'') : k ≤ n := by
  by_cases longer : k ≤ n
  · exact longer
  · obtain ⟨d, rfl⟩ : ∃ d, k = n + (d + 1) := ⟨k - n - 1, by omega⟩
    obtain ⟨rest, _, beyond⟩ := path.extends long
    cases beyond with
    | step inside first _ => exact (blocked _ inside first).elim

theorem Path.unique {es fs : List Event} (path : Path allowed n m es m')
    (blocked : m'.Blocked allowed) (other : Path allowed k m fs m'')
    (blocked' : m''.Blocked allowed) : fs = es ∧ m'' = m' := by
  have := path.length_le blocked other
  have := other.length_le blocked' path
  rw [show k = n + 0 by omega] at other
  obtain ⟨rest, rfl, nothing⟩ := path.extends other
  obtain ⟨rfl, rfl⟩ := nothing.stays
  exact ⟨List.append_nil es, rfl⟩

theorem blocked_at (arrived : m.core.pc = stop) : m.Blocked (· ≠ stop) :=
  fun _ inside _ => inside arrived

theorem blocked_of_error {t : Trace} (failed : m.step = (.error t, m')) : m.Blocked allowed :=
  fun _ _ first => by cases failed.symm.trans first

theorem Reaches.unique {es fs : List Event} (first : Reaches stop m es m')
    (second : Reaches stop m fs m'') : fs = es ∧ m'' = m' := by
  obtain ⟨arrived, _, path⟩ := first
  obtain ⟨arrived', _, path'⟩ := second
  exact path.unique (blocked_at arrived) path' (blocked_at arrived')

theorem Reaches.not_fails {es fs : List Event} {t : Trace} (reaches : Reaches stop m es m') :
    ¬ Fails stop m fs t m'' := by
  rintro ⟨_, before, _, path', outside, failed, _⟩
  obtain ⟨arrived, _, path⟩ := reaches
  obtain ⟨_, rfl⟩ := path.unique (blocked_at arrived) path' (blocked_of_error failed)
  exact outside arrived

theorem Fails.unique {es fs : List Event} {t u : Trace} (first : Fails stop m es t m')
    (second : Fails stop m fs u m'') : fs = es ∧ u = t ∧ m'' = m' := by
  obtain ⟨_, before, _, path, _, failed, rfl⟩ := first
  obtain ⟨_, before', _, path', _, failed', rfl⟩ := second
  obtain ⟨rfl, rfl⟩ := path.unique (blocked_of_error failed) path' (blocked_of_error failed')
  cases failed.symm.trans failed'
  exact ⟨rfl, rfl, rfl⟩

theorem Path.not_runsOn {es : List Event} (path : Path (· ≠ stop) n m es m')
    (blocked : m'.Blocked (· ≠ stop)) : ¬ RunsOn stop m := by
  intro on
  obtain ⟨_, _, long⟩ := on (n + 1)
  have := path.length_le blocked long
  omega

theorem Reaches.not_runsOn {es : List Event} (reaches : Reaches stop m es m') :
    ¬ RunsOn stop m := by
  obtain ⟨arrived, _, path⟩ := reaches
  exact path.not_runsOn (blocked_at arrived)

theorem Fails.not_runsOn {es : List Event} {t : Trace} (fails : Fails stop m es t m') :
    ¬ RunsOn stop m := by
  obtain ⟨_, before, _, path, _, failed, _⟩ := fails
  exact path.not_runsOn (blocked_of_error failed)

section
variable {c : Core}

theorem effect?_of_code {i : Instruction} (here : m.program.code[m.core.pc]? = some i) :
    m.effect? = some
      (({ m.core with pc := m.core.pc + 1 } : Core).execute m.natives.signatures i) := by
  simp [effect?, here]

theorem code_of_effect? {e : Effect} (effect : m.effect? = some e) :
    ∃ i, m.program.code[m.core.pc]? = some i ∧
      ({ m.core with pc := m.core.pc + 1 } : Core).execute m.natives.signatures i = e := by
  obtain ⟨i, here, run⟩ := Option.map_eq_some_iff.mp effect
  exact ⟨i, here, run⟩

/-! The ways in which a step goes. -/

section
variable {i : Instruction} {f : Fault} {request : Request} {outcome : Outcome} {memory : σ}

theorem step_outside (running : m.status = .running)
    (outside : m.program.code[m.core.pc]? = none) :
    m.step =
      (.error { fault := .outOfBounds m.core.pc m.program.code.length, address? := some m.core.pc },
        { m with status := .faulted }) := by
  simp [step, running, outside, fail]

theorem step_fails (running : m.status = .running) (here : m.program.code[m.core.pc]? = some i)
    (executed : ({ m.core with pc := m.core.pc + 1 } : Core).execute m.natives.signatures i =
      (.error f, c)) :
    m.step = (.error ⟨f, some m.core.pc, some i⟩, { m with core := c, status := .faulted }) := by
  simp [step, running, here, executed, fail]

theorem step_refused (running : m.status = .running) (here : m.program.code[m.core.pc]? = some i)
    (executed : ({ m.core with pc := m.core.pc + 1 } : Core).execute m.natives.signatures i =
      (.ok request, c))
    (answer : ({ m with core := c } : Machine σ).ask request = (.error f, memory)) :
    m.step = (.error ⟨f, some m.core.pc, some i⟩,
      { m with core := c, memory := memory, status := .faulted }) := by
  rw [running] at answer
  simp [step, running, here, executed, answer, fail]

theorem step_answered (running : m.status = .running) (here : m.program.code[m.core.pc]? = some i)
    (executed : ({ m.core with pc := m.core.pc + 1 } : Core).execute m.natives.signatures i =
      (.ok request, c))
    (answer : ({ m with core := c } : Machine σ).ask request = (.ok outcome, memory)) :
    m.step = (.ok outcome, { m with core := c, memory := memory, status := outcome.status }) := by
  rw [running] at answer
  simp [step, running, here, executed, answer]

theorem step_of_request (running : m.status = .running) (effect : m.effect? = some (.ok request, c))
    (answer : ({ m with core := c } : Machine σ).ask request = (.ok outcome, memory)) :
    m.step = (.ok outcome, { m with core := c, memory := memory, status := outcome.status }) := by
  obtain ⟨i, here, executed⟩ := code_of_effect? effect
  exact step_answered running here executed answer

theorem step_of_refusal (running : m.status = .running) (effect : m.effect? = some (.ok request, c))
    (answer : ({ m with core := c } : Machine σ).ask request = (.error f, memory)) :
    ∃ i, m.step = (.error ⟨f, some m.core.pc, some i⟩,
      { m with core := c, memory := memory, status := .faulted }) := by
  obtain ⟨i, here, executed⟩ := code_of_effect? effect
  exact ⟨i, step_refused running here executed answer⟩

theorem step_of_fault (running : m.status = .running) (effect : m.effect? = some (.error f, c)) :
    ∃ i, m.step = (.error ⟨f, some m.core.pc, some i⟩,
      { m with core := c, status := .faulted }) := by
  obtain ⟨i, here, executed⟩ := code_of_effect? effect
  exact ⟨i, step_fails running here executed⟩

end

theorem events_of_nothing (effect : m.effect? = some (.ok .nothing, c)) : m.events = [] := by
  simp [events, effect]

theorem events_of_fault {f : Fault} (effect : m.effect? = some (.error f, c)) : m.events = [] := by
  simp [events, effect]

theorem events_of_request {r : Request} (effect : m.effect? = some (.ok r, c))
    (asks : r ≠ .nothing) : m.events = [⟨c.view, r⟩] := by
  cases r <;> simp_all [events]

end

/-- A host that remembers nothing and lets the machine go on. -/
def Host.patient : Host Unit where
  enter _ _ _ := (.proceed, ())
  leave _ _ _ := (.proceed, ())
  line _ _ _ := (.proceed, ())
  menu _ _ _ := ()
  finish _ _ := ()

end Machine
end Dialogue
