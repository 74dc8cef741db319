import Dialogue.Proofs.Meaning.Expression
import Dialogue.Proofs.Meaning.Statement

/-!
How a machine follows a course. What was asked of the host is what the course says, and where the
course has no end within its bound the machine takes at least as many steps. One thing after the
other, a choice and a loop are followed as the interpreter goes through them.
-/
namespace Dialogue

/-- What the host sees of the machine while a statement runs on the given stack. -/
def Machine.world {σ : Type} (m : Machine σ) (stack : List Value) : Meaning.World σ :=
  ⟨m.host, m.natives, m.core.node?, stack.length⟩

namespace Meaning
open Machine (Path Event Fault)

variable {σ α : Type}

/-- From `x` the machine comes to the goal of the state in which the course ends, or fails as the
course does; if there is no course it takes `least` steps. -/
def Runs (allowed : Nat → Prop) (least : Nat) (m : Machine σ) (goal : State σ → Machine σ)
    (x : Machine σ) : Option (Course σ) → Prop
  | none => ∃ n es y, least ≤ n ∧ Path allowed n x es y
  | some ⟨es, .done st⟩ => ∃ n, Path allowed n x es (goal st)
  | some ⟨es, .failed fault st⟩ =>
    ∃ n earlier y pc stack t, Path allowed n x earlier y ∧ allowed y.core.pc ∧
      es = earlier ++ y.events ∧
      y.step = (.error t, { m.stand pc stack st with status := .faulted }) ∧ t.fault = fault
  | some ⟨_, .meaningless⟩ => False

variable {allowed wider : Nat → Prop} {least n : Nat} {m x y : Machine σ} {st : State σ}
variable {goal goal' : State σ → Machine σ} {r : Option (Course σ)} {es : List Event}

theorem Runs.mono (weaken : ∀ a, allowed a → wider a) (runs : Runs allowed least m goal x r) :
    Runs wider least m goal x r := by
  match r, runs with
  | none, ⟨n, es, y, long, path⟩ => exact ⟨n, es, y, long, path.mono weaken⟩
  | some ⟨_, .done _⟩, ⟨n, path⟩ => exact ⟨n, path.mono weaken⟩
  | some ⟨_, .failed _ _⟩, ⟨n, earlier, y, pc, stack, t, path, inside, rest⟩ =>
    exact ⟨n, earlier, y, pc, stack, t, path.mono weaken, weaken _ inside, rest⟩

theorem Runs.fewer {most : Nat} (fewer : least ≤ most) (runs : Runs allowed most m goal x r) :
    Runs allowed least m goal x r := by
  match r, runs with
  | none, ⟨n, es, y, long, path⟩ => exact ⟨n, es, y, Nat.le_trans fewer long, path⟩
  | some ⟨_, .done _⟩, done => exact done
  | some ⟨_, .failed _ _⟩, failed => exact failed

theorem Runs.of_path (path : Path allowed n x es y) (runs : Runs allowed least m goal y r) :
    Runs allowed (least + n) m goal x (after es r) := by
  match r, runs with
  | none, ⟨k, _, z, long, path'⟩ => exact ⟨n + k, _, z, by omega, path.trans path'⟩
  | some ⟨_, .done _⟩, ⟨k, path'⟩ => exact ⟨n + k, path.trans path'⟩
  | some ⟨_, .failed _ _⟩, ⟨k, earlier, z, pc, stack, t, path', inside, split, rest⟩ =>
    refine ⟨n + k, es ++ earlier, z, pc, stack, t, path.trans path', inside, ?_, rest⟩
    rw [split, List.append_assoc]

theorem Runs.next {k : State σ → Option (Course σ)} (first : Runs allowed least m goal x r)
    (later : ∀ st, Runs allowed least m goal' (goal st) (k st)) :
    Runs allowed least m goal' x (next k r) := by
  match r, first with
  | none, long => exact long
  | some ⟨_, .done st⟩, ⟨n, path⟩ => exact ((later st).of_path path).fewer (Nat.le_add_right _ _)
  | some ⟨_, .failed _ _⟩, failed => exact failed

theorem Runs.further (runs : Runs allowed least m goal x r)
    (more : ∀ st, ∃ n, Path allowed n (goal st) [] (goal' st)) :
    Runs allowed least m goal' x r := by
  match r, runs with
  | none, long => exact long
  | some ⟨es, .done st⟩, ⟨n, path⟩ =>
    obtain ⟨k, path'⟩ := more st
    have whole := path.trans path'
    rw [List.append_nil] at whole
    exact ⟨n + k, whole⟩
  | some ⟨_, .failed _ _⟩, failed => exact failed

theorem Settles.given {aim : α → Machine σ} {result : Except NoValue α}
    {k : α → Option (Course σ)} (settles : Settles allowed m st aim x result)
    (later : ∀ a, result = .ok a → Runs allowed least m goal (aim a) (k a)) :
    Runs allowed least m goal x (given st k result) := by
  match result, settles with
  | .ok a, ⟨n, path⟩ =>
    have runs := (later a rfl).of_path path
    rw [after_nil] at runs
    exact runs.fewer (Nat.le_add_right _ _)
  | .error (.mismatch _ _), ⟨n, y, pc, stack, t, path, inside, silent, rest⟩ =>
    refine ⟨n, [], y, pc, stack, t, path, inside, ?_, rest⟩
    rw [silent]
    rfl

theorem runs_finish (path : Path allowed n x [] (goal st)) :
    Runs allowed least m goal x (finish st) :=
  ⟨n, path⟩

/-- A loop: a test, and when it holds a body with a jump back to the test. Going round takes at
least the step of the jump, so a bound that is used up has been used for as many steps. -/
theorem runs_iterate {test : State σ → Except NoValue Bool} {body : State σ → Option (Course σ)}
    {top last : State σ → Machine σ} {way : State σ → Bool → Machine σ} {bound : Nat}
    (tests : ∀ st, Settles allowed m st (way st) (top st) (test st))
    (bodies : ∀ st, Runs allowed bound m last (way st true) (body st))
    (back : ∀ st, Path allowed 1 (last st) [] (top st)) (within : n ≤ bound) (st : State σ) :
    Runs allowed n m (fun st => way st false) (top st) (iterate test body n st) := by
  -- On the bound, not on the body: `bodies` is about the whole body, at every state.
  induction n generalizing st with
  | zero => exact ⟨0, [], top st, Nat.le_refl 0, .stay _⟩
  | succ n ih =>
    refine (tests st).given fun b _ => ?_
    cases b with
    | false => exact runs_finish (.stay _)
    | true =>
      refine ((bodies st).fewer within).next fun st' => ?_
      -- The jump back is the step that pays for this time round.
      have again := (ih (by omega) st').of_path (back st')
      rwa [after_nil] at again

/-! What a machine comes to is determined, so a machine that follows the courses of every bound
comes to an end, fails or goes on for ever exactly as they do. -/

section
variable {stop : Nat} {outcome : Nat → Option (Course σ)} {fault : Fault}

theorem Runs.reaches (outside : ∀ a, allowed a → a ≠ stop)
    (arrives : ∀ st, (goal st).core.pc = stop) (runs : Runs allowed least m goal x r)
    (ended : r = some ⟨es, .done st⟩) :
    x.Reaches stop es (goal st) := by
  subst ended
  obtain ⟨n, path⟩ := runs
  exact ⟨arrives st, n, path.mono outside⟩

theorem Runs.fails (outside : ∀ a, allowed a → a ≠ stop) (runs : Runs allowed least m goal x r)
    (ended : r = some ⟨es, .failed fault st⟩) :
    ∃ t y, x.Fails stop es t y ∧ t.fault = fault ∧ y.state = st := by
  subst ended
  obtain ⟨n, earlier, y, pc, stack, t, path, inside, split, failed, same⟩ := runs
  exact ⟨t, _, ⟨n, y, earlier, path.mono outside, outside _ inside, failed, split⟩, same, rfl⟩

theorem runsOn_of_never (outside : ∀ a, allowed a → a ≠ stop)
    (runs : ∀ n, Runs allowed n m goal x (outcome n)) (never : ∀ n, outcome n = none) :
    x.RunsOn stop := by
  intro n
  have long := runs n
  rw [never n] at long
  obtain ⟨k, _, _, long, path⟩ := long
  obtain ⟨more, rfl⟩ := Nat.exists_eq_add_of_le long
  exact (path.mono outside).take

theorem runs_cases (runs : ∀ n, Runs allowed n m goal x (outcome n)) :
    (∃ n es st, outcome n = some ⟨es, .done st⟩) ∨
      (∃ n es fault st, outcome n = some ⟨es, .failed fault st⟩) ∨ ∀ n, outcome n = none := by
  by_cases ended : ∃ n c, outcome n = some c
  · obtain ⟨n, ⟨es, ending⟩, reached⟩ := ended
    cases ending with
    | done st => exact Or.inl ⟨n, es, st, reached⟩
    | failed fault st => exact Or.inr (Or.inl ⟨n, es, fault, st, reached⟩)
    | meaningless =>
      have never := runs n
      rw [reached] at never
      exact never.elim
  · refine Or.inr (Or.inr fun n => ?_)
    cases reached : outcome n with
    | none => rfl
    | some c => exact absurd ⟨n, c, reached⟩ ended

variable (outside : ∀ a, allowed a → a ≠ stop) (arrives : ∀ st, (goal st).core.pc = stop)
variable (runs : ∀ n, Runs allowed n m goal x (outcome n))
include outside arrives runs

theorem reaches_iff :
    x.Reaches stop es y ↔ ∃ n st, outcome n = some ⟨es, .done st⟩ ∧ y = goal st := by
  constructor
  · intro there
    rcases runs_cases runs with ⟨n, fs, st, ended⟩ | ⟨n, fs, fault, st, ended⟩ | never
    · -- The course that ended is the one the machine followed, since it can follow only one.
      obtain ⟨rfl, rfl⟩ := ((runs n).reaches outside arrives ended).unique there
      exact ⟨n, st, ended, rfl⟩
    · obtain ⟨trace, z, failed, _⟩ := (runs n).fails outside ended
      exact (there.not_fails failed).elim
    · exact (there.not_runsOn (runsOn_of_never outside runs never)).elim
  · rintro ⟨n, st, ended, rfl⟩
    exact (runs n).reaches outside arrives ended

theorem fails_iff : (∃ t y, x.Fails stop es t y ∧ t.fault = fault ∧ y.state = st) ↔
    ∃ n, outcome n = some ⟨es, .failed fault st⟩ := by
  constructor
  · rintro ⟨trace, y, failed, same, state⟩
    rcases runs_cases runs with ⟨n, fs, st', ended⟩ | ⟨n, fs, fault', st', ended⟩ | never
    · exact (((runs n).reaches outside arrives ended).not_fails failed).elim
    · obtain ⟨trace', z, failed', same', state'⟩ := (runs n).fails outside ended
      obtain ⟨rfl, rfl, rfl⟩ := failed'.unique failed
      rw [← same, ← state, same', state']
      exact ⟨n, ended⟩
    · exact (failed.not_runsOn (runsOn_of_never outside runs never)).elim
  · rintro ⟨n, ended⟩
    exact (runs n).fails outside ended

theorem runsOn_iff : x.RunsOn stop ↔ ∀ n, outcome n = none := by
  constructor
  · intro on
    rcases runs_cases runs with ⟨n, fs, st, ended⟩ | ⟨n, fs, fault, st, ended⟩ | never
    · exact (((runs n).reaches outside arrives ended).not_runsOn on).elim
    · obtain ⟨trace, z, failed, _⟩ := (runs n).fails outside ended
      exact (failed.not_runsOn on).elim
    · exact never
  · exact runsOn_of_never outside runs

end

end Meaning
end Dialogue
