import Dialogue.Proofs.Machine.Telling

/-!
Driving a machine. A driver runs it once, resumes it whenever it is paused and answers its menus
one after the other; between these operations it has no choice. Underneath, the machine takes one
course of instructions and answers. Pauses only cut that course into operations.
-/
namespace Dialogue.Machine
variable {σ : Type} {origin m m' : Machine σ} {answers : List Nat} {log : List Event}
  {r r' : Except Trace Reply} {k fuel index : Nat}

/-- After some answers, the last one first, and with all that the host was asked so far, the
machine is to be asked `op`. An answer counts from the operation that gives it. -/
inductive Due (origin : Machine σ) : List Nat → List Event → Machine σ → Operation → Prop where
  | run : Due origin [] [] origin .run
  | resume {answers : List Nat} {log : List Event} {m m' : Machine σ} {op : Operation} {fuel : Nat}
      {r : Except Trace Reply} (due : Due origin answers log m op)
      (done : m.operate fuel op = some (r, m'))
      (suspended : m'.status = .suspended) : Due origin answers (log ++ m.toldBy fuel op) m' .resume
  | choose {answers : List Nat} {log : List Event} {m m' : Machine σ} {op : Operation} {fuel : Nat}
      {r : Except Trace Reply} (due : Due origin answers log m op)
      (done : m.operate fuel op = some (r, m')) (waiting : m'.status = .waiting) (index : Nat) :
      Due origin (index :: answers) (log ++ m.toldBy fuel op) m' (.choose index)

/-- After these answers the machine has halted as `m` and is not just paused; `r` is what the last
operation returned. -/
def Halts (origin : Machine σ) (answers : List Nat) (log : List Event) (r : Except Trace Reply)
    (m : Machine σ) : Prop :=
  m.status ≠ .suspended ∧ ∃ earlier before op fuel, Due origin answers earlier before op ∧
    before.operate fuel op = some (r, m) ∧ log = earlier ++ before.toldBy fuel op

/-- After these answers the host has been asked `log` at some time, be it in an operation that
never ends. -/
def Hears (origin : Machine σ) (answers : List Nat) (log : List Event) : Prop :=
  ∃ earlier m op fuel, Due origin answers earlier m op ∧ log = earlier ++ m.toldBy fuel op

def Status.awake : Status → Status
  | .suspended => .running
  | s => s

def awake (m : Machine σ) : Machine σ :=
  { m with status := m.status.awake }

theorem awake_of_ne (other : m.status ≠ .suspended) : m.awake = m := by
  obtain ⟨p, h, ns, status, core, memory⟩ := m
  cases status <;> first | rfl | exact absurd rfl other

theorem status_awake (other : m.status ≠ .suspended) : m.status.awake = m.status :=
  congrArg Machine.status (awake_of_ne other)

theorem awake_of_suspended (suspended : m.status = .suspended) :
    m.awake = { m with status := .running } := by
  rw [awake, suspended]
  rfl

/-- The course of a machine: `k` instructions after the last answer it has asked `log` and would
return `r` if it halted there. -/
inductive Course (origin : Machine σ) :
    List Nat → Nat → List Event → Except Trace Reply → Machine σ → Prop where
  | run {m : Machine σ} (begun : origin.start = (.ok (), m)) :
      Course origin [] 0 [] (.ok (.status .running)) m
  | step {answers : List Nat} {k : Nat} {log : List Event} {r : Except Trace Reply} {m : Machine σ}
      (before : Course origin answers k log r m) (running : m.status = .running) :
      Course origin answers (k + 1) (log ++ m.events) (m.step.1.map fun o => .status o.status.awake)
        m.step.2.awake
  | answer {answers : List Nat} {k index : Nat} {log : List Event} {r : Except Trace Reply}
      {m : Machine σ} {choice : Choice} (before : Course origin answers k log r m)
      (waiting : m.status = .waiting) (there : m.core.choices[index]? = some choice) :
      Course origin (index :: answers) 0 (log ++ [m.farewell])
        (.ok (.status (m.answered choice).status.awake))
        (m.answered choice).awake
  | miss {answers : List Nat} {k index : Nat} {log : List Event} {r : Except Trace Reply}
      {m : Machine σ} (before : Course origin answers k log r m) (waiting : m.status = .waiting)
      (missing : m.core.choices[index]? = none) :
      Course origin (index :: answers) 0 log
        (.error { fault := .choiceOutOfRange index m.core.choices.length }) m

/-! A machine has only one course. -/

theorem Course.earlier (course : Course origin answers k log r m) {j : Nat} (less : j < k) :
    ∃ log r m, Course origin answers j log r m ∧ m.status = .running := by
  induction course with
  | run | answer | miss => exact absurd less (Nat.not_lt_zero j)
  | @step answers k log r m before running ih =>
    rcases Nat.lt_succ_iff_lt_or_eq.mp less with less | rfl
    · exact ih less
    · exact ⟨log, r, m, before, running⟩

/-- There is no more than one place on the course after each number of instructions. -/
def Single (origin : Machine σ) (answers : List Nat) : Prop :=
  ∀ k log log' r r' m m', Course origin answers k log r m → Course origin answers k log' r' m' →
    log' = log ∧ r' = r ∧ m' = m

theorem Single.halted {log' : List Event} {k' : Nat} (single : Single origin answers)
    (course : Course origin answers k log r m) (halted : m.status ≠ .running)
    (course' : Course origin answers k' log' r' m') (halted' : m'.status ≠ .running) :
    log' = log ∧ r' = r ∧ m' = m := by
  rcases Nat.lt_trichotomy k k' with less | rfl | more
  · obtain ⟨_, _, _, passed, running⟩ := course'.earlier less
    obtain ⟨_, _, rfl⟩ := single _ _ _ _ _ _ _ course passed
    exact absurd running halted
  · exact single _ _ _ _ _ _ _ course course'
  · obtain ⟨_, _, _, passed, running⟩ := course.earlier more
    obtain ⟨_, _, rfl⟩ := single _ _ _ _ _ _ _ course' passed
    exact absurd running halted'

/-- It is enough to look at the places where no instruction was executed yet. -/
theorem single_of_first (first : ∀ log log' r r' m m', Course origin answers 0 log r m →
    Course origin answers 0 log' r' m' → log' = log ∧ r' = r ∧ m' = m) : Single origin answers := by
  intro k
  induction k with
  | zero => exact first
  | succ k ih =>
    intro log log' r r' m m' course course'
    cases course with
    | step before _ =>
      cases course' with
      | step before' _ =>
        obtain ⟨rfl, rfl, rfl⟩ := ih _ _ _ _ _ _ before before'
        exact ⟨rfl, rfl, rfl⟩

theorem single (origin : Machine σ) (answers : List Nat) : Single origin answers := by
  induction answers with
  | nil =>
    apply single_of_first
    intro log log' r r' m m' course course'
    cases course with
    | run begun =>
      cases course' with
      | run begun' =>
        cases begun.symm.trans begun'
        exact ⟨rfl, rfl, rfl⟩
  | cons index answers ih =>
    have halted : ∀ {m : Machine σ}, m.status = .waiting → m.status ≠ .running := by
      intro m waiting running
      cases waiting.symm.trans running
    apply single_of_first
    intro log log' r r' m m' course course'
    cases course with
    | answer before waiting there =>
      cases course' with
      | answer before' waiting' there' =>
        obtain ⟨rfl, _, rfl⟩ := ih.halted before (halted waiting) before' (halted waiting')
        cases there.symm.trans there'
        exact ⟨rfl, rfl, rfl⟩
      | miss before' waiting' missing =>
        obtain ⟨_, _, rfl⟩ := ih.halted before (halted waiting) before' (halted waiting')
        cases there.symm.trans missing
    | miss before waiting missing =>
      cases course' with
      | answer before' waiting' there =>
        obtain ⟨_, _, rfl⟩ := ih.halted before (halted waiting) before' (halted waiting')
        cases missing.symm.trans there
      | miss before' waiting' missing' =>
        obtain ⟨rfl, _, rfl⟩ := ih.halted before (halted waiting) before' (halted waiting')
        exact ⟨rfl, rfl, rfl⟩

/-! Operations stay on the course. -/

/-- The course has gone on from `m` by what `m` asks in `fuel` instructions, and if they are
enough for it to halt, to where it halts. -/
def Follows (origin : Machine σ) (answers : List Nat) (log : List Event) (fuel : Nat)
    (m : Machine σ) : Prop :=
  ∃ k r m', Course origin answers k (log ++ m.told fuel) r m'.awake ∧
    ∀ x after, m.proceed fuel = some (x, after) →
      after = m' ∧ after.status ≠ .running ∧ (after.status ≠ .suspended → x.map .status = r)

theorem follows_halted (course : Course origin answers k log r m.awake)
    (halted : m.status ≠ .running) (returned : m.status ≠ .suspended → r = .ok (.status m.status))
    (fuel : Nat) :
    Follows origin answers log fuel m := by
  rw [Follows, told_halted halted, List.append_nil, proceed_halted halted]
  refine ⟨k, r, m, course, ?_⟩
  intro x after ended
  cases ended
  exact ⟨rfl, halted, fun other => (returned other).symm⟩

theorem follows (course : Course origin answers k log r m.awake)
    (returned : m.status ≠ .running → m.status ≠ .suspended → r = .ok (.status m.status))
    (fuel : Nat) :
    Follows origin answers log fuel m := by
  induction fuel generalizing m k log r with
  | zero =>
    by_cases running : m.status = .running
    · rw [Follows, told, List.append_nil, proceed_zero running]
      exact ⟨k, r, m, course, fun x after ended => by cases ended⟩
    · exact follows_halted course running (returned running) 0
  | succ fuel ih =>
    by_cases running : m.status = .running
    · rw [awake_of_ne (by simp [running])] at course
      have next := course.step running
      rcases stepped : m.step with ⟨t | o, after⟩
      · rw [stepped] at next
        rw [Follows, told_succ running, ← List.append_assoc, stepped,
          told_halted (by simp [step_status_of_error stepped]), List.append_nil,
          proceed_of_error running stepped]
        refine ⟨_, _, after, next, ?_⟩
        intro x last ended
        cases ended
        exact ⟨rfl, by simp [step_status_of_error stepped], fun _ => rfl⟩
      · rw [stepped] at next
        have later := ih next ?_
        · rw [Follows, told_succ running, ← List.append_assoc, stepped,
            proceed_of_ok running stepped]
          exact later
        · intro _ other
          change Except.ok (Reply.status o.status.awake) = .ok (.status after.status)
          rw [← step_status_of_ok stepped, status_awake other]
    · exact follows_halted course running (returned running) _

def Lands (origin : Machine σ) (answers : List Nat) (log : List Event) (m : Machine σ)
    (op : Operation) : Prop :=
  ∀ fuel, ∃ k r m', Course origin answers k (log ++ m.toldBy fuel op) r m'.awake ∧
    ∀ x after, m.operate fuel op = some (x, after) →
      after = m' ∧ after.status ≠ .running ∧ (after.status ≠ .suspended → x = r)

theorem lands_of_follows {op : Operation} {begun : Machine σ} (asked : List Event)
    (operate : ∀ fuel, m.operate fuel op = (begun.proceed fuel).map fun r => (r.1.map .status, r.2))
    (told : ∀ fuel, m.toldBy fuel op = asked ++ begun.told fuel)
    (follows : ∀ fuel, Follows origin answers (log ++ asked) fuel begun) :
    Lands origin answers log m op := by
  intro fuel
  obtain ⟨k, r, m', course, halts⟩ := follows fuel
  rw [List.append_assoc, ← told] at course
  refine ⟨k, r, m', course, ?_⟩
  intro x after ended
  rw [operate] at ended
  obtain ⟨⟨y, last⟩, reached, same⟩ := Option.map_eq_some_iff.mp ended
  cases same
  exact halts y last reached

theorem awake_running (running : m.status = .running) : m.awake = m :=
  awake_of_ne (by simp [running])

theorem lands_of_due {op : Operation} {started : Machine σ}
    (begun : origin.start = (.ok (), started)) (due : Due origin answers log m op) :
    Lands origin answers log m op := by
  induction due with
  | run =>
    have running : started.status = .running := by rw [(start_ok begun).2]
    apply lands_of_follows [] (operate_run begun) (toldBy_run begun)
    intro fuel
    apply follows (k := 0) (r := .ok (.status .running))
    · rw [awake_running running]
      exact .run begun
    · intro halted
      exact absurd running halted
  | @resume answers log m m' op fuel r due done suspended ih =>
    obtain ⟨k, r', _, course, halts⟩ := ih fuel
    obtain ⟨rfl, _⟩ := halts r m' done
    apply lands_of_follows [] (operate_resume suspended) (toldBy_resume suspended)
    intro fuel
    rw [List.append_nil]
    apply follows (k := k) (r := r')
    · rw [awake_of_suspended suspended] at course
      exact course
    · intro halted
      exact absurd rfl halted
  | @choose answers log m m' op fuel r due done waiting index ih =>
    obtain ⟨k, r', _, course, halts⟩ := ih fuel
    obtain ⟨rfl, _⟩ := halts r m' done
    rw [awake_of_ne (by simp [waiting])] at course
    cases there : m'.core.choices[index]? with
    | some choice =>
      apply lands_of_follows [m'.farewell] (operate_choose waiting there)
        (toldBy_choose waiting there)
      intro fuel
      have next := course.answer waiting there
      apply follows next
      intro _ other
      rw [status_awake other]
    | none =>
      intro fuel
      have next := course.miss waiting there
      rw [toldBy_choose_missing there, List.append_nil, operate_choose_missing waiting there]
      refine ⟨0, _, m', by rwa [awake_of_ne (by simp [waiting])], ?_⟩
      intro x after ended
      cases ended
      exact ⟨rfl, by simp [waiting], fun _ => rfl⟩

/-! The course is taken by operations. -/

/-- The machine stands as `m` in the middle of an operation that is due. -/
def Amid (origin : Machine σ) (answers : List Nat) (log : List Event) (m : Machine σ) : Prop :=
  ∃ earlier before op fuel, Due origin answers earlier before op ∧
    ∀ more, log ++ m.told more = earlier ++ before.toldBy (fuel + more) op ∧
      before.operate (fuel + more) op = (m.proceed more).map fun r => (r.1.map .status, r.2)

def Stands (origin : Machine σ) (answers : List Nat) (log : List Event) (r : Except Trace Reply)
    (m : Machine σ) : Prop :=
  (m.status = .running → Amid origin answers log m) ∧
  (m.status ≠ .running → Halts origin answers log r m)

theorem amid_begun {op : Operation} {begun : Machine σ} (asked : List Event)
    (due : Due origin answers log m op)
    (operate : ∀ fuel, m.operate fuel op = (begun.proceed fuel).map fun r => (r.1.map .status, r.2))
    (told : ∀ fuel, m.toldBy fuel op = asked ++ begun.told fuel) :
    Amid origin answers (log ++ asked) begun := by
  refine ⟨log, m, op, 0, due, ?_⟩
  intro more
  rw [Nat.zero_add, told, operate, List.append_assoc]
  exact ⟨rfl, rfl⟩

theorem Amid.halted (amid : Amid origin answers log m) (halted : m.status ≠ .running) :
    ∃ earlier before op fuel, Due origin answers earlier before op ∧
      before.operate fuel op = some (.ok (.status m.status), m) ∧
      log = earlier ++ before.toldBy fuel op := by
  obtain ⟨earlier, before, op, fuel, due, rest⟩ := amid
  obtain ⟨asked, done⟩ := rest 0
  rw [told_halted halted, List.append_nil, Nat.add_zero] at asked
  rw [proceed_halted halted, Nat.add_zero] at done
  exact ⟨earlier, before, op, fuel, due, done, asked⟩

/-- A machine in an operation goes on, is resumed, or has come to its end. -/
theorem stands_of_amid (amid : Amid origin answers log m)
    (returned : m.status ≠ .running → m.status ≠ .suspended → r = .ok (.status m.status)) :
    Stands origin answers log r m.awake := by
  by_cases suspended : m.status = .suspended
  · obtain ⟨earlier, before, op, fuel, due, done, rfl⟩ := amid.halted (by simp [suspended])
    have resumed := amid_begun [] (due.resume done suspended) (operate_resume suspended)
      (toldBy_resume suspended)
    rw [List.append_nil] at resumed
    rw [awake_of_suspended suspended]
    exact ⟨fun _ => resumed, fun halted => absurd rfl halted⟩
  · rw [awake_of_ne suspended]
    refine ⟨fun _ => amid, ?_⟩
    intro halted
    obtain ⟨earlier, before, op, fuel, due, done, asked⟩ := amid.halted halted
    rw [returned halted suspended]
    exact ⟨suspended, earlier, before, op, fuel, due, done, asked⟩

theorem stands_of_step (amid : Amid origin answers log m) (running : m.status = .running) :
    Stands origin answers (log ++ m.events) (m.step.1.map fun o => .status o.status.awake)
      m.step.2.awake := by
  obtain ⟨earlier, before, op, fuel, due, rest⟩ := amid
  have next : ∀ more,
      log ++ m.events ++ m.step.2.told more = earlier ++ before.toldBy (fuel + 1 + more) op ∧
      before.operate (fuel + 1 + more) op =
        (m.proceed (more + 1)).map fun r => (r.1.map .status, r.2) := by
    intro more
    obtain ⟨asked, done⟩ := rest (more + 1)
    rw [told_succ running, ← List.append_assoc] at asked
    rw [Nat.add_assoc, Nat.add_comm 1 more]
    exact ⟨asked, done⟩
  rcases stepped : m.step with ⟨t | o, after⟩
  · rw [stepped] at next
    obtain ⟨asked, done⟩ := next 0
    have faulted := step_status_of_error stepped
    rw [told, List.append_nil] at asked
    rw [proceed_of_error running stepped] at done
    rw [awake_of_ne (by simp [faulted])]
    refine ⟨fun running => by simp [faulted] at running, fun _ => ?_⟩
    exact ⟨by simp [faulted], earlier, before, op, fuel + 1, due, done, asked⟩
  · rw [stepped] at next
    apply stands_of_amid
    · refine ⟨earlier, before, op, fuel + 1, due, ?_⟩
      intro more
      rw [← proceed_of_ok running stepped]
      exact next more
    · intro _ other
      change Except.ok (Reply.status o.status.awake) = .ok (.status after.status)
      rw [← step_status_of_ok stepped, status_awake other]

theorem stands_of_course (course : Course origin answers k log r m) :
    Stands origin answers log r m := by
  induction course with
  | run begun =>
    have amid := amid_begun [] .run (operate_run begun) (toldBy_run begun)
    have running := congrArg Machine.status (start_ok begun).2
    exact ⟨fun _ => amid, fun halted => absurd running halted⟩
  | step before running ih => exact stands_of_step (ih.1 running) running
  | answer before waiting there ih =>
    obtain ⟨_, earlier, first, op, fuel, due, done, rfl⟩ := ih.2 (by simp [waiting])
    apply stands_of_amid
    · exact amid_begun _ (due.choose done waiting _) (operate_choose waiting there)
        (toldBy_choose waiting there)
    · intro _ other
      rw [status_awake other]
  | @miss answers k index log r m before waiting missing ih =>
    obtain ⟨_, earlier, first, op, fuel, due, done, rfl⟩ := ih.2 (by simp [waiting])
    refine ⟨fun running => by simp [waiting] at running, fun _ => ?_⟩
    refine ⟨by simp [waiting], _, m, .choose index, 0, due.choose done waiting index,
      operate_choose_missing waiting missing 0, ?_⟩
    rw [toldBy_choose_missing missing, List.append_nil]

/-! What a driver sees is what the course holds. -/

theorem halts_iff {started : Machine σ} (begun : origin.start = (.ok (), started)) :
    Halts origin answers log r m ↔ m.status ≠ .running ∧ ∃ k, Course origin answers k log r m := by
  constructor
  · rintro ⟨other, earlier, before, op, fuel, due, done, rfl⟩
    obtain ⟨k, r', _, course, halts⟩ := lands_of_due begun due fuel
    obtain ⟨rfl, halted, returned⟩ := halts r m done
    rw [awake_of_ne other] at course
    cases returned other
    exact ⟨halted, k, course⟩
  · rintro ⟨halted, k, course⟩
    exact (stands_of_course course).2 halted

theorem hears_iff {started : Machine σ} (begun : origin.start = (.ok (), started)) :
    Hears origin answers log ↔ ∃ k r m, Course origin answers k log r m := by
  constructor
  · rintro ⟨earlier, before, op, fuel, due, rfl⟩
    obtain ⟨k, r, m, course, _⟩ := lands_of_due begun due fuel
    exact ⟨k, r, m.awake, course⟩
  · rintro ⟨k, r, m, course⟩
    by_cases running : m.status = .running
    · obtain ⟨earlier, before, op, fuel, due, rest⟩ := (stands_of_course course).1 running
      obtain ⟨asked, _⟩ := rest 0
      rw [told, List.append_nil] at asked
      exact ⟨earlier, before, op, fuel, due, asked⟩
    · obtain ⟨_, earlier, before, op, fuel, due, _, asked⟩ := (stands_of_course course).2 running
      exact ⟨earlier, before, op, fuel, due, asked⟩

theorem Halts.unique {started : Machine σ} {log' : List Event}
    (begun : origin.start = (.ok (), started)) (halts : Halts origin answers log r m)
    (halts' : Halts origin answers log' r' m') :
    log' = log ∧ r' = r ∧ m' = m := by
  obtain ⟨halted, k, course⟩ := (halts_iff begun).mp halts
  obtain ⟨halted', k', course'⟩ := (halts_iff begun).mp halts'
  exact (single origin answers).halted course halted course' halted'

end Dialogue.Machine
