import Dialogue.Proofs.Machine.Telling

/-!
Starting over. Whatever was done with a machine, after a reset it starts like a new one: a start
writes everything that an instruction can read. What the host remembers is all that is left of the
past, and a host that does not answer by it cannot bring the past back.
-/
namespace Dialogue.Machine
variable {σ : Type} {m m' : Machine σ}

/-- What a host and its functions answer does not depend on what they remember. -/
structure Steady (h : Host σ) (ns : Natives σ) : Prop where
  enter : ∀ view node w w', (h.enter view node w').1 = (h.enter view node w).1
  leave : ∀ view node w w', (h.leave view node w').1 = (h.leave view node w).1
  line : ∀ view text w w', (h.line view text w').1 = (h.line view text w).1
  invoke : ∀ name n, ns.lookup name = some n → ∀ arguments w w',
    (n.invoke arguments w').1 = (n.invoke arguments w).1

/-! What can be told of a machine: of each instruction, of each operation, and of operations one
after the other. -/

/-- What each of the next `fuel` instructions asks, and the status and the core it leaves. -/
def points : Nat → Machine σ → List (List Event × Status × Core)
  | 0, _ => []
  | fuel + 1, m =>
    if m.status = .running then
      (m.events, m.step.2.status, m.step.2.core) :: points fuel m.step.2
    else []

/-- The same for an operation of at most `fuel` instructions; an answer to a menu comes before
them. -/
def pointsBy (fuel : Nat) (m : Machine σ) : Operation → List (List Event × Status × Core)
  | .start | .reset => []
  | .run => m.start.2.points fuel
  | .step => m.points 1
  | .resume =>
    if m.status = .suspended then ({ m with status := .running } : Machine σ).points fuel else []
  | .choose index =>
    match m.core.choices[index]? with
    | some choice =>
      if m.status = .waiting then
        ([m.farewell], (m.answered choice).status, (m.answered choice).core) ::
          (m.answered choice).points fuel
      else []
    | none => []

/-- The course of an operation, and if it ends within its bound, what it returns and how it leaves
the machine. -/
structure Account where
  course : List (List Event × Status × Core)
  ended? : Option (Except Trace Reply × Status × Core)

def account (fuel : Nat) (m : Machine σ) (op : Operation) : Account :=
  ⟨m.pointsBy fuel op, (m.operate fuel op).map fun r => (r.1, r.2.status, r.2.core)⟩

/-- The accounts of operations done one after the other, each with a bound of its own. The last
one is of the first operation that does not end within its bound. -/
def accounts : List (Nat × Operation) → Machine σ → List Account
  | [], _ => []
  | (fuel, op) :: ops, m => m.account fuel op ::
    match m.operate fuel op with
    | some r => accounts ops r.2
    | none => []

/-- The machine after operations that all end within their bounds, however they end. -/
def after : List (Nat × Operation) → Machine σ → Option (Machine σ)
  | [], m => some m
  | (fuel, op) :: ops, m => (m.operate fuel op).bind fun r => after ops r.2

theorem Reached.after {origin : Machine σ} {log : List Event} {ops : List (Nat × Operation)}
    (reached : Reached origin log m) (came : m.after ops = some m') :
    ∃ log, Reached origin log m' := by
  induction ops generalizing log m with
  | nil =>
    cases came
    exact ⟨log, reached⟩
  | cons op ops ih =>
    obtain ⟨fuel, op⟩ := op
    obtain ⟨⟨r, next⟩, done, rest⟩ := Option.bind_eq_some_iff.mp came
    obtain ⟨log, reached⟩ := (reached.operated done).reached
    exact ih reached rest

/-! Machines that differ in what the host remembers do the same. -/

def recalling (m : Machine σ) (w : σ) : Machine σ :=
  { m with memory := w }

theorem events_recalling (m : Machine σ) (w : σ) : (m.recalling w).events = m.events := rfl

theorem ask_recalling (steady : Steady m.host m.natives) (w : σ) (r : Request) :
    ((m.recalling w).ask r).1 = (m.ask r).1 := by
  cases r with
  | nothing | menu | finish => rfl
  | enter node => exact congrArg (Except.ok ∘ Signal.outcome) (steady.enter _ _ m.memory w)
  | leave node => exact congrArg (Except.ok ∘ Signal.outcome) (steady.leave _ _ m.memory w)
  | line text => exact congrArg (Except.ok ∘ Signal.outcome) (steady.line _ _ m.memory w)
  | call name arguments =>
    cases known : m.natives.lookup name with
    | none => simp only [ask, recalling, known]
    | some n =>
      have same := steady.invoke name n known arguments m.memory w
      simp only [ask, recalling, known]
      rcases answer : n.invoke arguments m.memory with ⟨e | s, after⟩ <;>
        rcases answer' : n.invoke arguments w with ⟨e' | s', after'⟩ <;>
        rw [answer, answer'] at same <;> cases same <;> rfl

theorem step_recalling (steady : Steady m.host m.natives) (running : m.status = .running) (w : σ) :
    ∃ w', (m.recalling w).step = (m.step.1, m.step.2.recalling w') := by
  have running' : (m.recalling w).status = .running := running
  cases here : m.program.code[m.core.pc]? with
  | none =>
    rw [step_outside running here, step_outside running' here]
    exact ⟨w, rfl⟩
  | some i =>
    rcases executed : ({ m.core with pc := m.core.pc + 1 } : Core).execute m.natives.signatures i
      with ⟨f | r, c⟩
    · rw [step_fails running here executed, step_fails running' here executed]
      exact ⟨w, rfl⟩
    · have asked : ((({ m with core := c } : Machine σ).recalling w).ask r).1 =
          (({ m with core := c } : Machine σ).ask r).1 :=
        ask_recalling (m := { m with core := c }) steady w r
      rcases answer : ({ m with core := c } : Machine σ).ask r with ⟨result, x⟩
      rcases answer' : (({ m with core := c } : Machine σ).recalling w).ask r with ⟨result', x'⟩
      rw [answer, answer'] at asked
      dsimp only at asked
      subst asked
      cases result' with
      | error f =>
        rw [step_refused running here executed answer, step_refused running' here executed answer']
        exact ⟨x', rfl⟩
      | ok o =>
        rw [step_answered running here executed answer,
          step_answered running' here executed answer']
        exact ⟨x', rfl⟩

def Same {α : Type} (r r' : Option (Except Trace α × Machine σ)) : Prop :=
  ∃ w, r' = r.map fun x => (x.1, x.2.recalling w)

theorem Same.map {α β : Type} {r r' : Option (Except Trace α × Machine σ)} (same : Same r r')
    (f : α → β) :
    Same (r.map fun x => (x.1.map f, x.2)) (r'.map fun x => (x.1.map f, x.2)) := by
  obtain ⟨w, rfl⟩ := same
  refine ⟨w, ?_⟩
  cases r <;> rfl

theorem proceed_recalling (steady : Steady m.host m.natives) (w : σ) (fuel : Nat) :
    Same (m.proceed fuel) ((m.recalling w).proceed fuel) := by
  induction fuel generalizing m w with
  | zero =>
    by_cases running : m.status = .running
    · rw [proceed_zero running, proceed_zero (m := m.recalling w) running]
      exact ⟨w, rfl⟩
    · rw [proceed_halted running, proceed_halted (m := m.recalling w) running]
      exact ⟨w, rfl⟩
  | succ fuel ih =>
    by_cases running : m.status = .running
    · obtain ⟨w', stepped'⟩ := step_recalling steady running w
      have fixed := m.step_fixed
      rcases stepped : m.step with ⟨t | o, next⟩
      · rw [stepped] at stepped'
        rw [proceed_of_error running stepped,
          proceed_of_error (m := m.recalling w) running stepped']
        exact ⟨w', rfl⟩
      · rw [stepped] at stepped' fixed
        rw [proceed_of_ok running stepped, proceed_of_ok (m := m.recalling w) running stepped']
        apply ih
        rw [fixed.2.1, fixed.2.2]
        exact steady
    · rw [proceed_halted running, proceed_halted (m := m.recalling w) running]
      exact ⟨w, rfl⟩

theorem points_recalling (steady : Steady m.host m.natives) (w : σ) (fuel : Nat) :
    (m.recalling w).points fuel = m.points fuel := by
  induction fuel generalizing m w with
  | zero => rfl
  | succ fuel ih =>
    by_cases running : m.status = .running
    · obtain ⟨w', stepped⟩ := step_recalling steady running w
      have fixed := m.step_fixed
      have rest : (m.step.2.recalling w').points fuel = m.step.2.points fuel := by
        apply ih
        rw [fixed.2.1, fixed.2.2]
        exact steady
      rw [points, points, if_pos running,
        if_pos (show (m.recalling w).status = .running from running), stepped,
        events_recalling, rest]
      rfl
    · rw [points, points, if_neg running,
        if_neg (show (m.recalling w).status ≠ .running from running)]

theorem answered_recalling (steady : Steady m.host m.natives) (choice : Choice) (w : σ) :
    ∃ w', (m.recalling w).answered choice = (m.answered choice).recalling w' := by
  have same := steady.leave m.core.view (m.core.node?.getD "") m.memory w
  refine ⟨((m.recalling w).answered choice).memory, ?_⟩
  simp only [answered, recalling, same]

theorem start_recalling (m : Machine σ) (w : σ) :
    (m.recalling w).start = (m.start.1, m.start.2.recalling w) := by
  unfold start
  by_cases stopped : m.status = .stopped
  · rw [if_neg (not_not_intro stopped),
      if_neg (not_not_intro (show (m.recalling w).status = _ from stopped))]
    rfl
  · rw [if_pos stopped, if_pos (show (m.recalling w).status ≠ _ from stopped)]
    rfl

theorem start_fixed (m : Machine σ) : m.start.2.host = m.host ∧ m.start.2.natives = m.natives := by
  unfold start
  split <;> exact ⟨rfl, rfl⟩

theorem run_recalling (steady : Steady m.host m.natives) (w : σ) (fuel : Nat) :
    Same (m.run fuel) ((m.recalling w).run fuel) := by
  have fixed := m.start_fixed
  unfold run
  rw [start_recalling]
  rcases begun : m.start with ⟨t | _, next⟩
  · exact ⟨w, rfl⟩
  · rw [begun] at fixed
    apply proceed_recalling
    rw [fixed.1, fixed.2]
    exact steady

theorem resume_recalling (steady : Steady m.host m.natives) (w : σ) (fuel : Nat) :
    Same (m.resume fuel) ((m.recalling w).resume fuel) := by
  unfold resume
  by_cases suspended : m.status = .suspended
  · rw [if_neg (not_not_intro suspended),
      if_neg (not_not_intro (show (m.recalling w).status = _ from suspended))]
    exact proceed_recalling (m := { m with status := .running }) steady w fuel
  · rw [if_pos suspended, if_pos (show (m.recalling w).status ≠ _ from suspended)]
    exact ⟨w, rfl⟩

theorem choose_recalling (steady : Steady m.host m.natives) (w : σ) (fuel index : Nat) :
    Same (m.choose fuel index) ((m.recalling w).choose fuel index) := by
  by_cases waiting : m.status = .waiting
  · cases there : m.core.choices[index]? with
    | some choice =>
      obtain ⟨w', answered⟩ := answered_recalling steady choice w
      rw [choose_eq waiting there, choose_eq (m := m.recalling w) waiting there, answered]
      exact proceed_recalling (m := m.answered choice) steady w' fuel
    | none =>
      refine ⟨w, ?_⟩
      unfold choose
      rw [if_neg (not_not_intro waiting),
        if_neg (not_not_intro (show (m.recalling w).status = _ from waiting)),
        there, show (m.recalling w).core.choices[index]? = none from there]
      rfl
  · refine ⟨w, ?_⟩
    unfold choose
    rw [if_pos waiting, if_pos (show (m.recalling w).status ≠ _ from waiting)]
    rfl

theorem operate_recalling (steady : Steady m.host m.natives) (w : σ) (fuel : Nat) (op : Operation) :
    Same (m.operate fuel op) ((m.recalling w).operate fuel op) := by
  cases op with
  | start =>
    refine ⟨w, ?_⟩
    rw [operate, operate, start_recalling]
    rfl
  | run => exact (run_recalling steady w fuel).map Reply.status
  | step =>
    by_cases running : m.status = .running
    · obtain ⟨w', stepped⟩ := step_recalling steady running w
      refine ⟨w', ?_⟩
      rw [operate, operate, stepped]
      rfl
    · refine ⟨w, ?_⟩
      rw [operate, operate, step, step, if_pos running,
        if_pos (show (m.recalling w).status ≠ _ from running)]
      rfl
  | resume => exact (resume_recalling steady w fuel).map Reply.status
  | choose index => exact (choose_recalling steady w fuel index).map Reply.status
  | reset => exact ⟨w, rfl⟩

theorem pointsBy_recalling (steady : Steady m.host m.natives) (w : σ) (fuel : Nat)
    (op : Operation) :
    (m.recalling w).pointsBy fuel op = m.pointsBy fuel op := by
  cases op with
  | start | reset => rfl
  | run =>
    have fixed := m.start_fixed
    rw [pointsBy, pointsBy, start_recalling]
    apply points_recalling
    rw [fixed.1, fixed.2]
    exact steady
  | step => exact points_recalling steady w 1
  | resume =>
    have same := points_recalling (m := { m with status := .running }) steady w fuel
    rw [pointsBy, pointsBy]
    split
    · rw [if_pos (by assumption)]
      exact same
    · rw [if_neg (by assumption)]
  | choose index =>
    rw [pointsBy, pointsBy]
    show (match m.core.choices[index]? with | some choice => _ | none => _) = _
    cases m.core.choices[index]? with
    | none => rfl
    | some choice =>
      obtain ⟨w', answered⟩ := answered_recalling steady choice w
      have same := points_recalling (m := m.answered choice) steady w' fuel
      dsimp only
      rw [answered, same]
      rfl

theorem account_recalling (steady : Steady m.host m.natives) (w : σ) (fuel : Nat) (op : Operation) :
    (m.recalling w).account fuel op = m.account fuel op := by
  obtain ⟨w', ended⟩ := operate_recalling steady w fuel op
  rw [account, account, pointsBy_recalling steady, ended, Option.map_map]
  rfl

theorem accounts_recalling (steady : Steady m.host m.natives) (w : σ)
    (ops : List (Nat × Operation)) :
    (m.recalling w).accounts ops = m.accounts ops := by
  induction ops generalizing m w with
  | nil => rfl
  | cons op ops ih =>
    obtain ⟨fuel, op⟩ := op
    obtain ⟨w', ended'⟩ := operate_recalling steady w fuel op
    rw [accounts, accounts, account_recalling steady, ended']
    cases ended : m.operate fuel op with
    | none => rfl
    | some r =>
      obtain ⟨_, reached⟩ := (Reached.new.operated ended).reached
      have fixed := reached.fixed
      have rest : (r.2.recalling w').accounts ops = r.2.accounts ops := by
        apply ih
        rw [fixed.2.1, fixed.2.2]
        exact steady
      exact congrArg _ rest

/-! A start leaves nothing of what was before it. -/

def Operation.Starts : Operation → Prop
  | .start | .run => True
  | _ => False

/-- Two machines that are stopped are the same once they are started, but for what the host
remembers. -/
theorem accounts_of_stopped (program : m'.program = m.program) (host : m'.host = m.host)
    (natives : m'.natives = m.natives) (stopped : m.status = .stopped)
    (stopped' : m'.status = .stopped) (steady : Steady m.host m.natives) {op : Operation}
    (starts : op.Starts) (fuel : Nat) (ops : List (Nat × Operation)) :
    m'.accounts ((fuel, op) :: ops) = m.accounts ((fuel, op) :: ops) := by
  have start : m'.start = (m.recalling m'.memory).start := by
    rw [start_of_stopped stopped', start_of_stopped (m := m.recalling m'.memory) stopped]
    simp only [recalling, program, host, natives]
  have operate : m'.operate fuel op = (m.recalling m'.memory).operate fuel op := by
    cases op with
    | start => rw [Machine.operate, Machine.operate, start]
    | run => rw [Machine.operate, Machine.operate, run, run, start]
    | _ => cases starts
  have points : m'.pointsBy fuel op = (m.recalling m'.memory).pointsBy fuel op := by
    cases op with
    | start => rfl
    | run => rw [pointsBy, pointsBy, start]
    | _ => cases starts
  rw [← accounts_recalling steady m'.memory, accounts, accounts, account, account, operate, points]

/-- Whatever was done with a machine and however it ended, after a reset it gives the same account
of every sequence of operations that begins with a start as a new machine with the same
program. -/
theorem reset_starts_fresh (p : Program) {h : Host σ} {ns : Natives σ} (steady : Steady h ns)
    (w w' : σ) {history : List (Nat × Operation)} {used : Machine σ}
    (came : (new p h ns w).after history = some used) {first : Operation} (starts : first.Starts)
    (fuel : Nat) (ops : List (Nat × Operation)) :
    used.reset.accounts ((fuel, first) :: ops) =
      (new p h ns w').accounts ((fuel, first) :: ops) := by
  obtain ⟨_, reached⟩ := Reached.new.after came
  obtain ⟨program, host, natives⟩ := reached.reset.fixed
  exact accounts_of_stopped (m := new p h ns w') program host natives rfl rfl steady starts fuel ops

/-- A host that remembers how often it was called, and pauses at every line. -/
def Host.counting : Host Nat where
  enter _ _ n := (.proceed, n + 1)
  leave _ _ n := (.proceed, n + 1)
  line _ _ n := (.pause, n + 1)
  menu _ _ n := n + 1
  finish _ n := n + 1

/-- A fault that leaves something behind in every part of the machine. -/
theorem reset_starts_fresh_after_fault :
    let p : Program :=
      ⟨0, [.enterNode "a", .pushBool true, .storeVariable "x", .pushString "b", .showLine,
      .pushNull, .pushString "c", .pushChoice 0, .pushNull, .showLine]⟩
    let ops : List (Nat × Operation) :=
      [(9, .run), (9, .resume), (9, .choose 0), (0, .reset), (9, .run)]
    ∃ used, (new p .counting [] 0).after [(9, .run), (9, .resume)] = some used ∧
      used.status = .faulted ∧ used.memory = 2 ∧
      used.core = ⟨10, [.nil], ⟨[("x", .boolean true)]⟩, [⟨"c", 0⟩], some "a"⟩ ∧
      used.reset.accounts ((9, .run) :: ops) =
        (new p .counting [] 0).accounts ((9, .run) :: ops) := by
  intro p ops
  have steady : Steady Host.counting [] :=
    ⟨fun _ _ _ _ => rfl, fun _ _ _ _ => rfl, fun _ _ _ _ => rfl, fun _ _ known => by cases known⟩
  have ended : ((new p .counting [] 0).after [(9, .run), (9, .resume)]).map
      (fun m => (m.status, m.memory, m.core)) =
      some (.faulted, 2, ⟨10, [.nil], ⟨[("x", .boolean true)]⟩, [⟨"c", 0⟩], some "a"⟩) := by
    decide +kernel
  obtain ⟨used, came, left⟩ := Option.map_eq_some_iff.mp ended
  obtain ⟨status, memory, core⟩ : used.status = .faulted ∧ used.memory = 2 ∧ used.core = _ := by
    simpa using left
  have starts : Operation.run.Starts := trivial
  exact ⟨used, came, status, memory, core, reset_starts_fresh p steady 0 0 came starts 9 ops⟩

end Dialogue.Machine
