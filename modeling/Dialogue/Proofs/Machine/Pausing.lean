import Dialogue.Proofs.Machine.Driving

/-!
Pauses cannot be seen. Two hosts that do the same and differ only in when they pause are asked the
same, in the same order, and find the machine in the same state at every halt that is not a pause.
Every instruction has done all it does before the host is asked, and a choice has been made when
the host is told that the node is left.
-/
namespace Dialogue.Machine
variable {σ τ : Type} {R : σ → τ → Prop}

/-- Functions with the same arguments that do the same and fail alike; one may pause where the
other does not. -/
structure Native.Alike (R : σ → τ → Prop) (n : Native σ) (n' : Native τ) : Prop where
  signature : n'.signature = n.signature
  invoke : ∀ arguments w w', R w w' → R (n.invoke arguments w).2 (n'.invoke arguments w').2 ∧
    (n'.invoke arguments w').1.map (fun _ => ()) = (n.invoke arguments w).1.map fun _ => ()

/-- Hosts and functions that do the same, except that they may pause at different times. What one
has in its memory corresponds to what the other has by `R`. -/
structure Alike (R : σ → τ → Prop) (h : Host σ) (h' : Host τ) (ns : Natives σ) (ns' : Natives τ) :
    Prop where
  enter : ∀ view node w w', R w w' → R (h.enter view node w).2 (h'.enter view node w').2
  leave : ∀ view node w w', R w w' → R (h.leave view node w).2 (h'.leave view node w').2
  line : ∀ view text w w', R w w' → R (h.line view text w).2 (h'.line view text w').2
  menu : ∀ view texts w w', R w w' → R (h.menu view texts w) (h'.menu view texts w')
  finish : ∀ view w w', R w w' → R (h.finish view w) (h'.finish view w')
  natives : ∀ name, Option.Rel (Native.Alike R) (ns.lookup name) (ns'.lookup name)

/-- The same state of the same program, with hosts that do the same. -/
structure Twin (R : σ → τ → Prop) (m : Machine σ) (m' : Machine τ) : Prop where
  alike : Alike R m.host m'.host m.natives m'.natives
  program : m'.program = m.program
  core : m'.core = m.core
  status : m'.status = m.status
  memory : R m.memory m'.memory

theorem Alike.lookup {h : Host σ} {h' : Host τ} {ns : Natives σ} {ns' : Natives τ}
    (alike : Alike R h h' ns ns') (name : String) :
    (ns.lookup name = none ∧ ns'.lookup name = none) ∨
      ∃ n n', ns.lookup name = some n ∧ ns'.lookup name = some n' ∧ n.Alike R n' := by
  have related := alike.natives name
  revert related
  generalize ns.lookup name = found, ns'.lookup name = found'
  intro related
  cases related with
  | some same => exact .inr ⟨_, _, rfl, rfl, same⟩
  | none => exact .inl ⟨rfl, rfl⟩

theorem Native.Alike.symm {n : Native σ} {n' : Native τ} (alike : n.Alike R n') :
    n'.Alike (fun w' w => R w w') n := by
  refine ⟨alike.signature.symm, ?_⟩
  intro arguments w' w related
  obtain ⟨after, same⟩ := alike.invoke arguments w w' related
  exact ⟨after, same.symm⟩

theorem Alike.symm {h : Host σ} {h' : Host τ} {ns : Natives σ} {ns' : Natives τ}
    (alike : Alike R h h' ns ns') :
    Alike (fun w' w => R w w') h' h ns' ns where
  enter view node w' w := alike.enter view node w w'
  leave view node w' w := alike.leave view node w w'
  line view text w' w := alike.line view text w w'
  menu view texts w' w := alike.menu view texts w w'
  finish view w' w := alike.finish view w w'
  natives name := by
    rcases alike.lookup name with ⟨none, none'⟩ | ⟨n, n', some, some', same⟩
    · rw [none, none']
      exact .none
    · rw [some, some']
      exact .some same.symm

theorem Alike.signatures {h : Host σ} {h' : Host τ} {ns : Natives σ} {ns' : Natives τ}
    (alike : Alike R h h' ns ns') : ns'.signatures = ns.signatures := by
  funext name
  unfold Natives.signatures
  rcases alike.lookup name with ⟨none, none'⟩ | ⟨n, n', some, some', same⟩
  · rw [none, none']
    rfl
  · rw [some, some', Option.map_some, same.signature]
    rfl

variable {m : Machine σ} {m' : Machine τ}

theorem outcome_awake (s s' : Signal) : s'.outcome.status.awake = s.outcome.status.awake := by
  cases s <;> cases s' <;> rfl

theorem ask_alike (twin : Twin R m m') (r : Request) :
    (m'.ask r).1.map (fun o => o.status.awake) = (m.ask r).1.map (fun o => o.status.awake) ∧
      R (m.ask r).2 (m'.ask r).2 := by
  have view : m'.core.view = m.core.view := by rw [twin.core]
  cases r with
  | nothing => exact ⟨rfl, twin.memory⟩
  | enter node =>
    refine ⟨congrArg Except.ok (outcome_awake _ _), ?_⟩
    change R _ (m'.host.enter m'.core.view node m'.memory).2
    rw [view]
    exact twin.alike.enter _ _ _ _ twin.memory
  | leave node =>
    refine ⟨congrArg Except.ok (outcome_awake _ _), ?_⟩
    change R _ (m'.host.leave m'.core.view node m'.memory).2
    rw [view]
    exact twin.alike.leave _ _ _ _ twin.memory
  | line text =>
    refine ⟨congrArg Except.ok (outcome_awake _ _), ?_⟩
    change R _ (m'.host.line m'.core.view text m'.memory).2
    rw [view]
    exact twin.alike.line _ _ _ _ twin.memory
  | menu texts =>
    refine ⟨rfl, ?_⟩
    change R _ (m'.host.menu m'.core.view texts m'.memory)
    rw [view]
    exact twin.alike.menu _ _ _ _ twin.memory
  | finish =>
    refine ⟨rfl, ?_⟩
    change R _ (m'.host.finish m'.core.view m'.memory)
    rw [view]
    exact twin.alike.finish _ _ _ twin.memory
  | call name arguments =>
    rcases twin.alike.lookup name with ⟨none, none'⟩ | ⟨n, n', some, some', same⟩
    · simp only [ask, none, none']
      exact ⟨trivial, twin.memory⟩
    · simp only [ask, some, some']
      obtain ⟨after, answers⟩ := same.invoke arguments _ _ twin.memory
      rcases answer : n.invoke arguments m.memory with ⟨e | s, w⟩
      · rcases answer' : n'.invoke arguments m'.memory with ⟨e' | s', w'⟩
        · rw [answer, answer'] at after answers
          cases answers
          exact ⟨rfl, after⟩
        · rw [answer, answer'] at answers
          cases answers
      · rcases answer' : n'.invoke arguments m'.memory with ⟨e' | s', w'⟩
        · rw [answer, answer'] at answers
          cases answers
        · rw [answer, answer'] at after
          exact ⟨congrArg Except.ok (outcome_awake s s'), after⟩

theorem effect_alike (twin : Twin R m m') : m'.effect? = m.effect? := by
  rw [effect?, effect?, twin.core, twin.program, twin.alike.signatures]

theorem events_alike (twin : Twin R m m') : m'.events = m.events := by
  rw [events, events, effect_alike twin]

theorem step_alike (twin : Twin R m m') (running : m.status = .running) :
    (m'.step.1.map fun o => Reply.status o.status.awake) =
      (m.step.1.map fun o => Reply.status o.status.awake) ∧
      Twin R m.step.2.awake m'.step.2.awake := by
  obtain ⟨alike, program, core, status, memory⟩ := twin
  have running' := status.trans running
  have signatures := alike.signatures
  have here' : m'.program.code[m'.core.pc]? = m.program.code[m.core.pc]? := by rw [program, core]
  cases here : m.program.code[m.core.pc]? with
  | none =>
    rw [here] at here'
    rw [step_outside running here, step_outside running' here']
    refine ⟨?_, alike, program, core, rfl, memory⟩
    rw [program, core]
  | some i =>
    rw [here] at here'
    rcases executed : ({ m.core with pc := m.core.pc + 1 } : Core).execute m.natives.signatures i
      with ⟨f | r, c⟩
    · have executed' := executed
      rw [← signatures, ← core] at executed'
      rw [step_fails running here executed, step_fails running' here' executed', core]
      exact ⟨rfl, alike, program, rfl, rfl, memory⟩
    · have executed' := executed
      rw [← signatures, ← core] at executed'
      have asked : Twin R { m with core := c } { m' with core := c } :=
        ⟨alike, program, rfl, status, memory⟩
      obtain ⟨answers, after⟩ := ask_alike asked r
      rcases answer : ({ m with core := c } : Machine σ).ask r with ⟨f | o, w⟩
      · rcases answer' : ({ m' with core := c } : Machine τ).ask r with ⟨f' | o', w'⟩
        · rw [answer, answer'] at answers after
          cases answers
          rw [step_refused running here executed answer,
            step_refused running' here' executed' answer', core]
          exact ⟨rfl, alike, program, rfl, rfl, after⟩
        · rw [answer, answer'] at answers
          cases answers
      · rcases answer' : ({ m' with core := c } : Machine τ).ask r with ⟨f' | o', w'⟩
        · rw [answer, answer'] at answers
          cases answers
        · rw [answer, answer'] at answers after
          have same : o'.status.awake = o.status.awake := Except.ok.inj answers
          rw [step_answered running here executed answer,
            step_answered running' here' executed' answer']
          exact ⟨congrArg (Except.ok ∘ Reply.status) same, alike, program, rfl, same, after⟩

/-- Twins answer a menu in the same way, also when one of them pauses at it. -/
theorem answered_alike (twin : Twin R m m') (choice : Choice) :
    Twin R (m.answered choice).awake (m'.answered choice).awake := by
  refine ⟨twin.alike, twin.program, ?_, outcome_awake _ _, ?_⟩
  · change ({ m'.core with pc := choice.target, choices := [] } : Core) = _
    rw [twin.core]
    rfl
  · change R _ (m'.host.leave m'.core.view (m'.core.node?.getD "") m'.memory).2
    rw [twin.core]
    exact twin.alike.leave _ _ _ _ twin.memory

theorem course_alike {origin : Machine σ} {origin' : Machine τ} {answers : List Nat} {k : Nat}
    {log : List Event} {r : Except Trace Reply} (twin : Twin R origin origin')
    (course : Course origin answers k log r m) :
    ∃ m', Course origin' answers k log r m' ∧ Twin R m m' := by
  induction course with
  | run begun =>
    obtain ⟨stopped, rfl⟩ := start_ok begun
    refine ⟨_, .run (start_of_stopped (twin.status.trans stopped)), twin.alike, twin.program, ?_,
      rfl, twin.memory⟩
    rw [twin.program]
  | step before running ih =>
    obtain ⟨m', course, twin⟩ := ih
    obtain ⟨replies, next⟩ := step_alike twin running
    have course := course.step (twin.status.trans running)
    rw [replies, events_alike twin] at course
    exact ⟨_, course, next⟩
  | @answer answers k index log r m choice before waiting there ih =>
    obtain ⟨m', course, twin⟩ := ih
    have next := answered_alike twin choice
    have course := course.answer (twin.status.trans waiting) (by rw [twin.core]; exact there)
    have farewell : m'.farewell = m.farewell := by rw [farewell, farewell, twin.core]
    have status : (m'.answered choice).status.awake = (m.answered choice).status.awake :=
      next.status
    rw [farewell, status] at course
    exact ⟨_, course, next⟩
  | @miss answers k index log r m before waiting missing ih =>
    obtain ⟨m', course, twin⟩ := ih
    have course := course.miss (twin.status.trans waiting) (by rw [twin.core]; exact missing)
    rw [twin.core] at course
    exact ⟨m', course, twin⟩

theorem Twin.symm (twin : Twin R m m') : Twin (fun w' w => R w w') m' m :=
  ⟨twin.alike.symm, twin.program.symm, twin.core.symm, twin.status.symm, twin.memory⟩

section
variable {origin : Machine σ} {origin' : Machine τ} {started : Machine σ} {started' : Machine τ}
  {answers : List Nat} {log : List Event} {r : Except Trace Reply}

theorem hears_alike (twin : Twin R origin origin') (begun : origin.start = (.ok (), started))
    (begun' : origin'.start = (.ok (), started')) (hears : Hears origin answers log) :
    Hears origin' answers log := by
  obtain ⟨k, r, m, course⟩ := (hears_iff begun).mp hears
  obtain ⟨m', course', _⟩ := course_alike twin course
  exact (hears_iff begun').mpr ⟨k, r, m', course'⟩

theorem halts_alike (twin : Twin R origin origin') (begun : origin.start = (.ok (), started))
    (begun' : origin'.start = (.ok (), started')) (halts : Halts origin answers log r m) :
    ∃ m', Halts origin' answers log r m' ∧ Twin R m m' := by
  obtain ⟨halted, k, course⟩ := (halts_iff begun).mp halts
  obtain ⟨m', course', twin'⟩ := course_alike twin course
  rw [← twin'.status] at halted
  exact ⟨m', (halts_iff begun').mpr ⟨halted, k, course'⟩, twin'⟩

end

/-- Two hosts that differ only in when they pause are asked the same after every list of answers,
and if one finds its machine halted and not just paused, so does the other, with the same result
and in the same state. -/
theorem pausing_invisible {h : Host σ} {h' : Host τ} {ns : Natives σ} {ns' : Natives τ} {w : σ}
    {w' : τ} (p : Program) (alike : Alike R h h' ns ns') (related : R w w') (answers : List Nat) :
    (∀ log, Hears (new p h ns w) answers log ↔ Hears (new p h' ns' w') answers log) ∧
    ((∃ log r m, Halts (new p h ns w) answers log r m) ↔
      ∃ log r m, Halts (new p h' ns' w') answers log r m) ∧
    ∀ log log' r r' m m', Halts (new p h ns w) answers log r m →
      Halts (new p h' ns' w') answers log' r' m' →
      log' = log ∧ r' = r ∧ m'.status = m.status ∧ m'.core = m.core ∧ R m.memory m'.memory := by
  have twin : Twin R (new p h ns w) (new p h' ns' w') := ⟨alike, rfl, rfl, rfl, related⟩
  have begun := start_of_stopped (m := new p h ns w) rfl
  have begun' := start_of_stopped (m := new p h' ns' w') rfl
  refine ⟨?_, ?_, ?_⟩
  · intro log
    exact ⟨hears_alike twin begun begun', hears_alike twin.symm begun' begun⟩
  · constructor
    · rintro ⟨log, r, m, halts⟩
      obtain ⟨m', halts', _⟩ := halts_alike twin begun begun' halts
      exact ⟨log, r, m', halts'⟩
    · rintro ⟨log, r, m', halts'⟩
      obtain ⟨m, halts, _⟩ := halts_alike twin.symm begun' begun halts'
      exact ⟨log, r, m, halts⟩
  · intro log log' r r' m m' halts halts'
    obtain ⟨m'', halts'', twin'⟩ := halts_alike twin begun begun' halts
    obtain ⟨rfl, rfl, rfl⟩ := halts''.unique begun' halts'
    exact ⟨rfl, rfl, twin'.status, twin'.core, twin'.memory⟩

/-- A host that remembers nothing and pauses whenever it may. -/
def Host.hesitant : Host Unit where
  enter _ _ _ := (.pause, ())
  leave _ _ _ := (.pause, ())
  line _ _ _ := (.pause, ())
  menu _ _ _ := ()
  finish _ _ := ()

/-- A menu, with a host that also pauses when the node is left by a choice. -/
theorem pausing_invisible_at_choice :
    let p : Program :=
      ⟨0, [.enterNode "a", .pushString "b", .pushChoice 4, .showChoice "a", .enterNode "b",
      .exitNode "b", .endDialogue]⟩
    ∃ log m m', Halts (new p .patient [] ()) [0] log (.ok (.status .stopped)) m ∧
      Halts (new p .hesitant [] ()) [0] log (.ok (.status .stopped)) m' ∧ m'.core = m.core := by
  intro p
  let R : Unit → Unit → Prop := fun _ _ => True
  have related : R () () := trivial
  have alike : Alike R Host.patient Host.hesitant [] [] :=
    ⟨fun _ _ _ _ _ => trivial, fun _ _ _ _ _ => trivial, fun _ _ _ _ _ => trivial,
      fun _ _ _ _ _ => trivial, fun _ _ _ _ => trivial, fun _ => .none⟩
  obtain ⟨_, halts, agree⟩ := pausing_invisible p alike related [0]
  have ended : (((new p .patient [] ()).operate 4 .run).bind fun r =>
    (r.2.operate 3 (.choose 0)).map fun s =>
      (r.2.status, s.1.toOption, s.2.status)) =
        some (.waiting, some (.status .stopped), .stopped) := by
    decide +kernel
  obtain ⟨⟨shown, m⟩, ran, ended⟩ := Option.bind_eq_some_iff.mp ended
  obtain ⟨⟨result, m'⟩, chose, ended⟩ := Option.map_eq_some_iff.mp ended
  obtain ⟨waiting, returned, stopped⟩ : m.status = .waiting ∧
      result.toOption = some (.status .stopped) ∧ m'.status = .stopped := by
    simpa using ended
  have patient : Halts (new p .patient [] ()) [0] _ result m' :=
    ⟨by simp [stopped], _, m, .choose 0, 3, Due.run.choose ran waiting 0, chose, rfl⟩
  obtain ⟨log, result', m'', hesitant⟩ := halts.mp ⟨_, _, _, patient⟩
  obtain ⟨rfl, rfl, _, core, _⟩ := agree _ _ _ _ _ _ patient hesitant
  cases result' with
  | error => cases returned
  | ok reply =>
    cases returned
    exact ⟨_, m', m'', patient, hesitant, core⟩

end Dialogue.Machine
