import Dialogue.Proofs.Conduct.Charting

/-!
The stack of a dialogue. No instruction ever finds too little on it; and when functions take what
they are given, there is nothing on it whenever the host gets to see the machine.
-/
namespace Dialogue

namespace Machine
variable {σ : Type} {m m' : Machine σ}

theorem events_of_stop (running : m.status = .running) (stopped : m.step = (.ok .stopped, m')) :
    m.events = [⟨m'.core.view, .finish⟩] := by
  cases effect : m.effect? with
  | none =>
    have beyond : m.program.code[m.core.pc]? = none := Option.map_eq_none_iff.mp effect
    cases (step_beyond running beyond).2.symm.trans stopped
  | some e =>
    rcases step_cases running effect with ⟨_, _, _, step⟩ | ⟨_, _, _, _, _, _, step⟩ |
      ⟨r, o, memory, asks, answer, step⟩
    · cases step.symm.trans stopped
    · cases step.symm.trans stopped
    · obtain ⟨_, c⟩ := e
      cases asks
      cases step.symm.trans stopped
      cases r with
      | finish => exact events_of_request effect nofun
      | nothing | menu => cases answer
      | enter | leave | line | call =>
        rcases ask_signal (by trivial) answer with other | other <;> cases other

end Machine

namespace Conduct
open Machine (Event Host Natives)
open Script

variable {es : List Element} {p : Program} {σ : Type} {host : Host σ} {natives : Natives σ}
variable {memory : σ} {log : List Event} {m m' : Machine σ}

/-- What is kept by the machine of a dialogue without assembly, whatever it is asked to do. -/
theorem kept_of_compile (compiled : compile es = .ok p) (plain : WithoutAssembly es)
    (reached : (Machine.new p host natives memory).Reached log m) :
    let g := setting es p
    let snug := Suited (Calls es) natives
    Kept g snug log ∧ On g snug (Ahead g g.Door) log m :=
  kept_of_reached (charted_of_compile compiled plain) rfl rfl id reached

/-- Only a line of nothing can be shown for want of a value. -/
theorem blank_of_underflow {t : Machine.Trace} {needed found : Nat} (compiled : compile es = .ok p)
    (plain : WithoutAssembly es) (fault : t.fault = .stackUnderflow needed found)
    (failed : Machine.Faults (Machine.new p host natives memory) t m') :
    ∃ e ∈ es, e.block = .paragraph [] := by
  obtain ⟨_, m, before, running, step⟩ := failed
  obtain ⟨kept, on⟩ := kept_of_compile compiled plain before
  obtain ⟨program, _, functions⟩ := before.fixed
  have suited : Suited (Calls es) natives → Suited (Calls es) m.natives := by
    rw [functions]
    exact id
  have charted := charted_of_compile compiled plain
  exact (advances charted program suited kept on running).deep t m' step needed found fault

/-- The machine of a dialogue without assembly, each of whose paragraphs holds something, never
wants for values. When every function takes as many arguments as each of its calls gives it, the
stack is empty, but for the arguments, whenever the host or a function is called, and it is empty
while the machine is paused, while it waits for a choice and when the dialogue has ended. -/
theorem stack_discipline (compiled : compile es = .ok p) (plain : WithoutAssembly es)
    (filled : ∀ e ∈ es, e.block ≠ .paragraph [])
    (reached : (Machine.new p host natives memory).Reached log m) :
    (∀ fuel op t m', m.operate fuel op = some (.error t, m') →
      ∀ needed found, t.fault ≠ .stackUnderflow needed found) ∧
    (Suited (Calls es) natives →
      (∀ e ∈ log, e.view.depth = 0) ∧
      (m.status = .suspended ∨ m.status = .waiting → m.core.stack = []) ∧
      ∀ m', m.status = .running → m.step = (.ok .stopped, m') → m'.core.stack = []) := by
  constructor
  · intro fuel op t m' failed needed found fault
    rcases (reached.operated failed).faults t rfl with refusal | step
    · rcases refusal with ⟨_, _, other⟩ | ⟨_, _, other⟩ <;> cases other.symm.trans fault
    · obtain ⟨e, mem, empty⟩ := blank_of_underflow compiled plain fault step
      exact filled e mem empty
  · intro suited
    have shallow {log : List Event} {m : Machine σ}
        (reached : (Machine.new p host natives memory).Reached log m) :
        ∀ e ∈ log, e.view.depth = 0 := by
      intro e mem
      obtain ⟨before, after, split⟩ := List.append_of_mem mem
      exact ((kept_of_compile compiled plain reached).1.fits split).depth suited
    have on := (kept_of_compile compiled plain reached).2
    refine ⟨shallow reached, ?_, fun m' running stopped => ?_⟩
    · rintro (suspended | waiting)
      · obtain ⟨_, _, agrees⟩ := on.suspended suspended
        exact agrees.bare suited
      · obtain ⟨_, _, _, _, _, agrees⟩ := on.waiting waiting
        exact agrees.bare suited
    · have last := Machine.events_of_stop running stopped
      have depth := shallow (reached.step running) ⟨m'.core.view, .finish⟩ (by
        rw [last]
        exact List.mem_append_right _ List.mem_cons_self)
      exact List.length_eq_zero_iff.mp depth

/-- A function that pauses the machine, called with the value of a conditional. -/
theorem stack_discipline_call :
    let text := "(wave (if true \"a\" \"b\"))".toList
    let es : List Element := [⟨.heading 1 ['A'], default⟩,
      ⟨.fence ⟨text, (⟨text, ""⟩ : Source).whole⟩, default⟩]
    let p : Program :=
      ⟨0, [.enterNode "A", .pushBool true, .jumpIfFalse 5, .pushString "a", .jump 6,
      .pushString "b", .call "wave", .exitNode "A", .endDialogue]⟩
    let natives : Natives Unit := [("wave", ⟨[.string], fun _ _ => (.ok .pause, ())⟩)]
    compile es = .ok p ∧ ∃ r m, (Machine.new p .patient natives ()).run 9 = some (r, m) ∧
      m.status = .suspended ∧ m.core.stack = [] := by
  intro text es p natives
  have compiled : compile es = .ok p := compile_of_toOption (by decide +kernel)
  have forms : ∀ e ∈ es, ∀ t ∈ e.terms, ∀ f ∈ t.applications, Operator.ofName? f.1 = none →
      f.1 = "wave" ∧ f.2.length = 1 := by decide +kernel
  have suited : Suited (Calls es) natives := by
    intro name count ⟨e, mem, t, term, f, form, unknown, named, counted⟩ function found
    obtain ⟨wave, one⟩ := forms e mem t term f form unknown
    rw [← named, wave] at found
    cases found
    exact one.symm.trans counted
  have ended : ((Machine.new p .patient natives ()).run 9).map (fun r => r.2.status) =
      some .suspended := by decide +kernel
  obtain ⟨⟨r, m⟩, run, paused⟩ := Option.map_eq_some_iff.mp ended
  obtain ⟨log, reached⟩ := (Machine.Reached.new.ran run).reached
  have discipline := stack_discipline compiled (by decide +kernel) (by decide) reached
  exact ⟨compiled, r, m, run, paused, (discipline.2 suited).2.1 (Or.inl paused)⟩

end Conduct
end Dialogue
