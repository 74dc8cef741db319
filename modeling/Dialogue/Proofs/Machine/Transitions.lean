import Dialogue.Proofs.Machine.Restarting

/-!
The life of a machine. Each operation is accepted in one status only and refused in all others,
and a refusal does nothing but put the machine in error. An operation that is accepted ends where
the host can go on, or at an instruction that failed, and then its trace tells which. Nothing but
a reset leads out of an error.
-/
namespace Dialogue.Machine

/-! The faults of instructions. -/

/-- A fault that an instruction may have; the others are refusals of operations. -/
def Fault.OfInstruction : Fault → Prop
  | .invalidTransition _ _ | .choiceOutOfRange _ _ => False
  | _ => True

namespace Core
variable {c : Core}

def Sound (e : Effect) : Prop :=
  ∀ f, e.1 = .error f → f.OfInstruction

theorem sound_ok (r : Request) (c : Core) : Sound (.ok r, c) :=
  nofun

theorem sound_fault {f : Fault} (c : Core) (ordinary : f.OfInstruction) : Sound (c.fault f) := by
  intro g same
  cases same
  exact ordinary

theorem sound_pop {k : Value → Core → Effect} (rest : ∀ v c, Sound (k v c)) (c : Core) :
    Sound (c.pop k) := by
  unfold pop
  split
  · exact sound_fault _ trivial
  · exact rest _ _

theorem sound_popAs {α : Type} {kind : Kind} {as? : Value → Option α} {k : α → Core → Effect}
    (rest : ∀ a c, Sound (k a c)) (c : Core) : Sound (c.popAs kind as? k) := by
  refine sound_pop (fun v c => ?_) c
  cases as? v with
  | some a => exact rest a c
  | none => exact sound_fault _ trivial

theorem sound_call (signatures : Signatures) (name : String) (c : Core) :
    Sound (c.call signatures name) := by
  unfold call
  split
  · exact sound_fault _ trivial
  · split
    · exact sound_fault _ trivial
    · dsimp only
      split
      · exact sound_fault _ trivial
      · exact sound_ok _ _

theorem sound_perform (signatures : Signatures) (c : Core) (i : Instruction) :
    Sound (c.perform signatures i) := by
  cases i with
  | pushString | pushNumber | pushBool | pushNull | loadVariable | jump | showChoice | enterNode
  | exitNode | endDialogue => exact sound_ok _ _
  | popValue | storeVariable => exact sound_pop (fun _ _ => sound_ok _ _) c
  | concat | equal => exact sound_pop (fun _ => sound_pop fun _ _ => sound_ok _ _) c
  | and | or | greaterThan | lessThan | add | subtract | multiply | divide =>
    exact sound_popAs (fun _ => sound_popAs fun _ _ => sound_ok _ _) c
  | not => exact sound_popAs (fun _ _ => sound_ok _ _) c
  | increment | decrement => exact sound_popAs (fun _ _ => sound_ok _ _) c
  | showLine | pushChoice => exact sound_popAs (fun _ _ => sound_ok _ _) c
  | jumpIfFalse => exact sound_popAs (fun _ _ => sound_ok _ _) c
  | call name => exact sound_call signatures name c

theorem sound_execute (signatures : Signatures) (c : Core) (i : Instruction) :
    Sound (c.execute signatures i) := by
  unfold execute
  dsimp only
  split
  · exact sound_fault _ trivial
  · exact sound_perform signatures c i

end Core

variable {σ : Type} {m m' : Machine σ} {fuel : Nat}

theorem ofInstruction_of_ask {r : Request} {f : Fault} {memory : σ}
    (answer : m.ask r = (.error f, memory)) :
    f.OfInstruction := by
  cases r with
  | call name arguments =>
    unfold ask at answer
    dsimp only at answer
    split at answer
    · cases answer
      trivial
    · split at answer <;> cases answer
      trivial
  | _ => cases answer

/-- The trace tells of an instruction that failed: at which address, which one it was if there is
one, and why. -/
structure Trace.At (t : Trace) (p : Program) (place : Nat) : Prop where
  address : t.address? = some place
  instruction : t.instruction? = p.code[place]?
  fault : t.fault.OfInstruction

theorem step_traced (running : m.status = .running) {t : Trace} (failed : m.step = (.error t, m')) :
    t.At m.program m.core.pc := by
  cases here : m.program.code[m.core.pc]? with
  | none =>
    rw [step_outside running here] at failed
    cases failed
    exact ⟨rfl, here.symm, trivial⟩
  | some i =>
    have sound := Core.sound_execute m.natives.signatures { m.core with pc := m.core.pc + 1 } i
    rcases executed : ({ m.core with pc := m.core.pc + 1 } : Core).execute m.natives.signatures i
      with ⟨f | r, c⟩
    · rw [executed] at sound
      rw [step_fails running here executed] at failed
      cases failed
      exact ⟨rfl, here.symm, sound f rfl⟩
    · rcases answer : ({ m with core := c } : Machine σ).ask r with ⟨f | o, w⟩
      · rw [step_refused running here executed answer] at failed
        cases failed
        exact ⟨rfl, here.symm, ofInstruction_of_ask answer⟩
      · rw [step_answered running here executed answer] at failed
        cases failed

/-! What running instructions comes to. -/

def Status.Settled (s : Status) : Prop :=
  s = .suspended ∨ s = .waiting ∨ s = .stopped

theorem settled_of_halted (halted : m.status ≠ .running) (alive : m.status ≠ .faulted) :
    m.status.Settled := by
  cases status : m.status with
  | suspended => exact .inl rfl
  | waiting => exact .inr (.inl rfl)
  | stopped => exact .inr (.inr rfl)
  | running => exact absurd status halted
  | faulted => exact absurd status alive

/-- Going on from `m`, the machine takes some steps, and the next one fails; `m'` is what is left
of it. -/
def Stumbles (m : Machine σ) (t : Trace) (m' : Machine σ) : Prop :=
  ∃ n asked before, Path (fun _ => True) n m asked before ∧ before.step = (.error t, m') ∧
    t.At m.program before.core.pc

theorem Stumbles.after_step {next : Machine σ} {t : Trace} (stumbles : next.Stumbles t m')
    (stepped : m.step = (.ok .proceeded, next)) : m.Stumbles t m' := by
  obtain ⟨n, asked, before, path, failed, place⟩ := stumbles
  have fixed := m.step_fixed
  rw [stepped] at fixed
  rw [fixed.1] at place
  exact ⟨n + 1, _, before, .step trivial stepped path, failed, place⟩

/-- How a run ends: where the host can go on, or at an instruction that failed. -/
inductive Finishes (m m' : Machine σ) : Except Trace Status → Prop where
  | settled (settled : m'.status.Settled) : Finishes m m' (.ok m'.status)
  | failed {t : Trace} (left : m'.status = .faulted) (stumbles : m.Stumbles t m') :
      Finishes m m' (.error t)

theorem proceed_finishes (alive : m.status ≠ .faulted) {r : Except Trace Status}
    (ended : m.proceed fuel = some (r, m')) : m.Finishes m' r := by
  induction fuel generalizing m with
  | zero =>
    by_cases running : m.status = .running
    · rw [proceed_zero running] at ended
      cases ended
    · rw [proceed_halted running] at ended
      cases ended
      exact .settled (settled_of_halted running alive)
  | succ fuel ih =>
    by_cases running : m.status = .running
    · rcases stepped : m.step with ⟨t | o, next⟩
      · rw [proceed_of_error running stepped] at ended
        cases ended
        exact .failed (step_status_of_error stepped)
          ⟨0, [], m, .stay m, stepped, step_traced running stepped⟩
      · have status := step_status_of_ok stepped
        rw [proceed_of_ok running stepped] at ended
        have alive : next.status ≠ .faulted := by
          rw [status]
          cases o <;> nofun
        cases ih alive ended with
        | settled settled => exact .settled settled
        | failed left stumbles =>
          -- A machine that has halted does not fail, so this step went on.
          by_cases goes : next.status = .running
          · cases o with
            | proceeded => exact .failed left (stumbles.after_step stepped)
            | _ => cases status.symm.trans goes
          · rw [proceed_halted goes] at ended
            cases ended
    · rw [proceed_halted running] at ended
      cases ended
      exact .settled (settled_of_halted running alive)

theorem running_of_unended (unended : m.proceed fuel = none) : m.status = .running := by
  by_cases running : m.status = .running
  · exact running
  · rw [proceed_halted running] at unended
    cases unended

/-- A run that does not come to an end within its bound has taken that many steps and goes on. -/
theorem proceed_unended (unended : m.proceed fuel = none) :
    ∃ asked next, Path (fun _ => True) fuel m asked next ∧ next.status = .running := by
  have running := running_of_unended unended
  induction fuel generalizing m with
  | zero => exact ⟨[], m, .stay m, running⟩
  | succ fuel ih =>
    rcases stepped : m.step with ⟨t | o, next⟩
    · rw [proceed_of_error running stepped] at unended
      cases unended
    · rw [proceed_of_ok running stepped] at unended
      have goes := running_of_unended unended
      have status := step_status_of_ok stepped
      cases o with
      | proceeded =>
        obtain ⟨asked, last, path, still⟩ := ih unended goes
        exact ⟨_, last, .step trivial stepped path, still⟩
      | _ => cases status.symm.trans goes

/-! Operations. -/

/-- What an operation asks of the machine, in the words of a refusal. -/
def Operation.action? : Operation → Option Action
  | .start | .run => some .run
  | .step => some .step
  | .resume => some .resume
  | .choose _ => some .choose
  | .reset => none

/-- The only status in which the machine does what is asked. -/
def Action.due : Action → Status
  | .run => .stopped
  | .step => .running
  | .resume => .suspended
  | .choose => .waiting

/-- The machine as an operation that executes instructions first has it. -/
inductive Begins (m : Machine σ) : Operation → Machine σ → Prop where
  | run : Begins m .run { m with status := .running, core := .start m.program.start }
  | resume : Begins m .resume { m with status := .running }
  | choose {index : Nat} {choice : Choice} (there : m.core.choices[index]? = some choice) :
      Begins m (.choose index) (m.answered choice)

/-- How an operation ends that is not refused. -/
inductive Ends (m m' : Machine σ) : Operation → Except Trace Reply → Prop where
  | started (running : m'.status = .running) : Ends m m' .start (.ok .nothing)
  | halted {op : Operation} {begun : Machine σ} (begins : m.Begins op begun)
      (settled : m'.status.Settled) :
      Ends m m' op (.ok (.status m'.status))
  | failed {op : Operation} {begun : Machine σ} {t : Trace} (begins : m.Begins op begun)
      (left : m'.status = .faulted) (stumbles : begun.Stumbles t m') : Ends m m' op (.error t)
  | stepped {o : Outcome} (agrees : m'.status = o.status) : Ends m m' .step (.ok (.outcome o))
  | stumbled {t : Trace} (left : m'.status = .faulted) (place : t.At m.program m.core.pc) :
      Ends m m' .step (.error t)
  | reset (stopped : m'.status = .stopped) : Ends m m' .reset (.ok .nothing)

/-- An operation that is not due is refused, and so is a choice that is not there, which may be
tried again. Any other ends in one of the ways above, unless it goes on after `fuel`
instructions. -/
structure Regular (fuel : Nat) (m : Machine σ) (op : Operation) : Prop where
  refused : ∀ a, op.action? = some a → m.status ≠ a.due → m.toldBy fuel op = [] ∧
    m.operate fuel op =
      some (.error { fault := .invalidTransition a m.status }, { m with status := .faulted })
  missed : ∀ index, op = .choose index → m.status = .waiting → m.choices.length ≤ index →
    m.toldBy fuel op = [] ∧
      m.operate fuel op = some (.error { fault := .choiceOutOfRange index m.choices.length }, m)
  ends : (∀ a, op.action? = some a → m.status = a.due) →
    (∀ index, op = .choose index → index < m.choices.length) →
      ∀ r m', m.operate fuel op = some (r, m') → m.Ends m' op r
  unended : m.operate fuel op = none → ∃ begun asked next, m.Begins op begun ∧
    Path (fun _ => True) fuel begun asked next ∧ next.status = .running

theorem operate_undue {op : Operation} {a : Action} (asks : op.action? = some a)
    (undue : m.status ≠ a.due) (fuel : Nat) : m.operate fuel op =
      some (.error { fault := .invalidTransition a m.status }, { m with status := .faulted }) := by
  cases op with
  | start | run =>
    cases asks
    have refused : m.start = m.refuse .run := if_pos undue
    simp only [operate, run, refused]
    rfl
  | step =>
    cases asks
    have refused : m.step = m.refuse .step := if_pos undue
    rw [operate, refused]
    rfl
  | resume =>
    cases asks
    have refused : m.resume fuel = some (m.refuse .resume) := if_pos undue
    rw [operate, refused]
    rfl
  | choose index =>
    cases asks
    have refused : m.choose fuel index = some (m.refuse .choose) := if_pos undue
    rw [operate, refused]
    rfl
  | reset => cases asks

theorem toldBy_undue {op : Operation} {a : Action} (asks : op.action? = some a)
    (undue : m.status ≠ a.due) (fuel : Nat) : m.toldBy fuel op = [] := by
  cases op with
  | start | reset => rfl
  | run =>
    cases asks
    have refused : m.start = m.refuse .run := if_pos undue
    have halted : m.start.2.status ≠ .running := by
      rw [refused]
      exact Status.noConfusion
    exact told_halted halted fuel
  | step =>
    cases asks
    exact told_halted undue 1
  | resume =>
    cases asks
    exact if_neg undue
  | choose index =>
    cases asks
    rw [toldBy]
    split
    · exact if_neg undue
    · rfl

theorem ends_of_finishes {op : Operation} {begun : Machine σ} (begins : m.Begins op begun)
    (alive : begun.status ≠ .faulted) {r : Except Trace Reply}
    (ended : (begun.proceed fuel).map (fun r => (r.1.map .status, r.2)) = some (r, m')) :
    m.Ends m' op r := by
  obtain ⟨⟨s, left⟩, proceeded, same⟩ := Option.map_eq_some_iff.mp ended
  cases same
  cases proceed_finishes alive proceeded with
  | settled settled => exact .halted begins settled
  | failed faulted stumbles => exact .failed begins faulted stumbles

theorem operate_ends {op : Operation} (due : ∀ a, op.action? = some a → m.status = a.due)
    (there : ∀ index, op = .choose index → index < m.choices.length) {r : Except Trace Reply}
    (ended : m.operate fuel op = some (r, m')) : m.Ends m' op r := by
  have awake : Status.running ≠ .faulted := by decide
  cases op with
  | start =>
    rw [operate, start_of_stopped (due _ rfl)] at ended
    cases ended
    exact .started rfl
  | run =>
    rw [operate_run (start_of_stopped (due _ rfl))] at ended
    exact ends_of_finishes .run awake ended
  | step =>
    have running := due _ rfl
    rw [operate] at ended
    rcases stepped : m.step with ⟨t | o, next⟩ <;> rw [stepped] at ended <;> cases ended
    · exact .stumbled (step_status_of_error stepped) (step_traced running stepped)
    · exact .stepped (step_status_of_ok stepped)
  | resume =>
    rw [operate_resume (due _ rfl)] at ended
    exact ends_of_finishes .resume awake ended
  | choose index =>
    have inside := there index rfl
    rw [choices, List.length_map] at inside
    have offered := List.getElem?_eq_getElem inside
    rw [operate_choose (due _ rfl) offered] at ended
    have alive (s : Signal) : s.outcome.status ≠ .faulted := by cases s <;> decide
    exact ends_of_finishes (.choose offered) (alive _) ended
  | reset =>
    cases ended
    exact .reset rfl

theorem operate_unended {op : Operation} (unended : m.operate fuel op = none) : ∃ begun asked next,
    m.Begins op begun ∧ Path (fun _ => True) fuel begun asked next ∧ next.status = .running := by
  have due : ∀ a, op.action? = some a → m.status = a.due := by
    intro a asks
    by_cases due : m.status = a.due
    · exact due
    · rw [operate_undue asks due] at unended
      cases unended
  cases op with
  | start | step | reset => cases unended
  | run =>
    rw [operate_run (start_of_stopped (due _ rfl)), Option.map_eq_none_iff] at unended
    obtain ⟨asked, next, path, running⟩ := proceed_unended unended
    exact ⟨_, asked, next, .run, path, running⟩
  | resume =>
    rw [operate_resume (due _ rfl), Option.map_eq_none_iff] at unended
    obtain ⟨asked, next, path, running⟩ := proceed_unended unended
    exact ⟨_, asked, next, .resume, path, running⟩
  | choose index =>
    cases offered : m.core.choices[index]? with
    | none =>
      rw [operate_choose_missing (due _ rfl) offered] at unended
      cases unended
    | some choice =>
      rw [operate_choose (due _ rfl) offered, Option.map_eq_none_iff] at unended
      obtain ⟨asked, next, path, running⟩ := proceed_unended unended
      exact ⟨_, asked, next, .choose offered, path, running⟩

theorem after_of_faulted (faulted : m.status = .faulted) {ops : List (Nat × Operation)}
    (others : ∀ o ∈ ops, o.2 ≠ .reset) : m.after ops = some m := by
  induction ops with
  | nil => rfl
  | cons op ops ih =>
    obtain ⟨fuel, op⟩ := op
    have other := others _ List.mem_cons_self
    obtain ⟨a, asks⟩ : ∃ a, op.action? = some a := by
      cases op with
      | reset => exact absurd rfl other
      | _ => exact ⟨_, rfl⟩
    have undue : m.status ≠ a.due := by
      rw [faulted]
      cases a <;> nofun
    have same : ({ m with status := .faulted } : Machine σ) = m := by rw [← faulted]
    rw [after, operate_undue asks undue fuel, same]
    exact ih fun o inside => others o (List.mem_cons_of_mem _ inside)

/-- Every operation on every machine is regular, and nothing but a reset leads out of an error. -/
theorem operations_regular (m : Machine σ) (fuel : Nat) (op : Operation) :
    m.Regular fuel op ∧
      (m.status = .faulted → ∀ ops : List (Nat × Operation), (∀ o ∈ ops, o.2 ≠ .reset) →
        m.after ops = some m) := by
  constructor
  · constructor
    · intro a asks undue
      exact ⟨toldBy_undue asks undue fuel, operate_undue asks undue fuel⟩
    · intro index chooses waiting missing
      cases chooses
      rw [choices, List.length_map] at missing ⊢
      have nothing := List.getElem?_eq_none missing
      exact ⟨toldBy_choose_missing nothing fuel, operate_choose_missing waiting nothing fuel⟩
    · intro due there r m' ended
      exact operate_ends due there ended
    · exact operate_unended
  · intro faulted ops others
    exact after_of_faulted faulted others

/-- A run that fails at once, after which neither a run nor a choice does anything. -/
theorem operations_regular_after_underflow :
    let m : Machine Unit := new ⟨0, [.popValue]⟩ .patient [] ()
    ∃ left, m.operate 2 .run = some (.error ⟨.stackUnderflow 1 0, some 0, some .popValue⟩, left) ∧
      left.status = .faulted ∧ left.after [(2, .run), (0, .choose 0)] = some left := by
  intro m
  have others : ∀ o ∈ [(2, Operation.run), (0, .choose 0)], o.2 ≠ .reset := by decide
  exact ⟨_, rfl, rfl, (operations_regular _ 2 .run).2 rfl _ others⟩

end Dialogue.Machine
