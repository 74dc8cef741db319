import Dialogue.Proofs.Code.Plan
import Dialogue.Proofs.Machine.Reaching

/-!
Staying inside the code. When nothing in a program leads out of it and its last instruction ends the
dialogue, a machine that may still go on is at an instruction, whatever its host asks of it.
-/
namespace Dialogue

/-- Control that is inside the code cannot leave it. -/
structure Program.Sealed (p : Program) : Prop where
  starts : p.start < p.code.length
  leads : ∀ i ∈ p.code, ∀ a, i.address? = some a → a < p.code.length
  ends : p.code.getLast? = some .endDialogue

namespace Machine

namespace Core
variable {c : Core} {i : Instruction} {next : Nat} {known : List Choice} {signatures : Signatures}

/-- Control goes to `next` or where the instruction points, and so do the choices not yet
`known`. -/
structure Near (e : Effect) (i : Instruction) (next : Nat) (known : List Choice) : Prop where
  pc : e.2.pc = next ∨ i.address? = some e.2.pc
  choices : ∀ choice ∈ e.2.choices, choice ∈ known ∨ i.address? = some choice.target
  fault : ∀ address length, e.1 ≠ .error (.outOfBounds address length)

theorem near_same {r : Except Fault Request}
    (fault : ∀ address length, r ≠ .error (.outOfBounds address length)) :
    Near (r, c) i c.pc c.choices :=
  ⟨Or.inl rfl, fun _ mem => Or.inl mem, fault⟩

theorem near_proceed (c : Core) : Near c.proceed i c.pc c.choices :=
  near_same nofun

theorem near_push (c : Core) (v : Value) : Near (c.push v) i c.pc c.choices :=
  near_proceed _

theorem near_fault {f : Fault} (other : ∀ address length, f ≠ .outOfBounds address length) :
    Near (c.fault f) i c.pc c.choices :=
  near_same fun address length same => other address length (Except.error.inj same)

theorem near_pop {k : Value → Core → Effect}
    (rest : ∀ v stack, Near (k v { c with stack := stack }) i c.pc c.choices) :
    Near (c.pop k) i c.pc c.choices := by
  unfold pop
  split
  · exact near_fault nofun
  · exact rest _ _

theorem near_popAs {α : Type} {kind : Kind} {as? : Value → Option α} {k : α → Core → Effect}
    (rest : ∀ a stack, Near (k a { c with stack := stack }) i c.pc c.choices) :
    Near (c.popAs kind as? k) i c.pc c.choices := by
  refine near_pop fun v stack => ?_
  cases as? v with
  | some a => exact rest a stack
  | none => exact near_fault nofun

theorem near_popTwo {α : Type} {kind : Kind} {as? : Value → Option α} (c : Core)
    (f : α → α → Value) : Near (c.popTwo kind as? f) i c.pc c.choices :=
  near_popAs fun y _ => near_popAs fun x _ => near_push _ (f x y)

theorem near_call (c : Core) (name : String) :
    Near (c.call signatures name) i c.pc c.choices := by
  unfold call
  split
  · exact near_fault nofun
  · split
    · exact near_fault nofun
    · dsimp only
      split
      · exact near_fault nofun
      · exact ⟨Or.inl rfl, fun _ mem => Or.inl mem, nofun⟩

theorem near_perform (c : Core) (i : Instruction) :
    Near (c.perform signatures i) i c.pc c.choices := by
  cases i with
  | pushString | pushNumber | pushBool | pushNull | loadVariable => exact near_push c _
  | popValue => exact near_pop fun _ _ => near_proceed _
  | concat | equal =>
    rw [perform]
    refine near_pop fun _ _ => ?_
    exact near_pop fun _ _ => near_push _ _
  | not => exact near_popAs fun _ _ => near_push _ _
  | and | or | greaterThan | lessThan | add | subtract | multiply | divide =>
    exact near_popTwo c _
  | increment | decrement => exact near_popAs fun _ _ => near_push _ _
  | storeVariable =>
    rw [perform]
    refine near_pop fun _ _ => ?_
    exact near_proceed _
  | showLine => exact near_popAs fun _ _ => near_same nofun
  | jump address => exact ⟨Or.inr rfl, fun _ mem => Or.inl mem, nofun⟩
  | jumpIfFalse address =>
    refine near_popAs fun b stack => ?_
    cases b with
    | true => exact near_proceed _
    | false => exact ⟨Or.inr rfl, fun _ mem => Or.inl mem, nofun⟩
  | pushChoice address =>
    refine near_popAs fun s stack => ⟨Or.inl rfl, fun choice mem => ?_, nofun⟩
    rcases List.mem_append.mp mem with before | last
    · exact Or.inl before
    · rw [List.mem_singleton.mp last]
      exact Or.inr rfl
  | showChoice | exitNode | endDialogue => exact near_same nofun
  | enterNode => exact ⟨Or.inl rfl, fun _ mem => Or.inl mem, nofun⟩
  | call name => exact near_call c name

theorem near_execute (signatures : Signatures) (c : Core) (i : Instruction) :
    Near (c.execute signatures i) i c.pc c.choices := by
  unfold execute
  dsimp only
  split
  · exact near_fault nofun
  · exact near_perform c i

end Core

variable {σ : Type} {m m' : Machine σ} {i : Instruction}

theorem ask_within {r : Request} {f : Fault} {memory : σ} (answer : m.ask r = (.error f, memory))
    (address length : Nat) : f ≠ .outOfBounds address length := by
  cases r with
  | call name arguments =>
    unfold ask at answer
    dsimp only at answer
    split at answer
    · cases answer
      nofun
    · split at answer <;> cases answer
      nofun
  | _ => cases answer

theorem step_near (running : m.status = .running) (here : m.program.code[m.core.pc]? = some i) :
    Core.Near (.ok .nothing, m.step.2.core) i (m.core.pc + 1) m.core.choices ∧
    ∀ t, m.step.1 = .error t → ∀ address length, t.fault ≠ .outOfBounds address length := by
  have near := Core.near_execute m.natives.signatures { m.core with pc := m.core.pc + 1 } i
  have core : ∀ e : Effect, Core.Near e i (m.core.pc + 1) m.core.choices →
      Core.Near (.ok .nothing, e.2) i (m.core.pc + 1) m.core.choices :=
    fun e near => ⟨near.pc, near.choices, nofun⟩
  obtain ⟨f, j, failed, step⟩ | ⟨r, f, j, memory, _, answer, step⟩ | ⟨r, o, memory, _, _, step⟩ :=
    step_cases running (effect?_of_code here)
  · rw [step]
    refine ⟨core _ near, fun t same address length out => near.fault address length ?_⟩
    cases same
    rw [failed, ← out]
  · rw [step]
    refine ⟨core _ near, fun t same address length out => ?_⟩
    cases same
    exact ask_within answer address length out
  · rw [step]
    exact ⟨core _ near, fun t same => by cases same⟩

theorem stopped_of_end (running : m.status = .running)
    (here : m.program.code[m.core.pc]? = some .endDialogue) : m.step.2.status = .stopped := by
  have step := step_of_request running (effect?_of_code here) rfl
  rw [step]
  rfl

/-- The machine is at an instruction if it may go on, and so it will be after every choice. -/
structure Within (m : Machine σ) : Prop where
  pc : m.status = .running ∨ m.status = .suspended → m.core.pc < m.program.code.length
  choices : ∀ choice ∈ m.core.choices, choice.target < m.program.code.length

theorem within_step (sealed : m.program.Sealed) (within : m.Within)
    (running : m.status = .running) :
    m.step.2.Within ∧
      ∀ t, m.step.1 = .error t → ∀ address length, t.fault ≠ .outOfBounds address length := by
  have inside := within.pc (Or.inl running)
  have here := List.getElem?_eq_getElem inside
  have target := sealed.leads _ (List.getElem_mem inside)
  obtain ⟨near, fault⟩ := step_near running here
  refine ⟨⟨fun goes => ?_, fun choice mem => ?_⟩, fault⟩
  · rw [(step_fixed m).1]
    rcases near.pc with next | jumped
    · -- Only the last instruction has no other after it, and it ends the run.
      rw [next]
      by_cases last : m.core.pc = m.program.code.length - 1
      · have ends := sealed.ends
        rw [List.getLast?_eq_getElem?, ← last] at ends
        rw [stopped_of_end running ends] at goes
        rcases goes with goes | goes <;> cases goes
      · omega
    · exact target _ jumped
  · rw [(step_fixed m).1]
    rcases near.choices choice mem with before | pointed
    · exact within.choices choice before
    · exact target _ pointed

theorem within_of_halted (halted : m.status ≠ .running ∧ m.status ≠ .suspended)
    (choices : ∀ choice ∈ m.core.choices, choice.target < m.program.code.length) : m.Within :=
  ⟨fun goes => (goes.elim halted.1 halted.2).elim, choices⟩

theorem Reached.within {origin : Machine σ} {log : List Event} (sealed : origin.program.Sealed)
    (fresh : origin.Within) (reached : Reached origin log m) : m.Within := by
  induction reached with
  | new => exact fresh
  | start before begun _ =>
    obtain ⟨_, rfl⟩ := start_ok begun
    refine ⟨fun _ => ?_, nofun⟩
    show _ < List.length _
    rw [before.fixed.1]
    exact sealed.starts
  | step before running within =>
    exact (within_step (by rw [before.fixed.1]; exact sealed) within running).1
  | wake _ suspended within => exact ⟨fun _ => within.pc (Or.inr suspended), within.choices⟩
  | answer _ _ offered within => exact ⟨fun _ => within.choices _ offered, nofun⟩
  | refuse _ within | reset _ within => exact within_of_halted ⟨nofun, nofun⟩ within.choices

end Machine
end Dialogue
