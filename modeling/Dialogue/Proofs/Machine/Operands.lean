import Dialogue.Proofs.Machine.Telling

/-!
The operands of an instruction. The opcode says how many values it needs. On a stack with fewer of
them it fails before anything has happened; otherwise it takes off just these and puts at most one
value in their place. What lies below them is neither moved nor looked at, so an instruction does
to a deep stack what it does to its operands alone.
-/
namespace Dialogue

/-- How many values an operation that succeeds leaves in place of its operands. -/
def Opcode.results : Opcode → Nat
  | pushString | pushNumber | pushBool | pushNull | loadVariable => 1
  | concat | and | or | not | equal | greaterThan | lessThan => 1
  | add | subtract | multiply | divide | increment | decrement => 1
  | popValue | storeVariable | showLine | jump | jumpIfFalse | pushChoice => 0
  | showChoice | enterNode | exitNode | endDialogue | call => 0

namespace Machine

namespace Core

/-- The core with other values below those on its stack. -/
def atop (c : Core) (below : List Value) : Core :=
  { c with stack := c.stack ++ below }

/-- `e'` is `e` with other values below, and if `e` succeeds, it leaves `count` values. -/
structure Framed (below : List Value) (count : Nat) (e e' : Effect) : Prop where
  result : e'.1 = e.1
  core : e'.2 = e.2.atop below
  left : ∀ r, e.1 = .ok r → e.2.stack.length = count
  deep : ∀ needed found, e.1 ≠ .error (.stackUnderflow needed found)

variable {c : Core} {below : List Value} {count n : Nat} {signatures : Signatures}

theorem framed_ok (r : Request) (length : c.stack.length = count) :
    Framed below count (.ok r, c) (.ok r, c.atop below) where
  result := rfl
  core := rfl
  left _ _ := length
  deep := nofun

theorem framed_push (length : c.stack.length = 0) (v : Value) :
    Framed below 1 (c.push v) ((c.atop below).push v) :=
  framed_ok (c := { c with stack := v :: c.stack }) .nothing (congrArg Nat.succ length)

theorem framed_mismatch (c : Core) (expected found : Kind) :
    Framed below count (c.fault (.typeMismatch expected found))
      ((c.atop below).fault (.typeMismatch expected found)) where
  result := rfl
  core := rfl
  left := nofun
  deep := nofun

theorem framed_pop {k : Value → Core → Effect} (length : c.stack.length = n + 1)
    (rest : ∀ v d, d.stack.length = n → Framed below count (k v d) (k v (d.atop below))) :
    Framed below count (c.pop k) ((c.atop below).pop k) := by
  obtain ⟨pc, stack, store, choices, node?⟩ := c
  cases stack with
  | nil => cases length
  | cons v stack => exact rest v ⟨pc, stack, store, choices, node?⟩ (Nat.succ.inj length)

theorem framed_popAs {α : Type} {kind : Kind} {as? : Value → Option α} {k : α → Core → Effect}
    (length : c.stack.length = n + 1)
    (rest : ∀ a d, d.stack.length = n → Framed below count (k a d) (k a (d.atop below))) :
    Framed below count (c.popAs kind as? k) ((c.atop below).popAs kind as? k) := by
  refine framed_pop length fun v d left => ?_
  cases as? v with
  | some a => exact rest a d left
  | none => exact framed_mismatch d kind v.kind

theorem framed_values (length : c.stack.length = 2) (f : Value → Value → Value) :
    Framed below 1 (c.pop fun y c => c.pop fun x c => c.push (f y x))
      ((c.atop below).pop fun y c => c.pop fun x c => c.push (f y x)) := by
  refine framed_pop length fun y d left => framed_pop left fun x d left => ?_
  exact framed_push left (f y x)

theorem framed_popTwo {α : Type} {kind : Kind} {as? : Value → Option α}
    (length : c.stack.length = 2) (f : α → α → Value) :
    Framed below 1 (c.popTwo kind as? f) ((c.atop below).popTwo kind as? f) := by
  refine framed_popAs length fun y d left => framed_popAs left fun x d left => ?_
  exact framed_push left (f x y)

theorem framed_perform {i : Instruction} (other : i.opcode ≠ .call)
    (exact : c.stack.length = i.opcode.stackNeeded) :
    Framed below i.opcode.results (c.perform signatures i)
      ((c.atop below).perform signatures i) := by
  cases i with
  | pushString | pushNumber | pushBool | pushNull | loadVariable => exact framed_push exact _
  | jump address => exact framed_ok (c := { c with pc := address }) .nothing exact
  | enterNode node => exact framed_ok (c := { c with node? := some node }) (.enter node) exact
  | showChoice | exitNode | endDialogue => exact framed_ok _ exact
  | popValue => exact framed_pop exact fun _ d left => framed_ok .nothing left
  | storeVariable name =>
    exact framed_pop exact fun v d left =>
      framed_ok (c := { d with store := d.store.set name v }) .nothing left
  | concat => exact framed_values exact fun top under => .string (top.text ++ under.text)
  | equal => exact framed_values exact fun y x => .boolean (x.equal y)
  | and | or | greaterThan | lessThan | add | subtract | multiply | divide =>
    exact framed_popTwo exact _
  | not | increment | decrement => exact framed_popAs exact fun _ d left => framed_push left _
  | showLine => exact framed_popAs exact fun s d left => framed_ok (.line s) left
  | pushChoice address =>
    exact framed_popAs exact fun s d left =>
      framed_ok (c := { d with choices := d.choices ++ [⟨s, address⟩] }) .nothing left
  | jumpIfFalse address =>
    refine framed_popAs exact fun b d left => ?_
    cases b with
    | true => exact framed_ok .nothing left
    | false => exact framed_ok (c := { d with pc := address }) .nothing left
  | call => exact absurd rfl other

theorem framed_execute (signatures : Signatures) (below : List Value) {i : Instruction}
    (other : i.opcode ≠ .call) (exact : c.stack.length = i.opcode.stackNeeded) :
    Framed below i.opcode.results (c.execute signatures i)
      ((c.atop below).execute signatures i) := by
  have deeper : i.opcode.stackNeeded ≤ (c.atop below).stack.length := by
    rw [atop, List.length_append]
    omega
  rw [execute_of_deep (Nat.le_of_eq exact.symm), execute_of_deep deeper]
  exact framed_perform other exact

/-- Values of which an operation succeeds when they are all there is on the stack. -/
def sample : Opcode → List Value
  | .popValue | .storeVariable => [.nil]
  | .concat | .equal => [.nil, .nil]
  | .and | .or => [.boolean true, .boolean true]
  | .not | .jumpIfFalse => [.boolean true]
  | .greaterThan | .lessThan | .add | .subtract | .multiply | .divide => [.number 0, .number 0]
  | .increment | .decrement => [.number 0]
  | .showLine | .pushChoice => [.string ""]
  | .pushString | .pushNumber | .pushBool | .pushNull | .loadVariable => []
  | .jump | .showChoice | .enterNode | .exitNode | .endDialogue | .call => []

theorem length_sample (o : Opcode) : (sample o).length = o.stackNeeded := by
  cases o <;> rfl

theorem execute_sample {i : Instruction} (stack : c.stack = sample i.opcode)
    (free : ∀ name, i = .call name → signatures name = some []) :
    ∃ r c', c.execute signatures i = (.ok r, c') := by
  obtain ⟨pc, stack, store, choices, node?⟩ := c
  subst stack
  cases i with
  | call name =>
    have signature := free name rfl
    refine ⟨.call name [], ⟨pc, [], store, choices, node?⟩, ?_⟩
    show call signatures name _ = _
    unfold call
    rw [signature]
    rfl
  | _ => exact ⟨_, _, rfl⟩

theorem framed_of_stack (signatures : Signatures) {i : Instruction} {operands : List Value}
    (other : i.opcode ≠ .call) (stack : c.stack = operands ++ below)
    (exact : operands.length = i.opcode.stackNeeded) :
    Framed below i.opcode.results (({ c with stack := operands } : Core).execute signatures i)
      (c.execute signatures i) := by
  have whole : ({ c with stack := operands } : Core).atop below = c := by
    rw [atop, ← stack]
  have framed := framed_execute signatures below (c := { c with stack := operands }) other exact
  rwa [whole] at framed

end Core

variable {σ : Type} {m : Machine σ} {i : Instruction}

/-- Whatever instruction other than a call a machine comes to: with fewer values on the stack than
its opcode needs it fails, tells nobody and changes nothing. With enough of them it never fails
for want of values; all that it does, also when it fails, comes of its operands alone, and when it
succeeds, they are gone and at most one value has taken their place. No opcode needs a value too
many: there are operands with which an instruction succeeds when the stack holds nothing else. -/
theorem operands_exact (running : m.status = .running)
    (here : m.program.code[m.core.pc]? = some i) (other : i.opcode ≠ .call) :
    let needed := i.opcode.stackNeeded
    let stack := m.core.stack
    let next : Core := { m.core with pc := m.core.pc + 1 }
    (stack.length < needed → m.events = [] ∧
      m.step = (.error ⟨.stackUnderflow needed stack.length, some m.core.pc, some i⟩,
        { m with core := next, status := .faulted })) ∧
    (needed ≤ stack.length →
      (∀ t m', m.step = (.error t, m') → ∀ n found, t.fault ≠ .stackUnderflow n found) ∧
      (∀ operands below, stack = operands ++ below → operands.length = needed →
        let alone := ({ next with stack := operands } : Core).execute m.natives.signatures i
        m.effect? = some (alone.1, alone.2.atop below)) ∧
      ∀ o m', m.step = (.ok o, m') → ∃ results : List Value,
        results.length = i.opcode.results ∧ m'.core.stack = results ++ stack.drop needed) ∧
    ∀ o : Opcode, ∃ operands : List Value, operands.length = o.stackNeeded ∧
      ∀ (j : Instruction) (c : Core) (signatures : Signatures), j.opcode = o → c.stack = operands →
        (∀ name, j = .call name → signatures name = some []) →
        ∃ r c', c.execute signatures j = (.ok r, c') := by
  intro needed stack next
  have effect : m.effect? = some (next.execute m.natives.signatures i) := effect?_of_code here
  refine ⟨fun few => ?_, fun enough => ?_, fun o => ⟨Core.sample o, Core.length_sample o, ?_⟩⟩
  · have shallow : next.execute m.natives.signatures i =
        (.error (.stackUnderflow needed stack.length), next) := Core.execute_of_shallow few
    rw [shallow] at effect
    exact ⟨events_of_fault effect, step_fails running here shallow⟩
  · have framed (operands below : List Value) (whole : stack = operands ++ below)
        (exact : operands.length = needed) :=
      Core.framed_of_stack (c := next) m.natives.signatures other whole exact
    obtain ⟨result, core, left, deep⟩ := framed (stack.take needed) (stack.drop needed)
      (List.take_append_drop needed stack).symm (List.length_take_of_le enough)
    refine ⟨fun t m' failed => ?_, fun operands below whole exact => ?_, fun o m' stepped => ?_⟩
    · rcases step_cases running effect with
        ⟨f, _, fault, step⟩ | ⟨_, f, _, _, _, answer, step⟩ | ⟨_, _, _, _, _, step⟩
      · cases step.symm.trans failed
        intro n found same
        refine deep n found ?_
        rw [← result, fault]
        exact congrArg Except.error same
      · cases step.symm.trans failed
        exact ask_shallow answer
      · cases step.symm.trans failed
    · have same := framed operands below whole exact
      rw [effect]
      exact congrArg some (Prod.ext same.result same.core)
    · rcases step_cases running effect with
        ⟨_, _, _, step⟩ | ⟨_, _, _, _, _, _, step⟩ | ⟨r, _, _, done, _, step⟩
      · cases step.symm.trans stepped
      · cases step.symm.trans stepped
      · cases step.symm.trans stepped
        exact ⟨_, left r (result.symm.trans done), congrArg Core.stack core⟩
  · intro j c signatures same full free
    subst same
    exact Core.execute_sample full free

/-- One value is too few for a conjunction. The lower of two is no truth value, and what is below
them stays where it is. -/
theorem operands_exact_conjunction :
    let m (stack : List Value) : Machine Unit :=
      ⟨⟨0, [.and]⟩, .patient, [], .running, { Core.start 0 with stack := stack }, ()⟩
    (m [.nil]).step = (.error ⟨.stackUnderflow 2 1, some 0, some .and⟩,
        { m [.nil] with core := { Core.start 1 with stack := [.nil] }, status := .faulted }) ∧
      (m [.boolean true, .nil, .string "below"]).effect? =
        some (.error (.typeMismatch .boolean .nil),
          { Core.start 1 with stack := [.string "below"] }) := by
  intro m
  have few := (operands_exact (m := m [.nil]) rfl rfl (by decide)).1 (by decide)
  have enough := (operands_exact (m := m [.boolean true, .nil, .string "below"]) rfl rfl
    (by decide)).2.1 (by decide)
  exact ⟨few.2, enough.2.1 [.boolean true, .nil] [.string "below"] rfl rfl⟩

end Machine
end Dialogue
