import Dialogue.Proofs.Machine.Checking
import Dialogue.Proofs.Meaning.Execution
import Dialogue.Proofs.Script.Layout

/-!
What a function is given. The code of a call pushes its arguments, whatever their number, and the
function takes as many values off the stack as its signature says. So a call with as many arguments
as the function takes is the call that is written and leaves the stack as it was. Of more arguments
the first ones stay on the stack; if there are fewer, the function takes what an earlier call has
left, and only when that is too little is the number of the arguments wrong.
-/
namespace Dialogue

namespace Meaning
open Machine (Path topmost)
open Form (plan)

/-- The values on top are the arguments that were pushed exactly if there are as many. -/
theorem topmost_arguments_iff {count : Nat} {vs stack : List Value}
    (deep : count ≤ (vs.reverse ++ stack).length) :
    topmost count (vs.reverse ++ stack) = vs ∧ (vs.reverse ++ stack).drop count = stack ↔
      count = vs.length := by
  constructor
  · rintro ⟨given, _⟩
    rw [← given, Machine.length_topmost deep]
  · rintro rfl
    have length : vs.length = vs.reverse.length := List.length_reverse.symm
    rw [topmost, length, List.take_left, List.drop_left, List.reverse_reverse]
    exact ⟨rfl, rfl⟩

section
variable {σ : Type} {m : Machine σ} {d d' : Draft} {span place : Span} {name : String}
variable {operands : List Term} {vs : List Value}

theorem wellFormed_arguments {node? : Option String} {k : Class}
    (formed : Form.WellFormed node? k (.list span (.symbol place name :: operands)))
    (unknown : Operator.ofName? name = none) :
    ∀ t ∈ operands, Form.WellFormed node? .expression t := by
  cases formed with
  | call _ parts => exact parts
  | operation other | conditional other | assign other | loop other | sequence other
  | print other | choose other | assembly other => cases other.symm.trans unknown

theorem call_pushes
    (accepted : d.statement (.list span (.symbol place name :: operands)) = (.ok (), d'))
    (unknown : Operator.ofName? name = none)
    (holds : m.program.Holds d.size (d'.code.drop d.size)) (running : m.status = .running)
    (start : m.core.pc = d.size) (known : values m.core.store operands = .ok vs) :
    ∃ n pc, d'.size = pc + 1 ∧ m.program.code[pc]? = some (.call name) ∧
      Path (· ≠ pc + 1) n m [] (m.stand pc (vs.reverse ++ m.core.stack) m.state) := by
  obtain ⟨⟨_, made⟩, high, emitted⟩ := Draft.run_ok (Form.builds_statement d.node? _) accepted
  have formed := Form.wellFormed_of_require (Form.wellFormed_of_walk d.node? _) made
  have parts := wellFormed_arguments formed unknown
  rw [emitted] at holds
  rw [plan, Form.formPlan_call unknown] at holds high
  obtain ⟨pushing, calling⟩ := Plan.holds_both holds
  have pushes : ∀ u ∈ operands, Pushes (fun _ => none) d.node? m m.state u := fun u mem =>
    pushes_of_wellFormed running (parts u mem) rfl
  have settles := settles_series pushes pushing m.core.stack
  rw [Machine.stand_start start] at settles
  change Settles _ m m.state _ m (values m.core.store operands) at settles
  rw [known] at settles
  obtain ⟨n, path⟩ := settles
  refine ⟨n, d.size + (Form.seriesPlan d.node? operands).size, high, Plan.holds_one calling, ?_⟩
  exact path.mono fun a inside => Nat.ne_of_lt (Nat.lt_succ_of_lt inside.2)

/-- Wherever a call of a function is compiled and whatever is on the stack when control comes there,
its code pushes the values of its arguments and then takes the topmost values off the stack, as many
as the function takes. If there are fewer, or one of them is not of its kind, this is the fault and
the function is not called; otherwise it is called with these values and the rest stays on the
stack. These are the arguments that are written, and the stack as it was, exactly if the function
takes as many as there are. -/
theorem call_takes_topmost
    (accepted : d.statement (.list span (.symbol place name :: operands)) = (.ok (), d'))
    (unknown : Operator.ofName? name = none)
    (holds : m.program.Holds d.size (d'.code.drop d.size)) (running : m.status = .running)
    (start : m.core.pc = d.size) (known : values m.core.store operands = .ok vs)
    {f : Machine.Native σ} (found : m.natives.lookup name = some f) :
    let count := f.signature.length
    let stack := vs.reverse ++ m.core.stack
    let core rest : Machine.Core := { m.core with pc := d'.size, stack := rest }
    ∃ n pc, d'.size = pc + 1 ∧ Path (· ≠ d'.size) n m [] (m.stand pc stack m.state) ∧
      (stack.length < count → (m.stand pc stack m.state).effect? =
        some (.error (.arity name count stack.length), core stack)) ∧
      (count ≤ stack.length → (m.stand pc stack m.state).effect? = some
        (match wrongArgument? (topmost count stack) f.signature with
        | some (index, expected, actual) =>
          (.error (.argumentType name index expected actual), core stack)
        | none => (.ok (.call name (topmost count stack)), core (stack.drop count)))) ∧
      (count ≤ stack.length → (topmost count stack = vs ∧ stack.drop count = m.core.stack ↔
        count = operands.length)) := by
  intro count stack core
  obtain ⟨n, pc, high, here, path⟩ := call_pushes accepted unknown holds running start known
  have signature : m.natives.signatures name = some f.signature := by
    simp [Machine.Natives.signatures, found]
  have next (rest : List Value) : (m.stand (pc + 1) rest m.state).core = core rest := by
    show _ = ({ m.core with pc := d'.size, stack := rest } : Machine.Core)
    rw [high]
    rfl
  have effect := effect?_stand here stack m.state
  rw [next] at effect
  refine ⟨n, pc, high, by rw [high]; exact path, fun few => ?_, fun deep => ?_, fun deep => ?_⟩
  · rw [effect]
    exact congrArg some (Machine.execute_refused (.arity found few))
  · rw [effect]
    exact congrArg some (execute_call signature (Machine.length_topmost deep).symm
      (Machine.topmost_append count stack))
  · rw [topmost_arguments_iff deep, length_values known]

end

/-- A function of two values that is given one takes the value below it as well. -/
theorem call_takes_topmost_below :
    let t : Term := .list default [.symbol default "wave", .literal default (.string "b")]
    let d := Draft.empty.emit .endDialogue
    let wave : Machine.Native Unit := ⟨[.string, .string], fun _ _ => (.ok .proceed, ())⟩
    let m : Machine Unit := ⟨⟨0, (d.statement t).2.code⟩, .patient, [("wave", wave)], .running,
      { Machine.Core.start 1 with stack := [.string "a", .nil] }, ()⟩
    ∃ n pc, Path (· ≠ 3) n m [] (m.stand pc [.string "b", .string "a", .nil] m.state) ∧
      (m.stand pc [.string "b", .string "a", .nil] m.state).effect? =
        some (.ok (.call "wave" [.string "a", .string "b"]),
          { Machine.Core.start 3 with stack := [.nil] }) := by
  intro t d wave m
  have accepted : d.statement t = (.ok (), (d.statement t).2) := rfl
  have known : values m.core.store [.literal default (.string "b")] = .ok [.string "b"] := rfl
  have found : m.natives.lookup "wave" = some wave := rfl
  obtain ⟨n, pc, _, path, _, deep, _⟩ :=
    call_takes_topmost accepted rfl (Program.holds_drop _ _ _) rfl rfl known found
  exact ⟨n, pc, path, deep (by decide)⟩

end Meaning

namespace Script
open Machine (Host Natives)

/-- A function of one value is given two and called all the same. The first one stays on the stack,
where the next call, which is given nothing at all, finds it. -/
theorem surplus_is_taken :
    let text := "(do (wave \"a\" \"b\") (wave))".toList
    let es : List Element := [⟨.heading 1 ['A'], default⟩,
      ⟨.fence ⟨text, (⟨text, ""⟩ : Source).whole⟩, default⟩]
    let p : Program := ⟨0, [.enterNode "A", .pushString "a", .pushString "b", .call "wave",
      .call "wave", .exitNode "A", .endDialogue]⟩
    let natives : Natives Unit := [("wave", ⟨[.string], fun _ _ => (.ok .proceed, ())⟩)]
    let m := Machine.new p .patient natives ()
    compile es = .ok p ∧ (m.run 7).map (fun r => r.2.status) = some .stopped ∧
      m.toldBy 7 .run = [⟨⟨some "A", .empty, 0⟩, .enter "A"⟩,
        ⟨⟨some "A", .empty, 1⟩, .call "wave" [.string "b"]⟩,
        ⟨⟨some "A", .empty, 0⟩, .call "wave" [.string "a"]⟩,
        ⟨⟨some "A", .empty, 0⟩, .leave "A"⟩, ⟨⟨some "A", .empty, 0⟩, .finish⟩] := by
  intro text es p natives m
  have compiled : compile es = .ok p := compile_of_toOption (by decide +kernel)
  exact ⟨compiled, by decide +kernel⟩

end Script
end Dialogue
