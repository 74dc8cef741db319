import Dialogue.Proofs.Conduct.Agreement

/-!
A machine keeps to its chart. Whatever it is asked to do, it comes to charted points only, and what
its host is told is in order. Each instruction that can be met at a point is looked at once, without
its host; then it is looked at what the host may answer.
-/
namespace Dialogue

namespace Machine

/-- The host says after such a request whether the machine goes on. -/
def Request.Signals : Request → Prop
  | .enter _ | .leave _ | .line _ | .call _ _ => True
  | _ => False

namespace Core
variable {c : Core} {signatures : Signatures} {v : Value} {rest : List Value}

theorem execute_of_one {i : Instruction} (stack : c.stack = v :: rest)
    (one : i.opcode.stackNeeded = 1) : c.execute signatures i = c.perform signatures i := by
  refine execute_of_deep ?_
  rw [one, stack]
  exact Nat.succ_le_succ (Nat.zero_le _)

theorem execute_store (stack : c.stack = v :: rest) (target : String) :
    c.execute signatures (.storeVariable target) =
      (.ok .nothing, { c with stack := rest, store := c.store.set target v }) := by
  rw [execute_of_one stack rfl]
  simp only [perform, pop, stack, proceed]

theorem execute_line (stack : c.stack = v :: rest) :
    c.execute signatures .showLine = match v with
      | .string s => (.ok (.line s), { c with stack := rest })
      | v => (.error (.typeMismatch .string v.kind), { c with stack := rest }) := by
  rw [execute_of_one stack rfl]
  cases v <;> simp only [perform, popAs, Value.string?, pop, stack, fault]

theorem execute_line_bare (stack : c.stack = []) :
    c.execute signatures .showLine = (.error (.stackUnderflow 1 0), c) := by
  unfold execute
  rw [stack]
  rfl

theorem execute_test (stack : c.stack = v :: rest) (target : Nat) :
    c.execute signatures (.jumpIfFalse target) = match v with
      | .boolean b =>
        (.ok .nothing, { c with pc := if b then c.pc else target, stack := rest })
      | v => (.error (.typeMismatch .boolean v.kind), { c with stack := rest }) := by
  rw [execute_of_one stack rfl]
  cases v with
  | boolean b => cases b <;> simp only [perform, popAs, Value.boolean?, pop, stack, proceed] <;> rfl
  | number | string | nil | symbol => simp only [perform, popAs, Value.boolean?, pop, stack, fault]

theorem execute_choice (stack : c.stack = v :: rest) (target : Nat) :
    c.execute signatures (.pushChoice target) = match v with
      | .string s =>
        (.ok .nothing, { c with stack := rest, choices := c.choices ++ [⟨s, target⟩] })
      | v => (.error (.typeMismatch .string v.kind), { c with stack := rest }) := by
  rw [execute_of_one stack rfl]
  cases v <;> simp only [perform, popAs, Value.string?, pop, stack, proceed, fault]

theorem execute_call_cases (c : Core) (signatures : Signatures) (name : String) :
    (∃ f, c.execute signatures (.call name) = (.error f, c) ∧
      ∀ needed found, f ≠ .stackUnderflow needed found) ∨
    ∃ kinds arguments, signatures name = some kinds ∧ c.execute signatures (.call name) =
      (.ok (.call name arguments), { c with stack := c.stack.drop kinds.length }) := by
  change (∃ f, c.call signatures name = (.error f, c) ∧ _) ∨
    ∃ kinds arguments, _ ∧ c.call signatures name = _
  unfold call
  cases signatures name with
  | none => exact Or.inl ⟨_, rfl, nofun⟩
  | some kinds =>
    dsimp only
    split
    · exact Or.inl ⟨_, rfl, nofun⟩
    · split
      · exact Or.inl ⟨_, rfl, nofun⟩
      · exact Or.inr ⟨kinds, _, rfl, rfl⟩

end Core

variable {σ : Type} {m : Machine σ} {r : Request}

theorem ask_signal (signals : r.Signals) {o : Outcome} {memory : σ}
    (answer : m.ask r = (.ok o, memory)) : o = .proceeded ∨ o = .suspended := by
  have either (s : Signal) : s.outcome = .proceeded ∨ s.outcome = .suspended := by
    cases s
    · exact Or.inl rfl
    · exact Or.inr rfl
  cases r with
  | enter | leave | line => cases answer; exact either _
  | call =>
    simp only [ask] at answer
    split at answer
    · cases answer
    · split at answer
      · cases answer
      · cases answer; exact either _
  | nothing | menu | finish => exact signals.elim

theorem step_beyond (running : m.status = .running)
    (beyond : m.program.code[m.core.pc]? = none) :
    m.events = [] ∧ m.step =
      m.fail ⟨.outOfBounds m.core.pc m.program.code.length, some m.core.pc, none⟩ := by
  constructor
  · simp [events, effect?, beyond]
  · simp [step, running, beyond]

end Machine

namespace Conduct
open Machine (Choice Core Effect Event Natives Outcome Reached Request Trace)

/-- Every function takes as many arguments as it may be called with. -/
def Suited {σ : Type} (calls : String → Nat → Prop) (natives : Natives σ) : Prop :=
  ∀ name count, calls name count → ∀ f, natives.lookup name = some f → f.signature.length = count

/-- An effect after which the machine is still on its chart, however the host answers. -/
inductive Keeps (g : Setting) (snug : Prop) (At : Nat → Point → Prop) (log : List Event) :
    Effect → Prop where
  | fault {f : Machine.Fault} {c : Core}
      (deep : ∀ needed found, f = .stackUnderflow needed found → g.blank) :
      Keeps g snug At log (.error f, c)
  | silent {c : Core} {x : Point} (next : At c.pc x) (agrees : Agrees g snug log x c) :
      Keeps g snug At log (.ok .nothing, c)
  | signal {r : Request} {c : Core} {node? : Option String} (signals : r.Signals)
      (proper : Proper g log c.view r) (next : At c.pc (.idle node?))
      (agrees : Agrees g snug (log ++ [⟨c.view, r⟩]) (.idle node?) c) :
      Keeps g snug At log (.ok r, c)
  | menu {c : Core} {node : String} {offers : List Offer} (allowed : g.menus node offers)
      (agrees : Agrees g snug log ⟨some node, [], offers⟩ c) :
      Keeps g snug At log (.ok (.menu (c.choices.map Choice.text)), c)
  | finish {c : Core} (agrees : Agrees g snug log (.idle none) c) :
      Keeps g snug At log (.ok .finish, c)

variable {g : Setting} {snug : Prop} {At : Nat → Point → Prop} {log : List Event} {x : Point}
variable {node? : Option String} {c : Core} {v : Value} {rest : List Value} {i : Instruction}
variable {signatures : Machine.Signatures}

theorem keeps_signal {r : Request} {c' : Core} (agrees : Agrees g snug log x c)
    (signals : r.Signals) (proper : Proper g log c'.view r) (next : At c'.pc (.idle node?))
    (opened : opens x.node? r = node?) (current : ∀ node, node? = some node → c'.node? = some node)
    (choices : c'.choices = []) (stack : snug → c'.stack = []) :
    Keeps g snug At log (.ok r, c') := by
  refine .signal signals proper next (agrees.asked ?_ opened current stack choices _)
  rintro rfl
  exact signals

theorem keeps_line {held : List Term} (stack : c.stack = v :: rest) (bare : snug → rest = [])
    (agrees : Agrees g snug log ⟨node?, held, []⟩ c) (next : At c.pc (.idle node?)) :
    Keeps g snug At log (c.execute signatures .showLine) := by
  rw [Core.execute_line stack]
  cases v with
  | string s =>
    exact keeps_signal agrees trivial trivial next rfl agrees.current agrees.unchosen bare
  | boolean | number | nil | symbol => exact .fault nofun

/-- A line of nothing shows what a call has left behind, if anything. -/
theorem keeps_blank (allowed : g.blank) (agrees : Agrees g snug log ⟨node?, [], []⟩ c)
    (next : At c.pc (.idle node?)) : Keeps g snug At log (c.execute signatures .showLine) := by
  cases left : c.stack with
  | nil =>
    rw [Core.execute_line_bare left]
    exact .fault fun _ _ _ => allowed
  | cons v rest =>
    refine keeps_line left (fun tight => ?_) agrees next
    rw [agrees.bare tight] at left
    cases left

theorem keeps_call {σ : Type} {natives : Natives σ} {name : String} {ts : List Term}
    (suited : snug → Suited g.calls natives) (allowed : g.calls name ts.length)
    (agrees : Agrees g snug log ⟨node?, ts, []⟩ c) (next : At c.pc (.idle node?)) :
    Keeps g snug At log (c.execute natives.signatures (.call name)) := by
  rcases c.execute_call_cases natives.signatures name with
    ⟨f, failed, shallow⟩ | ⟨kinds, arguments, signature, called⟩
  · rw [failed]
    exact .fault fun needed found deep => (shallow needed found deep).elim
  · rw [called]
    refine keeps_signal agrees trivial trivial next rfl agrees.current agrees.unchosen
      fun tight => ?_
    obtain ⟨f, found, rfl⟩ := Option.map_eq_some_iff.mp signature
    obtain ⟨vs, rest, held, stack, bare⟩ := agrees.stack
    show c.stack.drop f.signature.length = []
    have given : vs.reverse.length = ts.length := by
      rw [List.length_reverse, Meaning.length_values held]
    rw [suited tight name _ allowed f found, stack, bare tight, List.append_nil]
    exact List.drop_eq_nil_of_le (Nat.le_of_eq given)

theorem keeps_act {σ : Type} {natives : Natives σ} (suited : snug → Suited g.calls natives)
    (act : Act g At c.pc x) (agrees : Agrees g snug log x c)
    (found : g.program.code[c.pc]? = some i) :
    Keeps g snug At log (({ c with pc := c.pc + 1 } : Core).execute natives.signatures i) := by
  have further := agrees.moved (c.pc + 1)
  cases act with
  | store here next =>
    cases here.symm.trans found
    obtain ⟨v, rest, _, stack, bare⟩ := further.top
    rw [Core.execute_store stack]
    exact .silent next (agrees.quiet rfl rfl bare)
  | line here next =>
    cases here.symm.trans found
    obtain ⟨v, rest, _, stack, bare⟩ := further.top
    exact keeps_line stack bare further next
  | blank allowed here next =>
    cases here.symm.trans found
    exact keeps_blank allowed further next
  | call allowed here next =>
    cases here.symm.trans found
    exact keeps_call suited allowed further next
  | test here yes no =>
    cases here.symm.trans found
    obtain ⟨v, rest, _, stack, bare⟩ := further.top
    rw [Core.execute_test stack]
    cases v with
    | boolean b =>
      refine .silent ?_ (agrees.quiet rfl rfl bare)
      cases b
      · exact no
      · exact yes
    | number | string | nil | symbol => exact .fault nofun
  | jump here next =>
    cases here.symm.trans found
    exact .silent next (agrees.quiet rfl rfl agrees.bare)
  | @choice node destination t offers target bound here next =>
    cases here.symm.trans found
    obtain ⟨v, rest, known, stack, bare⟩ := further.top
    rw [Core.execute_choice stack]
    cases v with
    | string s =>
      have last : Offered g c.store ⟨t, destination⟩ ⟨s, target⟩ := ⟨known, bound⟩
      exact .silent next ⟨agrees.unfinished, agrees.opened, agrees.current,
        ⟨[], rest, rfl, rfl, bare⟩, List.rel_append agrees.choices (.cons last .nil)⟩
    | boolean | number | nil | symbol => exact .fault nofun
  | menu allowed here =>
    cases here.symm.trans found
    exact .menu allowed further
  | enter here next =>
    cases here.symm.trans found
    exact keeps_signal agrees trivial agrees.opened next rfl (fun _ same => same) agrees.unchosen
      agrees.bare
  | leave here next =>
    cases here.symm.trans found
    exact keeps_signal agrees trivial ⟨agrees.opened, agrees.current _ rfl⟩ next rfl nofun
      agrees.unchosen agrees.bare
  | finish here =>
    cases here.symm.trans found
    exact .finish further
  | off beyond => cases beyond.symm.trans found

variable {σ : Type} {m : Machine σ}

/-- The machine is on its chart again after a step, and the step did not fail for want of values. -/
structure Advances (g : Setting) (snug : Prop) (At : Nat → Point → Prop) (log : List Event)
    (m : Machine σ) : Prop where
  kept : Kept g snug (log ++ m.events)
  on : On g snug At (log ++ m.events) m.step.2
  deep : ∀ t m', m.step = (.error t, m') →
    ∀ needed found, t.fault = .stackUnderflow needed found → g.blank

theorem on_of_halted (halted : m.status = .stopped ∨ m.status = .faulted) :
    On g snug At log m := by
  rcases halted with same | same <;> refine ⟨?_, ?_, ?_⟩ <;> (rw [same]; nofun)

theorem advances_of_fault {t : Trace} {m' : Machine σ} (kept : Kept g snug log)
    (quiet : m.events = []) (failed : m.step = (.error t, m'))
    (deep : ∀ needed found, t.fault = .stackUnderflow needed found → g.blank) :
    Advances g snug At log m := by
  have faulted := m.step_status
  rw [failed] at faulted
  refine ⟨?_, ?_, fun u m'' again => ?_⟩
  · rw [quiet, List.append_nil]
    exact kept
  · rw [failed]
    exact on_of_halted (Or.inr faulted)
  · cases failed.symm.trans again
    exact deep

theorem advances_of_silence {m' : Machine σ} (kept : Kept g snug log) (quiet : m.events = [])
    (first : m.step = (.ok .proceeded, m'))
    (after : Approaches g snug At log m') : Advances g snug At log m := by
  have running : m'.status = .running := by
    have status := m.step_status
    rwa [first] at status
  rw [← List.append_nil log, ← quiet] at after
  refine ⟨?_, ?_, fun t m'' failed => ?_⟩
  · rw [quiet, List.append_nil]
    exact kept
  · rw [first]
    refine ⟨fun _ => after, ?_, ?_⟩ <;> (rw [running]; nofun)
  · cases first.symm.trans failed

theorem advances_of_request {r : Request} (kept : Kept g snug log) (running : m.status = .running)
    (effect : m.effect? = some (.ok r, c)) (asks : r ≠ .nothing)
    (fits : Fits g snug log ⟨c.view, r⟩)
    (answered : ∀ o memory, ({ m with core := c } : Machine σ).ask r = (.ok o, memory) →
      On g snug At (log ++ [⟨c.view, r⟩]) { m with core := c, memory, status := o.status }) :
    Advances g snug At log m := by
  have events := Machine.events_of_request effect asks
  cases answer : ({ m with core := c } : Machine σ).ask r with
  | mk result memory =>
    cases result with
    | ok o =>
      have step := Machine.step_of_request running effect answer
      refine ⟨?_, ?_, fun t m' failed => ?_⟩
      · rw [events]
        exact .next kept fits
      · rw [events, step]
        exact answered o memory answer
      · cases step.symm.trans failed
    | error f =>
      obtain ⟨i, step⟩ := Machine.step_of_refusal running effect answer
      refine ⟨?_, ?_, fun t m' failed needed found deep => ?_⟩
      · rw [events]
        exact .next kept fits
      · rw [step]
        exact on_of_halted (Or.inr rfl)
      · cases step.symm.trans failed
        exact (Machine.ask_shallow answer needed found deep).elim

theorem advances_of_keeps {e : Effect} (kept : Kept g snug log) (running : m.status = .running)
    (effect : m.effect? = some e) (keeps : Keeps g snug At log e) : Advances g snug At log m := by
  cases keeps with
  | fault deep =>
    obtain ⟨i, failed⟩ := Machine.step_of_fault running effect
    exact advances_of_fault kept (Machine.events_of_fault effect) failed deep
  | silent next agrees =>
    have step := Machine.step_of_request running effect rfl
    exact advances_of_silence kept (Machine.events_of_nothing effect) step (.here next agrees)
  | @signal r _ _ signals proper next agrees =>
    have asks : r ≠ .nothing := by
      rintro rfl
      exact signals
    have unfinished : ∀ e ∈ log, e.request ≠ .finish := fun e mem =>
      agrees.unfinished e (List.mem_append_left _ mem)
    refine advances_of_request kept running effect asks ⟨unfinished, ?_, proper⟩ ?_
    · intro tight
      exact List.length_eq_zero_iff.mpr (agrees.bare tight)
    · intro o memory answer
      rcases Machine.ask_signal signals answer with rfl | rfl
      · exact ⟨fun _ => .here next agrees, nofun, nofun⟩
      · exact ⟨nofun, fun _ => ⟨_, next, agrees⟩, nofun⟩
  | @menu c node offers allowed agrees =>
    have proper : Proper g log c.view (.menu (c.choices.map Choice.text)) :=
      ⟨node, offers, agrees.opened, agrees.current _ rfl, allowed, values_of_offered agrees.choices⟩
    refine advances_of_request kept running effect nofun ⟨agrees.unfinished, ?_, proper⟩ ?_
    · intro tight
      exact List.length_eq_zero_iff.mpr (agrees.bare tight)
    · intro o memory answer
      cases answer
      exact ⟨nofun, nofun, fun _ => ⟨log, node, offers, rfl, allowed, agrees.shown _ _⟩⟩
  | finish agrees =>
    refine advances_of_request kept running effect nofun
      ⟨agrees.unfinished, ?_, agrees.opened⟩ ?_
    · intro tight
      exact List.length_eq_zero_iff.mpr (agrees.bare tight)
    · intro o memory answer
      cases answer
      exact on_of_halted (Or.inl rfl)

/-- A machine that is running on its chart takes a step that keeps it there. -/
theorem advances (charted : Charted g At) (program : m.program = g.program)
    (suited : snug → Suited g.calls m.natives) (kept : Kept g snug log) (on : On g snug At log m)
    (running : m.status = .running) : Advances g snug At log m := by
  cases on.running running with
  | silent first quiet rest => exact advances_of_silence kept quiet first rest
  | fails failed quiet mismatch =>
    refine advances_of_fault kept quiet failed fun needed found deep => ?_
    cases mismatch.symm.trans deep
  | here at_point agrees =>
    cases charted.way _ _ at_point with
    | value formed holds next =>
      obtain ⟨quiet, ⟨m', first, after⟩ | ⟨m', t, expected, found, failed, mismatch⟩⟩ :=
        step_to_value running program formed holds next agrees
      · exact advances_of_silence kept quiet first after
      · refine advances_of_fault kept quiet failed fun needed found deep => ?_
        cases mismatch.symm.trans deep
    | act act =>
      cases here : m.program.code[m.core.pc]? with
      | none =>
        obtain ⟨quiet, failed⟩ := Machine.step_beyond running here
        exact advances_of_fault kept quiet failed nofun
      | some i =>
        have effect := Machine.effect?_of_code here
        rw [program] at here
        exact advances_of_keeps kept running effect (keeps_act suited act agrees here)

theorem answers {choice : Choice} (charted : Charted g At) (kept : Kept g snug log)
    (on : On g snug At log m) (waiting : m.status = .waiting) (there : choice ∈ m.core.choices) :
    Kept g snug (log ++ [m.farewell]) ∧
      On g snug At (log ++ [m.farewell]) (m.answered choice) := by
  obtain ⟨before, node, offers, _, _, agrees⟩ := on.waiting waiting
  obtain ⟨i, here⟩ := List.getElem?_of_mem there
  obtain ⟨offer, _, _, bound⟩ := offered_at agrees.choices here
  have current : m.core.node? = some node := agrees.current node rfl
  have farewell : m.farewell = ⟨m.core.view, .leave node⟩ := by
    rw [Machine.farewell, current, Option.getD_some]
  have after : Agrees g snug (log ++ [m.farewell]) (.idle none) (m.answered choice).core := by
    rw [farewell]
    refine agrees.asked ?_ ?_ ?_ ?_ ?_ _
    · nofun
    · rfl
    · nofun
    · exact agrees.bare
    · rfl
  have next : At (m.answered choice).core.pc (.idle none) := (charted.door _ _ bound).2
  constructor
  · rw [farewell]
    refine .next kept ⟨agrees.unfinished, fun tight => ?_, agrees.opened, current⟩
    exact List.length_eq_zero_iff.mpr (agrees.bare tight)
  · have status : (m.answered choice).status =
        (m.host.leave m.core.view (m.core.node?.getD "") m.memory).1.outcome.status := rfl
    cases signal : (m.host.leave m.core.view (m.core.node?.getD "") m.memory).1 with
    | proceed =>
      rw [signal] at status
      exact ⟨fun _ => .here next after, by rw [status]; nofun, by rw [status]; nofun⟩
    | pause =>
      rw [signal] at status
      exact ⟨by rw [status]; nofun, fun _ => ⟨none, next, after⟩, by rw [status]; nofun⟩

/-- Whatever a machine is asked to do, it keeps to its chart. -/
theorem kept_of_reached {origin : Machine σ} (charted : Charted g At)
    (program : origin.program = g.program) (fresh : origin.status = .stopped)
    (suited : snug → Suited g.calls origin.natives) (reached : origin.Reached log m) :
    Kept g snug log ∧ On g snug At log m := by
  induction reached with
  | new => exact ⟨.nil, on_of_halted (Or.inl fresh)⟩
  | @start _ m _ before begun _ =>
    obtain ⟨_, rfl⟩ := Machine.start_ok begun
    refine ⟨.nil, fun _ => .here (x := .idle none) ?_ ?_, nofun, nofun⟩
    · rw [before.fixed.1, program]
      exact charted.start
    · exact agrees_idle nofun rfl nofun (fun _ => rfl) rfl
  | @step _ m before running ih =>
    obtain ⟨same, _, natives⟩ := before.fixed
    rw [← natives] at suited
    have next := advances charted (same.trans program) suited ih.1 ih.2 running
    exact ⟨next.kept, next.on⟩
  | wake _ suspended ih =>
    obtain ⟨node?, next, agrees⟩ := ih.2.suspended suspended
    exact ⟨ih.1, fun _ => .here next agrees, nofun, nofun⟩
  | answer _ waiting there ih => exact answers charted ih.1 ih.2 waiting there
  | refuse _ ih => exact ⟨ih.1, on_of_halted (Or.inr rfl)⟩
  | reset _ ih => exact ⟨ih.1, on_of_halted (Or.inl rfl)⟩

end Conduct
end Dialogue
