import Mathlib.Data.List.Forall2
import Dialogue.Proofs.Code.Accepted
import Dialogue.Proofs.Conduct.Record
import Dialogue.Proofs.Machine.Reaching

/-!
A machine on a chart. Between two statements or operands the machine agrees with a charted point.
While a value is worked out it is on its way to such a point: it comes there in silence, or it fails
by a mismatch.
-/
namespace Dialogue.Conduct
open Machine (Choice Core Event Path Request Trace Variables View)
open Meaning (value values)
open Form (WellFormed plan)

def Offered (g : Setting) (store : Variables) (offer : Offer) (choice : Choice) : Prop :=
  value store offer.text = .ok (.string choice.text) ∧
    g.resolve offer.destination = some choice.target

/-- What is certain at a point holds of the core, after the events of `log`. -/
structure Agrees (g : Setting) (snug : Prop) (log : List Event) (x : Point) (c : Core) : Prop where
  unfinished : ∀ e ∈ log, e.request ≠ .finish
  opened : openNode log = x.node?
  current : ∀ node, x.node? = some node → c.node? = some node
  stack : ∃ vs rest, values c.store x.held = .ok vs ∧ c.stack = vs.reverse ++ rest ∧
    (snug → rest = [])
  choices : List.Forall₂ (Offered g c.store) x.offers c.choices

section
variable {store : Variables}

theorem values_of_offered {g : Setting} {offers : List Offer} {choices : List Choice}
    (offered : List.Forall₂ (Offered g store) offers choices) :
    values store (offers.map Offer.text) =
      .ok ((choices.map Choice.text).map Value.string) := by
  induction offered with
  | nil => rfl
  | cons first _ ih =>
    rw [List.map_cons, values, first.1, ih]
    rfl

theorem offered_at {g : Setting} {offers : List Offer} {choices : List Choice} {choice : Choice}
    {i : Nat} (offered : List.Forall₂ (Offered g store) offers choices)
    (there : choices[i]? = some choice) :
    ∃ offer, offers[i]? = some offer ∧ Offered g store offer choice := by
  induction offered generalizing i with
  | nil => cases there
  | @cons offer _ _ _ first _ ih =>
    cases i with
    | zero =>
      cases there
      exact ⟨offer, rfl, first⟩
    | succ i => exact ih there

end

variable {g : Setting} {snug : Prop} {log : List Event} {node? : Option String} {x : Point}
variable {c c' : Core} {t : Term} {v : Value} {At : Nat → Point → Prop}

theorem agrees_idle (unfinished : ∀ e ∈ log, e.request ≠ .finish) (opened : openNode log = node?)
    (current : ∀ node, node? = some node → c.node? = some node) (stack : snug → c.stack = [])
    (choices : c.choices = []) : Agrees g snug log (.idle node?) c :=
  ⟨unfinished, opened, current, ⟨[], c.stack, rfl, rfl, stack⟩, by rw [choices]; exact .nil⟩

namespace Agrees

theorem top {offers : List Offer} (agrees : Agrees g snug log ⟨node?, [t], offers⟩ c) :
    ∃ v rest, value c.store t = .ok v ∧ c.stack = v :: rest ∧ (snug → rest = []) := by
  obtain ⟨vs, rest, held, stack, bare⟩ := agrees.stack
  obtain ⟨v, known, rfl⟩ := Meaning.values_one held
  exact ⟨v, rest, known, stack, bare⟩

theorem bare {offers : List Offer} (agrees : Agrees g snug log ⟨node?, [], offers⟩ c)
    (tight : snug) : c.stack = [] := by
  obtain ⟨vs, rest, held, stack, bare⟩ := agrees.stack
  cases held
  rw [stack, bare tight]
  rfl

theorem unchosen {held : List Term} (agrees : Agrees g snug log ⟨node?, held, []⟩ c) :
    c.choices = [] :=
  List.forall₂_nil_left_iff.mp agrees.choices

theorem hold (agrees : Agrees g snug log x c) (known : value c.store t = .ok v) (pc : Nat) :
    Agrees g snug log (x.hold t) { c with pc := pc, stack := v :: c.stack } := by
  refine ⟨agrees.unfinished, agrees.opened, agrees.current, ?_, agrees.choices⟩
  obtain ⟨vs, rest, held, stack, bare⟩ := agrees.stack
  refine ⟨vs ++ [v], rest, Meaning.values_concat held known, ?_, bare⟩
  rw [stack, List.reverse_append]
  rfl

theorem quiet {held : List Term} (agrees : Agrees g snug log ⟨node?, held, []⟩ c)
    (node : c'.node? = c.node?) (choices : c'.choices = c.choices) (stack : snug → c'.stack = []) :
    Agrees g snug log (.idle node?) c' := by
  refine agrees_idle agrees.unfinished agrees.opened ?_ stack (choices.trans agrees.unchosen)
  rw [node]
  exact agrees.current

theorem moved (agrees : Agrees g snug log x c) (pc : Nat) :
    Agrees g snug log x { c with pc := pc } :=
  ⟨agrees.unfinished, agrees.opened, agrees.current, agrees.stack, agrees.choices⟩

theorem unfinished_next {r : Request} (agrees : Agrees g snug log x c) (going : r ≠ .finish)
    (view : View) : ∀ e ∈ log ++ [⟨view, r⟩], e.request ≠ .finish := by
  intro e mem
  rcases List.mem_append.mp mem with before | last
  · exact agrees.unfinished e before
  · rw [List.mem_singleton.mp last]
    exact going

theorem asked {r : Request} (agrees : Agrees g snug log x c) (going : r ≠ .finish)
    (opened : opens x.node? r = node?)
    (current : ∀ node, node? = some node → c'.node? = some node) (stack : snug → c'.stack = [])
    (choices : c'.choices = []) (view : View) :
    Agrees g snug (log ++ [⟨view, r⟩]) (.idle node?) c' := by
  refine agrees_idle (agrees.unfinished_next going view) ?_ current stack choices
  rw [openNode_next, agrees.opened]
  exact opened

theorem shown (agrees : Agrees g snug log x c) (view : View) (texts : List String) :
    Agrees g snug (log ++ [⟨view, .menu texts⟩]) x c := by
  have going : Request.menu texts ≠ .finish := nofun
  refine ⟨agrees.unfinished_next going view, ?_, agrees.current, agrees.stack, agrees.choices⟩
  rw [openNode_next]
  exact agrees.opened

end Agrees

variable {σ : Type} {m m' : Machine σ}

/-- In silence the machine comes to a charted point, or it fails on the way. -/
inductive Approaches (g : Setting) (snug : Prop) (At : Nat → Point → Prop) (log : List Event) :
    Machine σ → Prop where
  | here {m : Machine σ} {x : Point} (at_point : At m.core.pc x)
      (agrees : Agrees g snug log x m.core) : Approaches g snug At log m
  | silent {m m' : Machine σ} (first : m.step = (.ok .proceeded, m')) (quiet : m.events = [])
      (rest : Approaches g snug At log m') : Approaches g snug At log m
  | fails {m m' : Machine σ} {t : Trace} {expected found : Kind} (failed : m.step = (.error t, m'))
      (quiet : m.events = []) (mismatch : t.fault = .typeMismatch expected found) :
      Approaches g snug At log m

/-- A machine between two steps or between two operations. -/
structure On (g : Setting) (snug : Prop) (At : Nat → Point → Prop) (log : List Event)
    (m : Machine σ) : Prop where
  running : m.status = .running → Approaches g snug At log m
  suspended : m.status = .suspended →
    ∃ node?, At m.core.pc (.idle node?) ∧ Agrees g snug log (.idle node?) m.core
  waiting : m.status = .waiting → ∃ before node offers,
    log = before ++ [⟨m.core.view, .menu m.choices⟩] ∧ g.menus node offers ∧
      Agrees g snug log ⟨some node, [], offers⟩ m.core

theorem approaches_of_path {allowed : Nat → Prop} {n : Nat} {es : List Event}
    (path : Path allowed n m es m') (quiet : es = []) (after : Approaches g snug At log m') :
    Approaches g snug At log m := by
  induction path with
  | stay => exact after
  | step _ first _ ih =>
    obtain ⟨now, later⟩ := List.append_eq_nil_iff.mp quiet
    exact .silent first now (ih later after)

theorem first_of_path {allowed : Nat → Prop} {n : Nat} {es : List Event}
    (path : Path allowed (n + 1) m es m') (quiet : es = []) (after : Approaches g snug At log m') :
    m.events = [] ∧ ∃ next, m.step = (.ok .proceeded, next) ∧ Approaches g snug At log next := by
  cases path with
  | step _ first rest =>
    obtain ⟨now, later⟩ := List.append_eq_nil_iff.mp quiet
    exact ⟨now, _, first, approaches_of_path rest later after⟩

/-- Where a value comes next, the machine takes a silent step towards it or fails at once. -/
theorem step_to_value (running : m.status = .running) (program : m.program = g.program)
    (formed : WellFormed x.node? .expression t)
    (holds : g.program.Holds m.core.pc ((plan x.node? t).instructions g.resolve m.core.pc))
    (next : At (m.core.pc + (plan x.node? t).size) (x.hold t))
    (agrees : Agrees g snug log x m.core) :
    m.events = [] ∧
      ((∃ m', m.step = (.ok .proceeded, m') ∧ Approaches g snug At log m') ∨
        ∃ m' trace expected found, m.step = (.error trace, m') ∧
          trace.fault = .typeMismatch expected found) := by
  have room := Form.size_pos_of_wellFormed formed rfl
  have pushes : Meaning.Pushes g.resolve x.node? m m.state t :=
    Meaning.pushes_of_wellFormed running formed rfl
  have settles := pushes m.core.pc m.core.stack (by rw [program]; exact holds)
  rw [m.stand_self] at settles
  cases known : value m.core.store t with
  | ok v =>
    change Meaning.Settles _ m m.state _ m (value m.core.store t) at settles
    rw [known] at settles
    obtain ⟨n, path⟩ := settles
    cases n with
    | zero =>
      -- The code of an expression is not empty, so control cannot be at its end already.
      have same := congrArg (fun m => m.core.pc) path.stays.2
      change m.core.pc + _ = m.core.pc at same
      omega
    | succ n =>
      obtain ⟨quiet, m', first, after⟩ := first_of_path path rfl (.here next (agrees.hold known _))
      exact ⟨quiet, Or.inl ⟨m', first, after⟩⟩
  | error reason =>
    change Meaning.Settles _ m m.state _ m (value m.core.store t) at settles
    rw [known] at settles
    cases reason with
    | noExpression => exact settles.elim
    | mismatch expected found =>
      obtain ⟨n, y, pc, stack, trace, path, _, quiet, failed, fault⟩ := settles
      cases n with
      | zero =>
        obtain ⟨_, rfl⟩ := path.stays
        exact ⟨quiet, Or.inr ⟨_, trace, expected, found, failed, fault⟩⟩
      | succ n =>
        obtain ⟨now, m', first, after⟩ := first_of_path path rfl (.fails failed quiet fault)
        exact ⟨now, Or.inl ⟨m', first, after⟩⟩

end Dialogue.Conduct
