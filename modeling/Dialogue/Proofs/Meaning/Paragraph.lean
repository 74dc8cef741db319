import Dialogue.Proofs.Conduct.Elements
import Dialogue.Proofs.Conduct.Keeping
import Dialogue.Proofs.Meaning.Expression
import Mathlib.Data.List.Forall2

/-!
What a line says. Each piece of a paragraph has a value, and the code of the paragraph puts their
texts together with the later ones in front, as each piece is joined to those before it by an
operation that puts its right operand first. A piece that stands alone is not joined to anything, so
it is the line itself and has to be a text.
-/
namespace Dialogue

/-- The machine shows a line and thereby comes to the address `stop`. The host is not told of
anything else and decides whether the machine goes on from there; except for that and for the host's
memory the machine is as it was. -/
def Machine.Shows {σ : Type} (stop : Nat) (m : Machine σ) (text : String) : Prop :=
  ∃ n before, Machine.Path (· ≠ stop) n m [] before ∧ before.core.pc ≠ stop ∧
    before.events = [⟨m.core.view, .line text⟩] ∧
    before.step = (.ok (m.host.line m.core.view text m.memory).1.outcome, { m with
      core := { m.core with pc := stop }
      memory := (m.host.line m.core.view text m.memory).2
      status := (m.host.line m.core.view text m.memory).1.outcome.status })

namespace Script
open Meaning (NoValue)
open Machine (Variables)

def Piece.value (store : Variables) (p : Piece) : Except NoValue Value :=
  match p.inline with
  | .text s => pure (.string (String.ofList s))
  | .strong opens => pure (.string (if opens then "<b>" else "</b>"))
  | .emphasis opens => pure (.string (if opens then "<i>" else "</i>"))
  | .code snippet =>
    match Term.read snippet.span with
    | .error _ => .error .noExpression
    | .ok t => Meaning.value store t
  | .link _ _ | .unsupported _ => .error .noExpression

/-- The texts of the pieces of a line, from the last piece to the first. -/
def spliced (vs : List Value) : String :=
  String.join (vs.reverse.map Value.text)

variable {store : Variables} {p : Piece} {ps : List Piece} {v : Value} {vs : List Value}

theorem Piece.term_of_value (known : p.value store = .ok v) :
    ∃ t, p.term? = some t ∧ Meaning.value store t = .ok v := by
  unfold value at known
  unfold term?
  cases kind : p.inline with
  | text | strong | emphasis =>
    rw [kind] at known
    refine ⟨_, rfl, ?_⟩
    rw [Meaning.value]
    exact known
  | code snippet =>
    rw [kind] at known
    dsimp only at known ⊢
    cases read : Term.read snippet.span with
    | error => rw [read] at known; cases known
    | ok t =>
      rw [read] at known
      exact ⟨t, rfl, known⟩
  | link | unsupported => rw [kind] at known; cases known

theorem values_terms (known : List.Forall₂ (fun p v => p.value store = .ok v) ps vs) :
    Meaning.values store (ps.filterMap Piece.term?) = .ok vs := by
  induction known with
  | nil => rfl
  | cons first _ ih =>
    obtain ⟨t, term, worth⟩ := Piece.term_of_value first
    rw [List.filterMap_cons_some term, Meaning.values, worth, ih]
    rfl

theorem spliced_cons (v : Value) (vs : List Value) : spliced (v :: vs) = spliced vs ++ v.text := by
  simp [spliced]

end Script

namespace Meaning
open Conduct (joined)
open Machine (Path Variables)
open Script (Piece onlyLink? spliced)

section
variable {store : Variables} {ts : List Term} {v w : Value} {vs : List Value}

theorem foldValue_concat {s : String} (known : values store ts = .ok vs) :
    foldValue store .concat (.string s) ts = .ok (.string (spliced vs ++ s)) := by
  induction ts generalizing s vs with
  | nil =>
    cases known
    exact congrArg (Except.ok ∘ Value.string) String.empty_append.symm
  | cons t ts ih =>
    obtain ⟨v, us, first, rest, rfl⟩ := values_cons known
    rw [foldValue, first]
    refine (ih rest).trans ?_
    rw [Script.spliced_cons, String.append_assoc]
    rfl

theorem joins : Operator.ofName? "concat" = some .concat :=
  Operator.ofName?_name .concat

theorem value_joined_one (known : values store ts = .ok [v]) : value store (joined ts) = .ok v := by
  obtain ⟨t, rfl⟩ := List.length_eq_one_iff.mp (length_values known).symm
  obtain ⟨w, first, same⟩ := values_one known
  cases same
  rw [joined, value_single joins, first]
  rfl

theorem value_joined (known : values store ts = .ok (v :: w :: vs)) :
    value store (joined ts) = .ok (.string (spliced (v :: w :: vs))) := by
  rcases ts with _ | ⟨t, _ | ⟨u, ts⟩⟩
  · cases known
  · cases length_values known
  · obtain ⟨_, _, first, known, same⟩ := values_cons known
    cases same
    obtain ⟨_, _, second, rest, same⟩ := values_cons known
    cases same
    rw [joined, value_folded joins (by decide) (List.cons_ne_nil u ts), first]
    refine Eq.trans (b := foldValue store .concat v (u :: ts)) rfl ?_
    rw [foldValue, second]
    refine (foldValue_concat rest).trans ?_
    rw [Script.spliced_cons, Script.spliced_cons, String.append_assoc]

end

variable {σ : Type} {m : Machine σ} {stack : List Value} {pc : Nat} {v : Value}

theorem shows_of_code {text : String} {n : Nat} (running : m.status = .running)
    (here : m.program.code[pc]? = some .showLine)
    (path : Path (· ≠ pc + 1) n m [] (m.stand pc (.string text :: m.core.stack) m.state)) :
    m.Shows (pc + 1) text := by
  have effect : (m.stand pc (.string text :: m.core.stack) m.state).effect? =
      some (.ok (.line text), (m.stand (pc + 1) m.core.stack m.state).core) := by
    rw [effect?_stand here, Machine.Core.execute_line rfl]
    rfl
  have events := Machine.events_of_request effect nofun
  refine ⟨n, _, path, Nat.ne_of_lt (Nat.lt_succ_self pc), ?_, ?_⟩
  · exact events
  · exact Machine.step_of_request (m := m.stand pc _ m.state) running effect rfl

theorem fails_of_code {n : Nat} (running : m.status = .running)
    (here : m.program.code[pc]? = some .showLine) (other : v.kind ≠ .string)
    (path : Path (· ≠ pc + 1) n m [] (m.stand pc (v :: m.core.stack) m.state)) :
    ∃ trace, trace.fault = .typeMismatch .string v.kind ∧ m.Fails (pc + 1) [] trace { m with
      core := { m.core with pc := pc + 1 }
      status := .faulted } := by
  have effect : (m.stand pc (v :: m.core.stack) m.state).effect? =
      some (.error (.typeMismatch .string v.kind),
        (m.stand (pc + 1) m.core.stack m.state).core) := by
    rw [effect?_stand here, Machine.Core.execute_line rfl]
    cases v with
    | string => exact absurd rfl other
    | boolean | number | nil | symbol => rfl
  obtain ⟨i, failed⟩ := Machine.step_of_fault (m := m.stand pc _ m.state) running effect
  refine ⟨_, rfl, n, _, [], path, Nat.ne_of_lt (Nat.lt_succ_self pc), failed, ?_⟩
  rw [Machine.events_of_fault effect]
  rfl

/-- Where the code of a paragraph is that is no link: first that of its pieces, joined, and then the
instruction that shows the line. -/
theorem paragraph_code {d d' : Draft} {ps : List Piece} {span : Span} (nonempty : ps ≠ [])
    (plain : onlyLink? ps = none)
    (accepted : d.run (Script.paragraph d.node? ps span) = (.ok (), d'))
    (holds : m.program.Holds d.size (d'.code.drop d.size)) :
    let t := joined (ps.filterMap Piece.term?)
    Form.WellFormed d.node? .expression t ∧
      m.program.Holds d.size ((Form.plan d.node? t).instructions (fun _ => none) d.size) ∧
      m.program.code[d.size + (Form.plan d.node? t).size]? = some .showLine ∧
      d'.size = d.size + (Form.plan d.node? t).size + 1 := by
  intro t
  have builds := Script.builds_paragraph d.node? ps span
  obtain ⟨⟨_, made⟩, high, emitted⟩ := Draft.run_ok builds accepted
  unfold Script.paragraph at made
  unfold Script.paragraphPlan at high emitted
  rw [plain] at made high emitted
  obtain ⟨_, _, _, first, _, _⟩ := Emit.bind_ok made
  obtain ⟨parts, same, terms⟩ := Conduct.pieces_ok first
  obtain ⟨code, size⟩ := Conduct.plan_joined d.node? (terms nonempty) (fun _ => none) d.size
  rw [emitted] at holds
  obtain ⟨line, shows⟩ := Plan.holds_both holds
  rw [same, ← code] at line
  rw [same, ← size] at shows
  rw [Plan.size, same, ← size] at high
  exact ⟨Conduct.wellFormed_joined (terms nonempty) parts, line, Plan.holds_one shows, high⟩

/-- What a paragraph shows that is no link, wherever it is compiled and whatever the machine holds
when it comes there: of several pieces the texts of their values, from the last to the first; of a
piece that stands alone its value, unless that is no text, which is a mismatch. Nothing else is
asked of the host, and nothing but the address has changed in the end. -/
theorem paragraph_shows {d d' : Draft} {ps : List Piece} {span : Span} {vs : List Value}
    (nonempty : ps ≠ []) (plain : onlyLink? ps = none)
    (accepted : d.run (Script.paragraph d.node? ps span) = (.ok (), d'))
    (holds : m.program.Holds d.size (d'.code.drop d.size)) (running : m.status = .running)
    (start : m.core.pc = d.size)
    (known : List.Forall₂ (fun p v => p.value m.core.store = .ok v) ps vs) :
    (2 ≤ ps.length → m.Shows d'.size (spliced vs)) ∧
    (∀ text, vs = [.string text] → m.Shows d'.size text) ∧
    ∀ v, vs = [v] → v.kind ≠ .string →
      ∃ trace, trace.fault = .typeMismatch .string v.kind ∧ m.Fails d'.size [] trace { m with
        core := { m.core with pc := d'.size }
        status := .faulted } := by
  obtain ⟨formed, line, shows, high⟩ := paragraph_code nonempty plain accepted holds
  have worth := Script.values_terms known
  have pushes : Pushes (fun _ => none) d.node? m m.state _ :=
    pushes_of_wellFormed running formed rfl
  have settles := pushes d.size m.core.stack line
  rw [Machine.stand_start start] at settles
  -- The code of the pieces comes to its end with the value of the line on the stack.
  have path {v : Value} (value : value m.core.store (joined (ps.filterMap Piece.term?)) = .ok v) :
      ∃ n, Path (· ≠ d'.size) n m [] (m.stand (d'.size - 1) (v :: m.core.stack) m.state) := by
    change Settles _ m m.state _ m (Meaning.value m.core.store _) at settles
    rw [value] at settles
    obtain ⟨n, path⟩ := settles
    rw [high]
    exact ⟨n, path.mono fun a inside => by have := inside.2; omega⟩
  rw [high, Nat.add_sub_cancel] at path
  rw [high]
  refine ⟨fun two => ?_, fun text one => ?_, fun v one other => ?_⟩
  · rw [known.length_eq] at two
    match vs, two with
    | v :: w :: vs, _ =>
      obtain ⟨n, path⟩ := path (value_joined worth)
      exact shows_of_code running shows path
  · subst one
    obtain ⟨n, path⟩ := path (value_joined_one worth)
    exact shows_of_code running shows path
  · subst one
    obtain ⟨n, path⟩ := path (value_joined_one worth)
    exact fails_of_code running shows other path

/-- A greeting in bold, on a stack that is not empty, and a truth value that stands alone. -/
theorem paragraph_shows_greeting :
    let code (text : String) : Piece :=
      ⟨.code ⟨text.toList, Source.whole ⟨text.toList, ""⟩⟩, default⟩
    let greeting : List Piece := [⟨.text "Dear ".toList, default⟩, ⟨.strong true, default⟩,
      code "(if known name \"guest\")", ⟨.strong false, default⟩]
    let store : Variables := ⟨[("known", .boolean true), ("name", .string "Ann")]⟩
    let d := Draft.empty.emit .endDialogue
    let d' (ps : List Piece) := (d.run (Script.paragraph none ps default)).2
    let m (ps : List Piece) : Machine Unit := ⟨⟨0, (d' ps).code⟩, .patient, [], .running,
      { Machine.Core.start 1 with stack := [.nil], store := store }, ()⟩
    (m greeting).Shows (d' greeting).size "</b>Ann<b>Dear " ∧
      ∃ trace after, (m [code "known"]).Fails (d' [code "known"]).size [] trace after ∧
        trace.fault = .typeMismatch .string .boolean := by
  intro code greeting store d d' m
  have shows (ps : List Piece) (vs : List Value) (nonempty : ps ≠ []) (plain : onlyLink? ps = none)
      (accepted : (d.run (Script.paragraph none ps default)).1 = .ok ())
      (known : List.Forall₂ (fun p v => p.value store = .ok v) ps vs) :=
    paragraph_shows (m := m ps) (d := d) nonempty plain (Prod.ext accepted rfl)
      (Program.holds_drop _ _ _) rfl rfl known
  obtain ⟨line, _⟩ := shows greeting [.string "Dear ", .string "<b>", .string "Ann", .string "</b>"]
    (List.cons_ne_nil _ _) rfl (by decide +kernel)
    (.cons rfl (.cons rfl (.cons (by decide +kernel) (.cons rfl .nil))))
  obtain ⟨_, _, fails⟩ := shows [code "known"] [.boolean true] (List.cons_ne_nil _ _) rfl
    (by decide +kernel) (.cons (by decide +kernel) .nil)
  obtain ⟨trace, fault, fails⟩ := fails _ rfl (by decide)
  exact ⟨line (by decide), trace, _, fails, fault⟩

end Meaning
end Dialogue
