import Dialogue.Proofs.Machine.Telling

/-!
What a call of a function checks. Before anything is taken off the stack it is seen whether there
is such a function, whether the stack is deep enough for it, and whether each of its arguments is
of the kind it takes, the lowest one first. A call that is refused leaves everything as it was;
one that is not hands over the arguments, once, and they are gone from the stack whatever the
function answers.
-/
namespace Dialogue.Machine

/-- The values that a function takes, the lowest one first. -/
def topmost (count : Nat) (stack : List Value) : List Value :=
  (stack.take count).reverse

theorem topmost_append (count : Nat) (stack : List Value) :
    stack = (topmost count stack).reverse ++ stack.drop count := by
  rw [topmost, List.reverse_reverse, List.take_append_drop]

theorem length_topmost {count : Nat} {stack : List Value} (deep : count ≤ stack.length) :
    (topmost count stack).length = count := by
  rw [topmost, List.length_reverse, List.length_take_of_le deep]

/-- The argument at `index` is not of the kind that is expected there, and those before it are. -/
structure FirstMismatch (arguments : List Value) (kinds : List Kind) (index : Nat)
    (expected found : Kind) : Prop where
  expects : kinds[index]? = some expected
  finds : (arguments.map Value.kind)[index]? = some found
  differs : found ≠ expected
  before : ∀ k < index, (arguments.map Value.kind)[k]? = kinds[k]?

/-- Why a call is refused, on a stack whose topmost value comes first. -/
inductive Refused {σ : Type} (natives : Natives σ) (name : String) (stack : List Value) :
    Fault → Prop where
  | unknown (missing : natives.lookup name = none) :
      Refused natives name stack (.unknownFunction name)
  | arity {f : Native σ} (found : natives.lookup name = some f)
      (few : stack.length < f.signature.length) :
      Refused natives name stack (.arity name f.signature.length stack.length)
  | argument {f : Native σ} (found : natives.lookup name = some f)
      (enough : f.signature.length ≤ stack.length) {index : Nat} {expected actual : Kind}
      (wrong : FirstMismatch (topmost f.signature.length stack) f.signature index expected actual) :
      Refused natives name stack (.argumentType name index expected actual)

def Reports {σ : Type} (m : Machine σ) (fault : Fault) : Prop :=
  ∃ t m', m.step = (.error t, m') ∧ t.fault = fault

section
variable {v : Value} {vs : List Value} {k kind expected found : Kind} {kinds : List Kind}
  {index : Nat}

theorem firstMismatch_here (differs : v.kind ≠ kind) :
    FirstMismatch (v :: vs) (kind :: kinds) index expected found ↔
      index = 0 ∧ expected = kind ∧ found = v.kind := by
  constructor
  · rintro ⟨expects, finds, _, before⟩
    cases index with
    | zero => exact ⟨rfl, (Option.some.inj expects).symm, (Option.some.inj finds).symm⟩
    | succ index => exact absurd (Option.some.inj (before 0 (Nat.zero_lt_succ index))) differs
  · rintro ⟨rfl, rfl, rfl⟩
    exact ⟨rfl, rfl, differs, nofun⟩

theorem firstMismatch_later (same : v.kind = kind) :
    FirstMismatch (v :: vs) (kind :: kinds) index expected found ↔
      ∃ later, index = later + 1 ∧ FirstMismatch vs kinds later expected found := by
  constructor
  · rintro ⟨expects, finds, differs, before⟩
    cases index with
    | zero =>
      cases expects
      cases finds
      exact absurd same differs
    | succ index =>
      refine ⟨index, rfl, expects, finds, differs, fun k earlier => ?_⟩
      exact before (k + 1) (Nat.succ_lt_succ earlier)
  · rintro ⟨index, rfl, expects, finds, differs, before⟩
    refine ⟨expects, finds, differs, fun k earlier => ?_⟩
    cases k with
    | zero => exact congrArg some same
    | succ k => exact before k (Nat.lt_of_succ_lt_succ earlier)

theorem mismatch?_eq_some_iff {n : Nat} :
    Core.mismatch? n vs kinds = some (index, expected, found) ↔
      ∃ later, index = n + later ∧ FirstMismatch vs kinds later expected found := by
  induction vs generalizing n kinds with
  | nil =>
    refine ⟨nofun, ?_⟩
    rintro ⟨_, _, _, finds, _, _⟩
    cases finds
  | cons v vs ih =>
    cases kinds with
    | nil =>
      refine ⟨nofun, ?_⟩
      rintro ⟨_, _, expects, _, _, _⟩
      cases expects
    | cons kind kinds =>
      rw [Core.mismatch?]
      by_cases same : v.kind = kind
      · rw [if_pos same, ih]
        simp only [firstMismatch_later same]
        constructor
        · rintro ⟨later, rfl, first⟩
          exact ⟨later + 1, by omega, later, rfl, first⟩
        · rintro ⟨_, rfl, later, rfl, first⟩
          exact ⟨later, by omega, first⟩
      · rw [if_neg same]
        simp only [firstMismatch_here same, Option.some.injEq, Prod.mk.injEq]
        constructor
        · rintro ⟨rfl, rfl, rfl⟩
          exact ⟨0, rfl, rfl, rfl, rfl⟩
        · rintro ⟨_, rfl, rfl, rfl, rfl⟩
          exact ⟨rfl, rfl, rfl⟩

theorem kinds_of_mismatch? {n : Nat} (length : vs.length = kinds.length)
    (none : Core.mismatch? n vs kinds = none) : vs.map Value.kind = kinds := by
  induction vs generalizing n kinds with
  | nil => exact (List.length_eq_zero_iff.mp length.symm).symm
  | cons v vs ih =>
    cases kinds with
    | nil => cases length
    | cons kind kinds =>
      rw [Core.mismatch?] at none
      by_cases same : v.kind = kind
      · rw [if_pos same] at none
        rw [List.map_cons, same, ih (Nat.succ.inj length) none]
      · rw [if_neg same] at none
        cases none

end

variable {σ : Type} {m : Machine σ} {name : String}

theorem execute_refused {c : Core} {natives : Natives σ} {fault : Fault}
    (refused : Refused natives name c.stack fault) :
    c.execute natives.signatures (.call name) = (.error fault, c) := by
  show c.call natives.signatures name = _
  unfold Core.call
  cases refused with
  | unknown missing => simp only [Natives.signatures, missing, Option.map_none, Core.fault]
  | arity found few =>
    simp only [Natives.signatures, found, Option.map_some, if_pos few, Core.fault]
  | argument found enough wrong =>
    have first := mismatch?_eq_some_iff (n := 0).mpr ⟨_, (Nat.zero_add _).symm, wrong⟩
    rw [topmost] at first
    simp only [Natives.signatures, found, Option.map_some, if_neg (Nat.not_lt.mpr enough), first,
      Core.fault]

theorem execute_unrefused {c : Core} {natives : Natives σ}
    (free : ∀ fault, ¬ Refused natives name c.stack fault) :
    ∃ f, natives.lookup name = some f ∧
      (topmost f.signature.length c.stack).map Value.kind = f.signature ∧
      c.execute natives.signatures (.call name) =
        (.ok (.call name (topmost f.signature.length c.stack)),
          { c with stack := c.stack.drop f.signature.length }) := by
  cases found : natives.lookup name with
  | none => exact absurd (.unknown found) (free _)
  | some f =>
    have enough : f.signature.length ≤ c.stack.length :=
      Nat.le_of_not_lt fun few => free _ (.arity found few)
    have right : Core.mismatch? 0 (topmost f.signature.length c.stack) f.signature = none := by
      cases wrong : Core.mismatch? 0 (topmost f.signature.length c.stack) f.signature with
      | none => rfl
      | some mismatch =>
        obtain ⟨_, _, first⟩ := mismatch?_eq_some_iff.mp wrong
        exact absurd (.argument found enough first) (free _)
    refine ⟨f, rfl, kinds_of_mismatch? (length_topmost enough) right, ?_⟩
    show c.call natives.signatures name = _
    rw [topmost] at right ⊢
    unfold Core.call
    simp only [Natives.signatures, found, Option.map_some, if_neg (Nat.not_lt.mpr enough), right]

theorem step_invokes (running : m.status = .running)
    (here : m.program.code[m.core.pc]? = some (.call name)) {f : Native σ}
    (found : m.natives.lookup name = some f) {given : List Value} {left : Core}
    (executed : ({ m.core with pc := m.core.pc + 1 } : Core).execute m.natives.signatures
      (.call name) = (.ok (.call name given), left)) :
    m.events = [⟨left.view, .call name given⟩] ∧
    m.step = match f.invoke given m.memory with
      | (.ok signal, w) => (.ok signal.outcome,
        { m with core := left, memory := w, status := signal.outcome.status })
      | (.error message, w) => (.error ⟨.native name message, some m.core.pc, some (.call name)⟩,
        { m with core := left, memory := w, status := .faulted }) := by
  have effect := effect?_of_code here
  rw [executed] at effect
  refine ⟨events_of_request effect (fun none => by cases none), ?_⟩
  cases invoked : f.invoke given m.memory with
  | mk result w =>
    cases result with
    | ok signal =>
      refine step_answered running here executed ?_
      simp only [ask, found, invoked]
    | error message =>
      refine step_refused running here executed ?_
      simp only [ask, found, invoked]

/-- A call reports that its function is unknown, that the stack is too shallow for it or that an
argument is of the wrong kind exactly when that is so and nothing that is checked earlier is at
fault. Then no function is called and all is as it was. Otherwise the function is called once,
with the topmost values, the lowest one first, and these are off the stack whatever comes of it:
it may go on, pause the machine or fail with a message. -/
theorem call_checks_first (running : m.status = .running)
    (here : m.program.code[m.core.pc]? = some (.call name)) :
    let stack := m.core.stack
    let next : Core := { m.core with pc := m.core.pc + 1 }
    let trace (fault : Fault) : Trace := ⟨fault, some m.core.pc, some (.call name)⟩
    (∀ fault, (∀ message, fault ≠ .native name message) →
      (m.Reports fault ↔ Refused m.natives name stack fault)) ∧
    (∀ fault, Refused m.natives name stack fault → m.events = [] ∧
      m.step = (.error (trace fault), { m with core := next, status := .faulted })) ∧
    ((∀ fault, ¬ Refused m.natives name stack fault) → ∃ f, m.natives.lookup name = some f ∧
      let given := topmost f.signature.length stack
      let left : Core := { next with stack := stack.drop f.signature.length }
      given.map Value.kind = f.signature ∧ m.events = [⟨left.view, .call name given⟩] ∧
      m.step = match f.invoke given m.memory with
        | (.ok signal, w) => (.ok signal.outcome,
          { m with core := left, memory := w, status := signal.outcome.status })
        | (.error message, w) => (.error (trace (.native name message)),
          { m with core := left, memory := w, status := .faulted })) := by
  intro stack next trace
  have refuses (fault : Fault) (refused : Refused m.natives name stack fault) : m.events = [] ∧
      m.step = (.error (trace fault), { m with core := next, status := .faulted }) := by
    have executed : next.execute m.natives.signatures (.call name) = (.error fault, next) :=
      execute_refused refused
    have effect := effect?_of_code here
    rw [executed] at effect
    exact ⟨events_of_fault effect, step_fails running here executed⟩
  refine ⟨fun fault other => ⟨?_, fun refused => ⟨_, _, (refuses fault refused).2, rfl⟩⟩, refuses,
    fun free => ?_⟩
  · rintro ⟨t, m', failed, rfl⟩
    by_cases refused : ∃ fault, Refused m.natives name stack fault
    · obtain ⟨fault, refused⟩ := refused
      cases failed.symm.trans (refuses fault refused).2
      exact refused
    · -- Nothing is refused, so only the function itself can have failed.
      obtain ⟨f, found, _, executed⟩ :=
        execute_unrefused (c := next) fun fault why => refused ⟨fault, why⟩
      have step := (step_invokes running here found executed).2
      rw [failed] at step
      split at step
      · cases step
      · cases step
        exact absurd rfl (other _)
  · obtain ⟨f, found, kinds, executed⟩ := execute_unrefused (c := next) free
    exact ⟨f, found, kinds, step_invokes running here found executed⟩

/-- A function that keeps a record of its arguments: two values in the wrong order are refused and
not recorded; in the right order they are recorded once and taken, though the function fails. -/
theorem call_checks_first_order :
    let note : Native (List (List Value)) :=
      ⟨[.boolean, .string], fun given log => (.error "full", log ++ [given])⟩
    let host : Host (List (List Value)) := ⟨fun _ _ w => (.proceed, w), fun _ _ w => (.proceed, w),
      fun _ _ w => (.proceed, w), fun _ _ w => w, fun _ w => w⟩
    let m (stack : List Value) : Machine (List (List Value)) := ⟨⟨0, [.call "note"]⟩, host,
      [("note", note)], .running, { Core.start 0 with stack := stack }, []⟩
    let trace (fault : Fault) : Trace := ⟨fault, some 0, some (.call "note")⟩
    (m [.boolean true, .string "a", .nil]).step =
        (.error (trace (.argumentType "note" 0 .boolean .string)),
          { m [] with core := { Core.start 1 with stack := [.boolean true, .string "a", .nil] },
                      status := .faulted }) ∧
      (m [.string "a", .boolean true, .nil]).step = (.error (trace (.native "note" "full")),
        { m [] with core := { Core.start 1 with stack := [.nil] },
                    memory := [[.boolean true, .string "a"]], status := .faulted }) := by
  intro note host m trace
  have wrong : FirstMismatch [.string "a", .boolean true] note.signature 0 .boolean .string :=
    ⟨rfl, rfl, by decide, nofun⟩
  have refused := (call_checks_first (m := m [.boolean true, .string "a", .nil]) rfl rfl).2.1 _
    (.argument (f := note) rfl (by decide) wrong)
  refine ⟨refused.2, ?_⟩
  have free : ∀ fault,
      ¬ Refused (m []).natives "note" [.string "a", .boolean true, .nil] fault := by
    rintro _ (missing | ⟨found, few⟩ | ⟨found, _, wrong⟩)
    · cases missing
    · cases found
      exact absurd few (by decide)
    · cases found
      exact absurd (wrong.finds.symm.trans wrong.expects) fun same =>
        wrong.differs (Option.some.inj same)
  obtain ⟨f, found, _, _, step⟩ :=
    (call_checks_first (m := m [.string "a", .boolean true, .nil]) rfl rfl).2.2 free
  cases found
  exact step

end Dialogue.Machine
