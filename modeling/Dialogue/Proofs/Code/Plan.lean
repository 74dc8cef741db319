import Dialogue.Code.Fragment

/-!
Plans: what an emitter is to emit, said before it is known where the code will stand. A plan is laid
out at an address, its jumps counted from there, and what it refers to by name is looked up. Each
instruction keeps a note of the part of a dialogue it was made for.
-/
namespace Dialogue

namespace Instruction

def address? : Instruction → Option Nat
  | jump a | jumpIfFalse a | pushChoice a => some a
  | _ => none

/-- The instruction pointed to `target`; one without an address stays as it is. -/
def pointed (i : Instruction) (target : Nat) : Instruction :=
  (i.retarget? target).getD i

theorem retarget?_of_address {i : Instruction} (pointer : i.address?.isSome) (target : Nat) :
    i.retarget? target = some (i.pointed target) := by
  cases i <;> simp_all [address?, retarget?, pointed]

theorem address?_pointed {i : Instruction} (pointer : i.address?.isSome) (target : Nat) :
    (i.pointed target).address? = some target := by
  cases i <;> simp_all [address?, retarget?, pointed]

theorem build?_operand? {i : Instruction} (nowhere : i.address? = none) :
    build? i.opcode i.operand? = some i := by
  cases i with
  | jump | jumpIfFalse | pushChoice => cases nowhere
  | _ => rfl

theorem opcode_pointed (i : Instruction) (target : Nat) : (i.pointed target).opcode = i.opcode := by
  cases i <;> rfl

end Instruction

/-- The part of a dialogue an instruction was made for. -/
inductive Origin where
  /-- The jump of a paragraph that is a single link. -/
  | link (destination : String)
  /-- The choice of an item of a list. -/
  | item (destination : String)
  /-- The choice of an option of a `choose` form. -/
  | option (destination : String)
  /-- A line of assembly. -/
  | assembly
  | other
deriving DecidableEq, Repr

structure Placed where
  origin : Origin
  instruction : Instruction
deriving DecidableEq, Repr

inductive Plan where
  | empty
  | one (origin : Origin) (i : Instruction)
  | reference (origin : Origin) (i : Instruction) (target : String) (span : Span)
  | label (name : String) (span : Span)
  | both (p q : Plan)
  | loop (condition body : Plan)
  | branches (consequence alternative : Plan)
deriving Repr, Inhabited

namespace Plan

def size : Plan → Nat
  | empty | label _ _ => 0
  | one _ _ | reference _ _ _ _ => 1
  | both p q => p.size + q.size
  | loop c b => c.size + 1 + b.size + 1
  | branches p q => 1 + p.size + 1 + q.size

/-- The code of a plan that stands at `start`, names being looked up with `resolve`. -/
def code (resolve : String → Option Nat) : Nat → Plan → List Placed
  | _, empty | _, label _ _ => []
  | _, one origin i => [⟨origin, i⟩]
  | _, reference origin i target _ => [⟨origin, ((resolve target).map i.pointed).getD i⟩]
  | start, both p q => p.code resolve start ++ q.code resolve (start + p.size)
  | start, loop c b =>
    let skip := start + c.size
    c.code resolve start ++ ⟨.other, .jumpIfFalse (skip + 1 + b.size + 1)⟩ ::
      (b.code resolve (skip + 1) ++ [⟨.other, .jump start⟩])
  | start, branches p q =>
    let alternative := start + 1 + p.size + 1
    ⟨.other, .jumpIfFalse alternative⟩ :: (p.code resolve (start + 1) ++
      ⟨.other, .jump (alternative + q.size)⟩ :: q.code resolve alternative)

def labels : Nat → Plan → List Label
  | _, empty | _, one _ _ | _, reference _ _ _ _ => []
  | start, label name span => [⟨name, start, span⟩]
  | start, both p q => p.labels start ++ q.labels (start + p.size)
  | start, loop c b => c.labels start ++ b.labels (start + c.size + 1)
  | start, branches p q => p.labels (start + 1) ++ q.labels (start + 1 + p.size + 1)

def references : Nat → Plan → List Reference
  | _, empty | _, one _ _ | _, label _ _ => []
  | start, reference _ _ target span => [⟨target, span, start⟩]
  | start, both p q => p.references start ++ q.references (start + p.size)
  | start, loop c b => c.references start ++ b.references (start + c.size + 1)
  | start, branches p q => p.references (start + 1) ++ q.references (start + 1 + p.size + 1)

def instructions (resolve : String → Option Nat) (start : Nat) (p : Plan) : List Instruction :=
  (p.code resolve start).map Placed.instruction

/-- The plan laid out at `start`, its references still open. -/
def fragment (start : Nat) (p : Plan) : Fragment :=
  ⟨p.instructions (fun _ => none) start, p.labels start, p.references start⟩

@[simp] theorem length_code (resolve : String → Option Nat) (start : Nat) (p : Plan) :
    (p.code resolve start).length = p.size := by
  induction p generalizing start with
  | both p q hp hq => simp [code, size, hp, hq]
  | loop c b hc hb => simp [code, size, hc, hb]; omega
  | branches p q hp hq => simp [code, size, hp, hq]; omega
  | _ => rfl

@[simp] theorem length_instructions (resolve : String → Option Nat) (start : Nat) (p : Plan) :
    (p.instructions resolve start).length = p.size := by
  simp [instructions]

theorem instructions_both (resolve : String → Option Nat) (start : Nat) (p q : Plan) :
    (both p q).instructions resolve start =
      p.instructions resolve start ++ q.instructions resolve (start + p.size) := by
  simp [instructions, code]

theorem instructions_loop (resolve : String → Option Nat) (start : Nat) (c b : Plan) :
    (loop c b).instructions resolve start =
      c.instructions resolve start ++ .jumpIfFalse (start + c.size + 1 + b.size + 1) ::
        (b.instructions resolve (start + c.size + 1) ++ [.jump start]) := by
  simp [instructions, code]

theorem instructions_branches (resolve : String → Option Nat) (start : Nat) (p q : Plan) :
    (branches p q).instructions resolve start =
      .jumpIfFalse (start + 1 + p.size + 1) :: (p.instructions resolve (start + 1) ++
        .jump (start + 1 + p.size + 1 + q.size) ::
          q.instructions resolve (start + 1 + p.size + 1)) := by
  simp [instructions, code]

@[simp] theorem length_fragment (start : Nat) (p : Plan) :
    (p.fragment start).code.length = p.size :=
  length_instructions _ _ _

theorem fragment_both (start : Nat) (p q : Plan) :
    (both p q).fragment start = p.fragment start ++ q.fragment (start + p.size) := by
  show _ = Fragment.append _ _
  simp [fragment, instructions_both, Fragment.append, labels, references]

theorem fragment_loop (start : Nat) (c b : Plan) :
    (loop c b).fragment start = c.fragment start ++
      (.one (.jumpIfFalse (start + c.size + 1 + b.size + 1)) ++
        (b.fragment (start + c.size + 1) ++ .one (.jump start))) := by
  show _ = Fragment.append _ (Fragment.append _ (Fragment.append _ _))
  simp [fragment, instructions_loop, Fragment.append, Fragment.one, labels, references]

theorem fragment_branches (start : Nat) (p q : Plan) :
    (branches p q).fragment start =
      .one (.jumpIfFalse (start + 1 + p.size + 1)) ++ p.fragment (start + 1) ++
        .one (.jump (start + 1 + p.size + 1 + q.size)) ++
        q.fragment (start + 1 + p.size + 1) := by
  show _ = Fragment.append (Fragment.append (Fragment.append _ _) _) _
  simp [fragment, instructions_branches, Fragment.append, Fragment.one, labels, references]

end Plan

namespace Emit
variable {α β : Type}

def Silent (e : Emit α) : Prop :=
  ∃ r, ∀ s, e s = (.empty, r)

/-- `e` emits what `p` says, or less if it fails. -/
inductive Builds : {α : Type} → Emit α → Plan → Prop where
  | silent {α : Type} {e : Emit α} (quiet : e.Silent) : Builds e .empty
  | fail {α : Type} (cause : Cause) (span : Span) (p : Plan) : Builds (fail cause span : Emit α) p
  | emit (origin : Origin) (i : Instruction) : Builds (emit i) (.one origin i)
  | refer (origin : Origin) (i : Instruction) (target : String) (span : Span)
      (pointer : i.address?.isSome) :
      Builds (refer i target span) (.reference origin i target span)
  | define (name : String) (span : Span) : Builds (define name span) (.label name span)
  | both {α β : Type} {e : Emit α} {k : α → Emit β} {p q : Plan}
      (first : Builds e p) (second : ∀ a, Builds (k a) q) : Builds (e >>= k) (.both p q)
  | after {α β : Type} {e : Emit α} {k : α → Emit β} {p : Plan}
      (first : Builds e p) (quiet : ∀ a, (k a).Silent) : Builds (e >>= k) p
  | loop {c b : Emit Unit} {p q : Plan} (condition : Builds c p) (body : Builds b q) :
      Builds (loop c b) (.loop p q)
  | branches {α : Type} {e : Emit α} {k : α → Emit Unit} {p q : Plan}
      (consequence : Builds e p) (alternative : ∀ a, Builds (k a) q) :
      Builds (branches e k) (.branches p q)

theorem silent_pure (a : α) : (pure a : Emit α).Silent :=
  ⟨.ok a, fun _ => rfl⟩

theorem silent_fail (cause : Cause) (span : Span) : (fail cause span : Emit α).Silent :=
  ⟨.error { cause, span }, fun _ => rfl⟩

theorem bind_apply (e : Emit α) (k : α → Emit β) (s : Site) :
    (e >>= k) s = match e s with
      | (f, .error p) => (f, .error p)
      | (f, .ok a) => (f ++ (k a (s.after f)).1, (k a (s.after f)).2) := rfl

theorem bind_ok {e : Emit α} {k : α → Emit β} {s : Site} {f : Fragment} {b : β}
    (run : (e >>= k) s = (f, .ok b)) :
    ∃ g a h, e s = (g, .ok a) ∧ k a (s.after g) = (h, .ok b) ∧ f = g ++ h := by
  rw [bind_apply] at run
  split at run
  · cases run
  · rename_i g a first
    refine ⟨g, a, (k a (s.after g)).1, first, ?_, (Prod.mk.inj run).1.symm⟩
    exact Prod.ext rfl (Prod.mk.inj run).2

theorem loop_apply (c b : Emit Unit) (s : Site) :
    loop c b s = match c s with
      | (f, .error p) => (f, .error p)
      | (f, .ok ()) =>
        let inner := (s.after f).after (.one (.jumpIfFalse 0))
        match b inner with
        | (g, .error p) => (f ++ (.one (.jumpIfFalse 0) ++ g), .error p)
        | (g, .ok ()) =>
          (f ++ (.one (.jumpIfFalse ((s.after f).start + 1 + (g.code.length + 1))) ++
            (g ++ .one (.jump s.start))), .ok ()) := by
  have unfolded : loop c b s = (c >>= fun _ => skipping .jumpIfFalse (b >>= fun _ =>
      emit (.jump s.start))) s := by
    show (here >>= fun top => c >>= fun _ => skipping .jumpIfFalse (b >>= fun _ =>
      emit (.jump top))) s = _
    rw [bind_apply]
    simp [here]
  rw [unfolded, bind_apply]
  cases hc : c s with
  | mk f r =>
    cases r with
    | error p => rfl
    | ok a =>
      simp only [skipping, bind_apply]
      cases hb : b ((s.after f).after (.one (.jumpIfFalse 0))) with
      | mk g r =>
        cases r with
        | error p => rfl
        | ok a => simp [emit, Fragment.one]

theorem loop_ok {c b : Emit Unit} {s : Site} {f : Fragment} {u : Unit}
    (run : loop c b s = (f, .ok u)) :
    ∃ g h, c s = (g, .ok ()) ∧ b ((s.after g).after (.one (.jumpIfFalse 0))) = (h, .ok ()) := by
  rw [loop_apply] at run
  split at run
  · cases run
  · rename_i g first
    dsimp only at run
    split at run
    · cases run
    · rename_i h second; exact ⟨g, h, first, second⟩

theorem branches_ok {e : Emit α} {k : α → Emit Unit} {s : Site} {f : Fragment} {a : α}
    (run : branches e k s = (f, .ok a)) :
    ∃ g h, e (s.after (.one (.jumpIfFalse 0))) = (g, .ok a) ∧
      k a ((s.after (.one (.jumpIfFalse 0))).after (g ++ .one (.jump 0))) = (h, .ok ()) := by
  unfold branches at run
  dsimp only at run
  split at run
  · cases run
  · rename_i g a' first
    split at run
    · cases run
    · rename_i h second
      cases run
      exact ⟨g, h, first, second⟩

end Emit
end Dialogue
