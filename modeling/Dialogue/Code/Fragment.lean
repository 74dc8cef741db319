import Dialogue.Problem
import Dialogue.Program.Basic

/-!
Code in the making. A fragment is a stretch of code for the addresses where it will stand, with the
labels bound in it and the references it leaves open. An emitter makes a fragment for a site; what
was emitted before a mistake is kept beside it.
-/
namespace Dialogue

/-- A name bound to the address of the instruction that comes next. -/
structure Label where
  name : String
  address : Nat
  span : Span
deriving DecidableEq, Repr

/-- The instruction at `address` is to point to the address of `target`. -/
structure Reference where
  target : String
  span : Span
  address : Nat
deriving DecidableEq, Repr

structure Fragment where
  code : List Instruction
  labels : List Label
  references : List Reference
deriving DecidableEq, Repr

namespace Fragment

def empty : Fragment :=
  ⟨[], [], []⟩

def append (f g : Fragment) : Fragment :=
  ⟨f.code ++ g.code, f.labels ++ g.labels, f.references ++ g.references⟩

instance : Append Fragment :=
  ⟨append⟩

def one (i : Instruction) : Fragment :=
  ⟨[i], [], []⟩

@[simp] theorem code_append (f g : Fragment) : (f ++ g).code = f.code ++ g.code := rfl

@[simp] theorem labels_append (f g : Fragment) : (f ++ g).labels = f.labels ++ g.labels := rfl

@[simp] theorem references_append (f g : Fragment) :
    (f ++ g).references = f.references ++ g.references := rfl

@[simp] theorem empty_append (f : Fragment) : empty ++ f = f := rfl

@[simp] theorem append_empty (f : Fragment) : f ++ empty = f := by
  show append f empty = f
  simp [append, empty]

theorem append_assoc (f g h : Fragment) : f ++ g ++ h = f ++ (g ++ h) := by
  show append (append f g) h = append f (append g h)
  simp [append]

end Fragment

/-- Where code is to stand: its first address, and the labels already bound. -/
structure Site where
  start : Nat
  labels : List Label

namespace Site

def origin : Site :=
  ⟨0, []⟩

def after (s : Site) (f : Fragment) : Site :=
  ⟨s.start + f.code.length, s.labels ++ f.labels⟩

theorem after_append (s : Site) (f g : Fragment) : s.after (f ++ g) = (s.after f).after g := by
  simp [after, Nat.add_assoc]

@[simp] theorem after_empty (s : Site) : s.after .empty = s := by
  simp [after, Fragment.empty]

end Site

def Emit (α : Type) : Type :=
  Site → Fragment × Except Problem α

namespace Emit
variable {α β : Type}

protected def pure (a : α) : Emit α :=
  fun _ => (.empty, .ok a)

protected def bind (e : Emit α) (k : α → Emit β) : Emit β := fun s =>
  match e s with
  | (f, .error p) => (f, .error p)
  | (f, .ok a) => let (g, r) := k a (s.after f); (f ++ g, r)

instance : Monad Emit where
  pure := Emit.pure
  bind := Emit.bind

def fail (cause : Cause) (span : Span) : Emit α :=
  fun _ => (.empty, .error { cause, span })

def ofExcept (r : Except Problem α) : Emit α :=
  fun _ => (.empty, r)

def here : Emit Nat :=
  fun s => (.empty, .ok s.start)

def emit (i : Instruction) : Emit Unit :=
  fun _ => (.one i, .ok ())

/-- Emits an instruction whose address is found when all names are known. -/
def refer (i : Instruction) (target : String) (span : Span) : Emit Unit :=
  fun s => (⟨[i], [], [⟨target, span, s.start⟩]⟩, .ok ())

/-- Binds a name to the address of the next instruction. A name is bound once. -/
def define (name : String) (span : Span) : Emit Unit := fun s =>
  match s.labels.find? (·.name == name) with
  | some l =>
    (.empty, .error { cause := .duplicateSymbol name, span := l.span, second? := some span })
  | none => (⟨[], [⟨name, s.start, span⟩], []⟩, .ok ())

def skipping (jump : Nat → Instruction) (body : Emit Unit) : Emit Unit := fun s =>
  match body (s.after (.one (jump 0))) with
  | (f, .error p) => (.one (jump 0) ++ f, .error p)
  | (f, .ok ()) => (.one (jump (s.start + 1 + f.code.length)) ++ f, .ok ())

def loop (condition body : Emit Unit) : Emit Unit := do
  let top ← here
  condition
  skipping .jumpIfFalse do
    body
    emit (.jump top)

/-- A jump past the consequence unless the condition before it holds, the consequence, a jump past
the alternative, the alternative. The consequence decides what the alternative has to be. -/
def branches (consequence : Emit α) (alternative : α → Emit Unit) : Emit α := fun s =>
  let inner := s.after (.one (.jumpIfFalse 0))
  match consequence inner with
  | (f, .error p) => (.one (.jumpIfFalse 0) ++ f, .error p)
  | (f, .ok a) =>
    let outer := inner.after (f ++ .one (.jump 0))
    match alternative a outer with
    | (g, .error p) => (.one (.jumpIfFalse outer.start) ++ f ++ .one (.jump 0) ++ g, .error p)
    | (g, .ok ()) =>
      let stop := (outer.after g).start
      (.one (.jumpIfFalse outer.start) ++ f ++ .one (.jump stop) ++ g, .ok a)

end Emit
end Dialogue
