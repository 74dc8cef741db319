import Dialogue.Machine.Host
import Dialogue.Proofs.Code.Plan
import Mathlib.Data.List.Forall2

/-!
Moved code. The addresses of two programs correspond by a relation, and corresponding instructions
are the same but for where they lead. Such instructions do the same to cores that correspond. The
end of a dialogue need not have a corresponding successor: no machine goes on from there.
-/
namespace Dialogue

variable {T : Nat → Nat → Prop}

/-- The same instruction, leading to a corresponding address if to any. -/
inductive Instruction.Moved (T : Nat → Nat → Prop) : Instruction → Instruction → Prop where
  | same {i : Instruction} (nowhere : i.address? = none) : Moved T i i
  | jump {a a' : Nat} (there : T a a') : Moved T (.jump a) (.jump a')
  | jumpIfFalse {a a' : Nat} (there : T a a') : Moved T (.jumpIfFalse a) (.jumpIfFalse a')
  | pushChoice {a a' : Nat} (there : T a a') : Moved T (.pushChoice a) (.pushChoice a')

/-- Corresponding addresses have corresponding instructions, and except for the end of a dialogue
what comes after them corresponds too. -/
structure Program.Aligned (T : Nat → Nat → Prop) (p p' : Program) : Prop where
  starts : T p.start p'.start
  instruction : ∀ a a', T a a' → ∃ i i', p.code[a]? = some i ∧ p'.code[a']? = some i' ∧ i.Moved T i'
  next : ∀ a a', T a a' → p.code[a]? ≠ some .endDialogue → T (a + 1) (a' + 1)

theorem Instruction.moved_pointed {i : Instruction} (pointer : i.address?.isSome) {a a' : Nat}
    (there : T a a') :
    (i.pointed a).Moved T (i.pointed a') := by
  cases i with
  | jump => exact .jump there
  | jumpIfFalse => exact .jumpIfFalse there
  | pushChoice => exact .pushChoice there
  | _ => cases pointer

theorem Instruction.Moved.pointed_eq {i i' : Instruction} (moved : i.Moved T i') (a : Nat) :
    i'.pointed a = i.pointed a := by
  cases moved <;> rfl

namespace Machine
variable {P : Nat → Nat → Prop}

def Choice.Moved (T : Nat → Nat → Prop) (x x' : Choice) : Prop :=
  x'.text = x.text ∧ T x.target x'.target

namespace Core

/-- The same core but for addresses. Where control is corresponds by `P`, where options lead by
`T`. -/
structure Moved (P T : Nat → Nat → Prop) (c c' : Core) : Prop where
  pc : P c.pc c'.pc
  stack : c'.stack = c.stack
  store : c'.store = c.store
  node : c'.node? = c.node?
  choices : List.Forall₂ (Choice.Moved T) c.choices c'.choices

variable {c c' : Core}

theorem Moved.texts (moved : Moved P T c c') :
    c'.choices.map Choice.text = c.choices.map Choice.text := by
  have related := moved.choices
  generalize c.choices = xs, c'.choices = xs' at related
  induction related with
  | nil => rfl
  | cons same _ ih => rw [List.map_cons, List.map_cons, same.1, ih]

theorem Moved.view (moved : Moved P T c c') : c'.view = c.view := by
  rw [Core.view, Core.view, moved.node, moved.store, moved.stack]

theorem Moved.weaken {Q : Nat → Nat → Prop} (moved : Moved P T c c')
    (there : P c.pc c'.pc → Q c.pc c'.pc) :
    Moved Q T c c' :=
  { moved with pc := there moved.pc }

/-! What an instruction does to cores that correspond. -/

def Same (P T : Nat → Nat → Prop) (e e' : Effect) : Prop :=
  e'.1 = e.1 ∧ Moved P T e.2 e'.2

theorem same_push (moved : Moved P T c c') (v : Value) : Same P T (c.push v) (c'.push v) :=
  ⟨rfl, { moved with stack := congrArg (v :: ·) moved.stack }⟩

theorem same_pop {k k' : Value → Core → Effect} (moved : Moved P T c c')
    (rest : ∀ v d d', Moved P T d d' → Same P T (k v d) (k' v d')) :
    Same P T (c.pop k) (c'.pop k') := by
  unfold pop
  rw [moved.stack]
  cases c.stack with
  | nil => exact ⟨rfl, moved⟩
  | cons v stack => exact rest v _ _ { moved with stack := rfl }

theorem same_popAs {α : Type} {kind : Kind} {as? : Value → Option α} {k k' : α → Core → Effect}
    (moved : Moved P T c c') (rest : ∀ a d d', Moved P T d d' → Same P T (k a d) (k' a d')) :
    Same P T (c.popAs kind as? k) (c'.popAs kind as? k') := by
  refine same_pop moved ?_
  intro v d d' moved
  cases as? v with
  | some a => exact rest a d d' moved
  | none => exact ⟨rfl, moved⟩

theorem same_popTwo {α : Type} {kind : Kind} {as? : Value → Option α} (moved : Moved P T c c')
    (f : α → α → Value) : Same P T (c.popTwo kind as? f) (c'.popTwo kind as? f) := by
  refine same_popAs moved ?_
  intro y d d' moved
  refine same_popAs moved ?_
  intro x d d' moved
  exact same_push moved _

theorem same_call (moved : Moved P T c c') (signatures : Signatures) (name : String) :
    Same P T (c.call signatures name) (c'.call signatures name) := by
  unfold call
  rw [moved.stack]
  split
  · exact ⟨rfl, moved⟩
  · split
    · exact ⟨rfl, moved⟩
    · dsimp only
      split
      · exact ⟨rfl, moved⟩
      · exact ⟨rfl, { moved with stack := rfl }⟩

/-- An instruction without an address does the same wherever control is. -/
theorem same_perform {i : Instruction} (moved : Moved P T c c') (nowhere : i.address? = none)
    (signatures : Signatures) : Same P T (c.perform signatures i) (c'.perform signatures i) := by
  cases i with
  | jump | jumpIfFalse | pushChoice => cases nowhere
  | pushString | pushNumber | pushBool | pushNull => exact same_push moved _
  | loadVariable name =>
    unfold perform
    rw [moved.store]
    exact same_push moved _
  | popValue => exact same_pop moved fun _ _ _ moved => ⟨rfl, moved⟩
  | concat | equal =>
    unfold perform
    refine same_pop moved ?_
    intro y d d' moved
    refine same_pop moved ?_
    intro x d d' moved
    exact same_push moved _
  | not => exact same_popAs moved fun _ _ _ moved => same_push moved _
  | and | or | greaterThan | lessThan | add | subtract | multiply | divide =>
    exact same_popTwo moved _
  | increment | decrement => exact same_popAs moved fun _ _ _ moved => same_push moved _
  | storeVariable name =>
    unfold perform
    refine same_pop moved ?_
    intro v d d' moved
    exact ⟨rfl, { moved with store := congrArg (·.set name v) moved.store }⟩
  | showLine => exact same_popAs moved fun _ _ _ moved => ⟨rfl, moved⟩
  | showChoice => exact ⟨congrArg (fun texts => Except.ok (Request.menu texts)) moved.texts, moved⟩
  | enterNode => exact ⟨rfl, { moved with node := rfl }⟩
  | exitNode | endDialogue => exact ⟨rfl, moved⟩
  | call name => exact same_call moved signatures name

theorem same_execute {i i' : Instruction} (wider : ∀ a a', T a a' → P a a') (moved : Moved P T c c')
    (instruction : i.Moved T i') (signatures : Signatures) :
    Same P T (c.execute signatures i) (c'.execute signatures i') := by
  have opcode : i'.opcode = i.opcode := by cases instruction <;> rfl
  unfold execute
  rw [opcode, moved.stack]
  dsimp only
  split
  · exact ⟨rfl, moved⟩
  · cases instruction with
    | same nowhere => exact same_perform moved nowhere signatures
    | jump there => exact ⟨rfl, { moved with pc := wider _ _ there }⟩
    | jumpIfFalse there =>
      refine same_popAs moved ?_
      intro b d d' moved
      cases b with
      | true => exact ⟨rfl, moved⟩
      | false => exact ⟨rfl, { moved with pc := wider _ _ there }⟩
    | @pushChoice a a' there =>
      refine same_popAs moved ?_
      intro s d d' moved
      have last : List.Forall₂ (Choice.Moved T) [⟨s, a⟩] [⟨s, a'⟩] := .cons ⟨rfl, there⟩ .nil
      exact ⟨rfl, { moved with choices := List.rel_append moved.choices last }⟩

end Core

end Machine
end Dialogue
