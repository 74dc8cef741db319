import Dialogue.Proofs.Code.Elsewhere
import Dialogue.Proofs.Code.Extent
import Dialogue.Proofs.Machine.Moving

/-!
A plan laid out at two places. Where the addresses from its start to its end correspond, and so do
those of the names it refers to, the instructions at one place correspond to those at the other.
-/
namespace Dialogue.Plan

variable {T : Nat → Nat → Prop} {resolve resolve' : String → Option Nat} {start start' size : Nat}
  {p : Plan}

/-- The addresses from `start` on correspond to those from `start'` on, as far as `size`. -/
def Near (T : Nat → Nat → Prop) (start start' size : Nat) : Prop :=
  ∀ k ≤ size, T (start + k) (start' + k)

theorem Near.shift (near : Near T start start' size) (d : Nat) {k : Nat} (room : d + k ≤ size) :
    Near T (start + d) (start' + d) k := by
  intro j inside
  rw [Nat.add_assoc, Nat.add_assoc]
  exact near (d + j) (by omega)

theorem Near.there (near : Near T start start' size) {a a' k : Nat} (inside : k ≤ size)
    (place : a = start + k) (place' : a' = start' + k) : T a a' := by
  rw [place, place']
  exact near k inside

theorem moved_instructions (opened : p.Open) (near : Near T start start' p.size)
    (names : ∀ name ∈ p.targets, ∃ a a', resolve name = some a ∧ resolve' name = some a' ∧ T a a') :
    List.Forall₂ (Instruction.Moved T) (p.instructions resolve start)
      (p.instructions resolve' start') := by
  induction p generalizing start start' with
  | empty | label => exact .nil
  | one origin i => exact .cons (.same opened) .nil
  | reference origin i target span =>
    obtain ⟨a, a', bound, bound', there⟩ := names target List.mem_cons_self
    have pointer : i.address?.isSome := by
      rw [show i.address? = some 0 from opened]
      rfl
    simp only [instructions, code, bound, bound', Option.map_some, Option.getD_some, List.map_cons,
      List.map_nil]
    exact .cons (Instruction.moved_pointed pointer there) .nil
  | both p q first second =>
    rw [instructions_both, instructions_both]
    refine List.rel_append (first opened.1 (near.shift 0 ?_) ?_)
      (second opened.2 (near.shift p.size ?_) ?_)
    · simp only [size]
      omega
    · exact fun name mem => names name (List.mem_append_left _ mem)
    · simp only [size]
      omega
    · exact fun name mem => names name (List.mem_append_right _ mem)
  | loop c b condition body =>
    have room : (loop c b).size = c.size + 1 + b.size + 1 := rfl
    have test := condition opened.1 (near.shift 0 (by omega)) fun name mem =>
      names name (List.mem_append_left _ mem)
    have inner :=
      body opened.2 ((near.shift c.size (k := 1 + b.size) (by omega)).shift 1 (by omega))
      fun name mem => names name (List.mem_append_right _ mem)
    have leave : T (start + c.size + 1 + b.size + 1) (start' + c.size + 1 + b.size + 1) :=
      near.there (k := c.size + 1 + b.size + 1) (by omega) (by omega) (by omega)
    have back : T start start' := near.there (k := 0) (by omega) rfl rfl
    rw [instructions_loop, instructions_loop]
    exact List.rel_append test
      (.cons (.jumpIfFalse leave) (List.rel_append inner (.cons (.jump back) .nil)))
  | branches p q consequence alternative =>
    have room : (branches p q).size = 1 + p.size + 1 + q.size := rfl
    have left := consequence opened.1 (near.shift 1 (by omega)) fun name mem =>
      names name (List.mem_append_left _ mem)
    have right := alternative opened.2
      (((near.shift 1 (k := p.size + 1 + q.size) (by omega)).shift p.size (k := 1 + q.size)
        (by omega)).shift 1
        (by omega))
      fun name mem => names name (List.mem_append_right _ mem)
    have other : T (start + 1 + p.size + 1) (start' + 1 + p.size + 1) :=
      near.there (k := 1 + p.size + 1) (by omega) (by omega) (by omega)
    have leave : T (start + 1 + p.size + 1 + q.size) (start' + 1 + p.size + 1 + q.size) :=
      near.there (k := 1 + p.size + 1 + q.size) (by omega) (by omega) (by omega)
    rw [instructions_branches, instructions_branches]
    exact .cons (.jumpIfFalse other) (List.rel_append left (.cons (.jump leave) right))

end Dialogue.Plan
