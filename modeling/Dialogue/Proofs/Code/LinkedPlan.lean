import Dialogue.Code.Link
import Dialogue.Proofs.Code.Plan

/-!
Linking what was emitted after a plan. Each reference is at the address its instruction was planned
for, so the linked code is the plan once more, laid out with its names looked up.
-/
namespace Dialogue

namespace Fragment
variable {labels : List Label} {code : List Instruction}

theorem resolve_ok {r : Reference} {after : List Instruction}
    (run : resolve labels code r = .ok after) :
    ∃ target i j, address? labels r.target = some target ∧ code[r.address]? = some i ∧
      i.retarget? target = some j ∧ after = code.set r.address j := by
  unfold resolve at run
  cases bound : address? labels r.target with
  | none => rw [bound] at run; cases run
  | some target =>
    simp only [bound, retarget?] at run
    cases here : code[r.address]? with
    | none => simp [here] at run
    | some i =>
      cases moved : i.retarget? target with
      | none => simp [here, moved] at run
      | some j =>
        simp only [here, Option.bind_some, moved, Option.map_some] at run
        exact ⟨target, i, j, rfl, rfl, moved, (Except.ok.inj run).symm⟩

theorem foldlM_resolve_append {earlier later : List Reference} {after : List Instruction}
    (run : (earlier ++ later).foldlM (resolve labels) code = .ok after) :
    ∃ middle, earlier.foldlM (resolve labels) code = .ok middle ∧
      later.foldlM (resolve labels) middle = .ok after := by
  rw [List.foldlM_append] at run
  cases first : earlier.foldlM (resolve labels) code with
  | error => rw [first] at run; cases run
  | ok middle => rw [first] at run; exact ⟨middle, rfl, run⟩

theorem bound_of_resolved {references : List Reference} {after : List Instruction}
    (run : references.foldlM (resolve labels) code = .ok after) :
    ∀ r ∈ references, ∃ target, address? labels r.target = some target := by
  induction references generalizing code with
  | nil => exact nofun
  | cons r references ih =>
    rw [List.foldlM_cons] at run
    cases first : resolve labels code r with
    | error => rw [first] at run; cases run
    | ok =>
      rw [first] at run
      obtain ⟨target, _, _, bound, _⟩ := resolve_ok first
      intro q mem
      rcases List.mem_cons.mp mem with rfl | later
      · exact ⟨target, bound⟩
      · exact ih run q later

end Fragment

namespace Plan
open Fragment (resolve address? foldlM_resolve_append resolve_ok)
variable {labels : List Label}

/-- Resolving the references of a plan, with other code before and after it, lays it out with its
names looked up. -/
theorem instructions_resolved (p : Plan) {start : Nat} (front back : List Instruction)
    {code after : List Instruction} (place : front.length = start)
    (stands : code = front ++ (p.instructions (fun _ => none) start ++ back))
    (run : (p.references start).foldlM (resolve labels) code = .ok after) :
    after = front ++ (p.instructions (address? labels) start ++ back) := by
  induction p generalizing start front back code after with
  | empty | one | label =>
    rw [← Except.ok.inj run, stands]
    rfl
  | reference origin i target span =>
    have resolved : resolve labels code ⟨target, span, start⟩ = .ok after := by
      rw [references, List.foldlM_cons] at run
      cases first : resolve labels code ⟨target, span, start⟩ with
      | error => rw [first] at run; cases run
      | ok moved => rw [first] at run; exact run
    subst stands place
    obtain ⟨aim, j, k, bound, here, moved, rfl⟩ := resolve_ok resolved
    have same : j = i := by simpa [instructions, Plan.code] using here.symm
    subst j
    simp [instructions, Plan.code, bound, Instruction.pointed, moved]
  | both p q first second =>
    rw [instructions_both, List.append_assoc] at stands
    obtain ⟨middle, earlier, later⟩ := foldlM_resolve_append run
    have done := first front _ place stands earlier
    rw [second (front ++ p.instructions (address? labels) start) back (by simp [place])
      (by simp [done]) later, instructions_both]
    simp
  | loop c b condition body =>
    rw [instructions_loop, List.append_assoc] at stands
    obtain ⟨middle, earlier, later⟩ := foldlM_resolve_append run
    have done := condition front _ place stands earlier
    let test := c.instructions (address? labels) start ++
      [.jumpIfFalse (start + c.size + 1 + b.size + 1)]
    rw [body (front ++ test) (.jump start :: back) (by simp [test, place, Nat.add_assoc])
      (by simp [test, done]) later, instructions_loop]
    simp [test]
  | branches p q consequence alternative =>
    rw [instructions_branches] at stands
    obtain ⟨middle, earlier, later⟩ := foldlM_resolve_append run
    let test : List Instruction := [.jumpIfFalse (start + 1 + p.size + 1)]
    let jump : List Instruction := [.jump (start + 1 + p.size + 1 + q.size)]
    have done := consequence (front ++ test)
      (jump ++ (q.instructions (fun _ => none) (start + 1 + p.size + 1) ++ back))
      (by simp [test, place]) (by simp [test, jump, stands]) earlier
    rw [alternative (front ++ (test ++ (p.instructions (address? labels) (start + 1) ++ jump))) back
      (by simp [test, jump, place]; omega) (by simp [done]) later, instructions_branches]
    simp [test, jump]

theorem link_fragment {p : Plan} {linked : Program} (run : (p.fragment 0).link = .ok linked) :
    linked = ⟨0, p.instructions (address? (p.labels 0)) 0⟩ := by
  unfold Fragment.link at run
  cases resolved : (p.fragment 0).references.foldlM (resolve (p.fragment 0).labels)
      (p.fragment 0).code with
  | error => rw [resolved] at run; cases run
  | ok after =>
    rw [resolved] at run
    have laid := p.instructions_resolved [] [] rfl (by simp [fragment]) resolved
    rw [List.nil_append, List.append_nil] at laid
    rw [← Except.ok.inj run, laid]
    rfl

end Plan
end Dialogue
