import Dialogue.Code.Draft
import Dialogue.Code.Link
import Dialogue.Proofs.Code.TermPlan

/-!
What the linker does to a draft, however the draft came about. References are resolved one after the
other; because no two of them are at the same address, resolving one leaves what the others name as
it was, and the linked program can be described address by address.
-/
namespace Dialogue

namespace Fragment
variable {labels : List Label} {code : List Instruction} {refs : List Reference}

theorem address?_eq_none_iff {name : String} :
    address? labels name = none ↔ ∀ l ∈ labels, l.name ≠ name := by
  simp [address?]

theorem address?_isSome_iff {name : String} :
    (address? labels name).isSome ↔ ∃ l ∈ labels, l.name = name := by
  rw [← Option.ne_none_iff_isSome, ne_eq, address?_eq_none_iff]
  simp

theorem address?_of_mem (distinct : labels.Pairwise fun k l => k.name ≠ l.name) {l : Label}
    (mem : l ∈ labels) : address? labels l.name = some l.address := by
  induction labels with
  | nil => simp at mem
  | cons k labels ih =>
    have ⟨first, rest⟩ := List.pairwise_cons.mp distinct
    rcases List.mem_cons.mp mem with same | mem
    · subst l; simp [address?]
    · have other := first l mem
      have := ih rest mem
      simp only [address?, List.find?_cons] at this ⊢
      rw [beq_eq_false_iff_ne.mpr other]
      exact this

theorem resolve_bound {r : Reference} {i : Instruction} {target : Nat}
    (bound : address? labels r.target = some target) (here : code[r.address]? = some i)
    (pointer : i.address?.isSome) :
    resolve labels code r = .ok (code.set r.address (i.pointed target)) := by
  simp [resolve, bound, retarget?, here, Instruction.retarget?_of_address pointer]

theorem resolve_unbound {r : Reference} (unbound : address? labels r.target = none) :
    resolve labels code r = .error { cause := .unresolvedSymbol r.target, span := r.span } := by
  simp [resolve, unbound]

/-- `after` is `before` with the instructions named by `refs` pointed where they should be. -/
structure Resolved (labels : List Label) (refs : List Reference)
    (before after : List Instruction) : Prop where
  length : after.length = before.length
  named : ∀ r ∈ refs, ∃ i target, address? labels r.target = some target ∧
    before[r.address]? = some i ∧ i.address?.isSome ∧
      after[r.address]? = some (i.pointed target)
  others : ∀ k, (∀ r ∈ refs, r.address ≠ k) → after[k]? = before[k]?

theorem resolve_all (ordered : refs.Pairwise fun r q => r.address < q.address)
    (pointing : ∀ r ∈ refs, ∃ i, code[r.address]? = some i ∧ i.address?.isSome)
    (bound : ∀ r ∈ refs, (address? labels r.target).isSome) :
    ∃ after, refs.foldlM (resolve labels) code = .ok after ∧ Resolved labels refs code after := by
  induction refs generalizing code with
  | nil => exact ⟨code, rfl, rfl, by simp, by simp⟩
  | cons r refs ih =>
    have ⟨above, tail⟩ := List.pairwise_cons.mp ordered
    obtain ⟨i, here, pointer⟩ := pointing r List.mem_cons_self
    obtain ⟨target, address⟩ := Option.isSome_iff_exists.mp (bound r List.mem_cons_self)
    have inside := (List.getElem?_eq_some_iff.mp here).1
    -- All that is still to be resolved stands further on.
    have untouched : ∀ q ∈ refs, (code.set r.address (i.pointed target))[q.address]? =
        code[q.address]? := by
      intro q mem
      have := above q mem
      exact List.getElem?_set_ne (by omega)
    have pointing' : ∀ q ∈ refs, ∃ j, (code.set r.address (i.pointed target))[q.address]? = some j ∧
        j.address?.isSome := by
      intro q mem
      rw [untouched q mem]
      exact pointing q (List.mem_cons_of_mem r mem)
    obtain ⟨after, run, resolved⟩ := ih tail pointing'
      fun q mem => bound q (List.mem_cons_of_mem r mem)
    refine ⟨after, ?_, ?_, ?_, ?_⟩
    · rw [List.foldlM_cons, resolve_bound address here pointer]
      exact run
    · rw [resolved.length, List.length_set]
    · intro q mem
      rcases List.mem_cons.mp mem with same | mem
      · subst q
        refine ⟨i, target, address, here, pointer, ?_⟩
        rw [resolved.others r.address fun q mem => by have := above q mem; omega,
          List.getElem?_set_self inside]
      · obtain ⟨j, aim, bound, there, pointer', moved⟩ := resolved.named q mem
        rw [untouched q mem] at there
        exact ⟨j, aim, bound, there, pointer', moved⟩
    · intro k free
      rw [resolved.others k fun q mem => free q (List.mem_cons_of_mem r mem)]
      exact List.getElem?_set_ne (free r List.mem_cons_self)

theorem resolve_stops {earlier later : List Reference} {r : Reference}
    (ordered : (earlier ++ r :: later).Pairwise fun r q => r.address < q.address)
    (pointing : ∀ q ∈ earlier, ∃ i, code[q.address]? = some i ∧ i.address?.isSome)
    (bound : ∀ q ∈ earlier, (address? labels q.target).isSome)
    (unbound : address? labels r.target = none) :
    (earlier ++ r :: later).foldlM (resolve labels) code =
      .error { cause := .unresolvedSymbol r.target, span := r.span } := by
  obtain ⟨after, run, _⟩ := resolve_all (List.pairwise_append.mp ordered).1 pointing bound
  rw [List.foldlM_append, run]
  show (r :: later).foldlM (resolve labels) after = _
  rw [List.foldlM_cons, resolve_unbound unbound]
  rfl

theorem Tidy.pointing_at_origin {f : Fragment} (tidy : f.Tidy .origin) :
    ∀ r ∈ f.references, ∃ i, f.code[r.address]? = some i ∧ i.address?.isSome :=
  fun r mem => (tidy.pointing r mem).2

theorem Tidy.link_ok {f : Fragment} (tidy : f.Tidy .origin)
    (bound : ∀ r ∈ f.references, (address? f.labels r.target).isSome) :
    ∃ code, f.link = .ok ⟨0, code⟩ ∧ Resolved f.labels f.references f.code code := by
  obtain ⟨code, run, resolved⟩ := resolve_all tidy.ordered tidy.pointing_at_origin bound
  exact ⟨code, by rw [link, run]; rfl, resolved⟩

theorem Tidy.link_error {f : Fragment} (tidy : f.Tidy .origin) {r : Reference}
    (first : f.references.find? (fun r => (address? f.labels r.target).isNone) = some r) :
    ∃ earlier later, f.references = earlier ++ r :: later ∧
      (∀ q ∈ earlier, (address? f.labels q.target).isSome) ∧ address? f.labels r.target = none ∧
      f.link = .error { cause := .unresolvedSymbol r.target, span := r.span } := by
  obtain ⟨unbound, earlier, later, split, before⟩ := List.find?_eq_some_iff_append.mp first
  have bound : ∀ q ∈ earlier, (address? f.labels q.target).isSome := by
    intro q mem
    simpa [Option.isSome_iff_ne_none] using before q mem
  have unbound := Option.isNone_iff_eq_none.mp unbound
  refine ⟨earlier, later, split, bound, unbound, ?_⟩
  have stops := resolve_stops (split ▸ tidy.ordered)
    (fun q mem => tidy.pointing_at_origin q (split ▸ List.mem_append_left _ mem)) bound unbound
  rw [link, split, stops]
  rfl

end Fragment

namespace Draft

/-- The drafts that come about by adding to the empty one, whether what is added succeeds or not. -/
inductive Reached : Draft → Prop where
  | empty : Reached .empty
  | expression {d : Draft} (before : Reached d) (t : Term) : Reached (d.expression t).2
  | statement {d : Draft} (before : Reached d) (t : Term) : Reached (d.statement t).2
  | define {d : Draft} (before : Reached d) (name : String) (span : Span) :
      Reached (d.define name span).2
  | emit {d : Draft} (before : Reached d) (i : Instruction) : Reached (d.emit i)
  | refer {d : Draft} (before : Reached d) (i : Instruction) (target : String) (span : Span)
      (pointer : i.address?.isSome) : Reached (d.refer i target span)
  | node {d : Draft} (before : Reached d) (node? : Option String) :
      Reached { d with node? := node? }

theorem tidy_run {α : Type} {d : Draft} {e : Emit α} {p : Plan} (tidy : d.Tidy .origin)
    (builds : e.Builds p) : (d.run e).2.Tidy .origin := by
  have here : d.site = Site.origin.after d.toFragment := by
    simp [site, size, Site.after, Site.origin]
  have new := builds.tidy d.site
  rw [here] at new
  unfold run
  rw [here]
  exact Fragment.composed_tidy.append tidy new

theorem Reached.tidy {d : Draft} (reached : d.Reached) : d.Tidy .origin := by
  induction reached with
  | empty => exact Fragment.composed_tidy.empty _
  | expression _ t tidy => exact tidy_run tidy (Form.builds_expression _ t)
  | statement _ t tidy => exact tidy_run tidy (Form.builds_statement _ t)
  | define _ name span tidy => exact tidy_run tidy (.define name span)
  | emit _ i tidy => exact tidy_run tidy (.emit .other i)
  | refer _ i target span pointer tidy => exact tidy_run tidy (.refer .other i target span pointer)
  | node _ _ tidy => exact tidy

/-- Linking a draft fails only for a name that nothing binds, and tells of the first. Otherwise each
instruction that was added with a name points to the address of that name, and nothing else has
changed. -/
theorem link_exact {d : Draft} (reached : d.Reached) :
    ((∃ p, d.link = .ok p) ↔ ∀ r ∈ d.references, ∃ l ∈ d.labels, l.name = r.target) ∧
    (∀ p, d.link = .ok p → p.start = 0 ∧ p.code.length = d.code.length ∧
      (∀ r ∈ d.references, ∀ l ∈ d.labels, l.name = r.target →
        ∃ i j, d.code[r.address]? = some i ∧ p.code[r.address]? = some j ∧
          j.opcode = i.opcode ∧ j.address? = some l.address) ∧
      ∀ k, (∀ r ∈ d.references, r.address ≠ k) → p.code[k]? = d.code[k]?) ∧
    (∀ problem, d.link = .error problem → problem.cause ≠ .invalidReference ∧
      ∃ earlier r later, d.references = earlier ++ r :: later ∧
        (∀ q ∈ earlier, q.address < r.address ∧ ∃ l ∈ d.labels, l.name = q.target) ∧
        (∀ q ∈ later, r.address < q.address) ∧ (∀ l ∈ d.labels, l.name ≠ r.target) ∧
        problem = { cause := .unresolvedSymbol r.target, span := r.span } ∧
        problem.diagnostic.reason = "Unresolved symbol") := by
  have tidy := reached.tidy
  cases first : d.references.find? fun r => (Fragment.address? d.labels r.target).isNone with
  | none =>
    have bound : ∀ r ∈ d.references, (Fragment.address? d.labels r.target).isSome := by
      intro r mem
      simpa [Option.isSome_iff_ne_none] using List.find?_eq_none.mp first r mem
    obtain ⟨code, run, resolved⟩ := tidy.link_ok bound
    refine ⟨⟨fun _ r mem => Fragment.address?_isSome_iff.mp (bound r mem), fun _ => ⟨_, run⟩⟩,
      ?_, ?_⟩
    · intro p linked
      cases run.symm.trans linked
      refine ⟨rfl, resolved.length, ?_, resolved.others⟩
      intro r mr l ml same
      obtain ⟨i, target, address, here, pointer, moved⟩ := resolved.named r mr
      have := Fragment.address?_of_mem tidy.distinct ml
      rw [same, address] at this
      obtain rfl := Option.some.inj this
      exact ⟨i, _, here, moved, Instruction.opcode_pointed i _,
        Instruction.address?_pointed pointer _⟩
    · intro problem failed
      cases run.symm.trans failed
  | some r =>
    obtain ⟨earlier, later, split, bound, unbound, run⟩ := tidy.link_error first
    have unbound := Fragment.address?_eq_none_iff.mp unbound
    have ordered := List.pairwise_append.mp (split ▸ tidy.ordered)
    have mem : r ∈ d.references := split ▸ List.mem_append_right _ List.mem_cons_self
    refine ⟨⟨fun ⟨p, linked⟩ => ?_, fun all => ?_⟩, ?_, ?_⟩
    · cases run.symm.trans linked
    · obtain ⟨l, ml, same⟩ := all r mem
      exact (unbound l ml same).elim
    · intro p linked
      cases run.symm.trans linked
    · intro problem failed
      cases run.symm.trans failed
      refine ⟨by simp, earlier, r, later, split, ?_, ?_, unbound, rfl, rfl⟩
      · intro q mq
        exact ⟨ordered.2.2 q mq r List.mem_cons_self, Fragment.address?_isSome_iff.mp (bound q mq)⟩
      · exact (List.pairwise_cons.mp ordered.2.1).1

/-- A sequence that fails at its second statement leaves the reference of its first behind. -/
theorem link_exact_after_failure :
    let jump : Term := .list default [.symbol default "Jump", .symbol default "Later"]
    let broken : Term := .list default [.symbol default "do",
      .list default [.symbol default "asm", jump], .literal default .nil]
    let d := (((empty.refer (.jump 0) "Later" default).statement broken).2.define "Later" default).2
    (∃ problem, ((empty.refer (.jump 0) "Later" default).statement broken).1 = .error problem) ∧
      ∃ p, d.link = .ok p ∧ p.start = 0 ∧ p.code.length = 3 := by
  intro jump broken d
  have reached : d.Reached := .define (.statement (.refer .empty _ _ _ rfl) _) _ _
  have exactly := link_exact reached
  obtain ⟨p, linked⟩ := exactly.1.mpr (by decide)
  have ⟨start, length, _⟩ := exactly.2.1 p linked
  exact ⟨⟨_, rfl⟩, p, linked, start, length⟩

end Draft
end Dialogue
