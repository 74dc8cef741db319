import Dialogue.Code.Link
import Dialogue.Proofs.Code.Extent
import Dialogue.Proofs.Code.Generating

/-!
Code is only ever added. Whatever a term holds, and whether it is accepted or not, a draft keeps all
it has and gains code at its end; what was gained leads into itself or is still to be resolved. This
is so although a generator writes back into code that is already there: it does so only at the jumps
that it has emitted itself.
-/
namespace Dialogue

namespace Fragment

/-- What the fragment names is in it or right after it. -/
def Confined (f : Fragment) (s : Site) : Prop :=
  ∀ l ∈ f.labels, s.start ≤ l.address ∧ l.address ≤ s.start + f.code.length

theorem composed_confined : Composed Confined where
  empty _ := nofun
  one _ _ := nofun
  reference _ _ _ _ := nofun
  label _ _ := by
    intro l mem
    rw [List.mem_singleton.mp mem]
    exact ⟨Nat.le_refl _, Nat.le_add_right _ _⟩
  append {f g s} first second := by
    intro l mem
    rw [code_append, List.length_append]
    rcases List.mem_append.mp mem with front | back
    · have inside := first l front
      omega
    · have inside := second l back
      simp only [Site.after] at inside
      omega

end Fragment

namespace Draft
variable {α : Type} {d d' : Draft} {e : Emit α} {p : Plan}

/-- `d'` is `d` with something added, by an emission that ended with `r`. -/
structure Gains (d : Draft) (added : Fragment) (r : Except Problem Unit) (d' : Draft) : Prop where
  code : d'.code = d.code ++ added.code
  references : d'.references = d.references ++ added.references
  labels : d'.labels = d.labels ++ added.labels
  node : d'.node? = d.node?
  /-- What was bound stays bound where it was. -/
  bound : ∀ name a, Fragment.address? d.labels name = some a →
    Fragment.address? d'.labels name = some a
  /-- Each new reference is made for a new jump or choice. -/
  pointing : ∀ r ∈ added.references, d.size ≤ r.address ∧ r.address < d'.size ∧
    ∃ i, d'.code[r.address]? = some i ∧
      (i.opcode = .jump ∨ i.opcode = .jumpIfFalse ∨ i.opcode = .pushChoice)
  fresh : ∀ l ∈ added.labels, Fragment.address? d.labels l.name = none ∧
    d.size ≤ l.address ∧ l.address ≤ d'.size
  /-- A new jump or choice without a reference leads to what is new. -/
  inward : r = .ok () → ∀ k i a, d.size ≤ k → d'.code[k]? = some i → i.address? = some a →
    (∀ r ∈ added.references, r.address ≠ k) → d.size ≤ a ∧ a ≤ d'.size

theorem opcode_of_pointer {i : Instruction} (pointer : i.address?.isSome) :
    i.opcode = .jump ∨ i.opcode = .jumpIfFalse ∨ i.opcode = .pushChoice := by
  cases i with
  | jump => exact Or.inl rfl
  | jumpIfFalse => exact Or.inr (Or.inl rfl)
  | pushChoice => exact Or.inr (Or.inr rfl)
  | _ => cases pointer

theorem gains_run {e : Emit Unit} (builds : e.Builds p) (opened : p.Open) (d : Draft) :
    d.Gains (e d.site).1 (d.run e).1 (d.run e).2 := by
  have tidy := builds.tidy d.site
  have confined := builds.composed Fragment.composed_confined d.site
  have size : (d.run e).2.size = d.size + (e d.site).1.code.length := size_plus d _
  refine ⟨rfl, rfl, rfl, rfl, ?_, ?_, ?_, ?_⟩
  · exact fun name a known => Fragment.address?_append known _
  · intro r mem
    obtain ⟨above, i, here, pointer⟩ := tidy.pointing r mem
    have below := tidy.address_lt mem
    refine ⟨above, by rw [size]; exact below, i, ?_, opcode_of_pointer pointer⟩
    show (d.code ++ _)[r.address]? = _
    rw [List.getElem?_append_right above]
    exact here
  · intro l mem
    refine ⟨?_, by rw [size]; exact confined l mem⟩
    rw [Fragment.address?, List.find?_eq_none.mpr, Option.map_none]
    intro k old
    simpa using tidy.fresh l mem k old
  · intro succeeds k i a above here address unresolved
    have built : (e d.site).1 = p.fragment d.size := builds.fragment_eq (Prod.ext rfl succeeds)
    rw [built] at size unresolved
    rw [Plan.length_fragment] at size
    let allowed (k a : Nat) := (∃ r ∈ p.references d.size, r.address = k) ∨
      d.size ≤ a ∧ a ≤ (d.run e).2.size
    have leads : Plan.Leads allowed d.size (p.fragment d.size).code :=
      Plan.leads_instructions opened (fun k a _ _ _ => Or.inr (by omega))
        (Or.inr fun k a _ _ _ => Or.inr (by omega)) fun r mem => Or.inl ⟨r, mem, rfl⟩
    change (d.code ++ _)[k]? = _ at here
    rw [List.getElem?_append_right above, built] at here
    rcases leads _ i a here address with ⟨r, mem, same⟩ | within
    · exact absurd (same.trans (Nat.add_sub_cancel' above)) (unresolved r mem)
    · exact within

theorem generated_gains {e : Emit Unit} (builds : e.Builds p) (opened : p.Open) (d : Draft) :
    ∃ g, Generates g e ∧ g d = d.run e ∧ ∃ added, d.Gains added (d.run e).1 (d.run e).2 := by
  obtain ⟨g, generates⟩ := Generates.of_builds builds
  exact ⟨g, generates, congrFun generates.eq_adding d, _, gains_run builds opened d⟩

/-- A term is generated in steps, jumps being pointed after they are emitted. Whatever it holds
and whether it is accepted or not, all that is in the draft stays as it is: code, references and
names are added after those that are there. Every new reference is made for a new jump or choice,
every new name is bound to an address of the new code or to the one after it, and when the term is
accepted, each new jump either has such a reference or leads to an address of this kind itself. -/
theorem term_only_adds (d : Draft) (t : Term) :
    (∃ g, Generates g (Form.expression d.node? t) ∧ g d = d.expression t ∧
      ∃ added, d.Gains added (d.expression t).1 (d.expression t).2) ∧
    ∃ g, Generates g (Form.statement d.node? t) ∧ g d = d.statement t ∧
      ∃ added, d.Gains added (d.statement t).1 (d.statement t).2 := by
  have opened : (Form.plan d.node? t).Open :=
    Form.hereditary_plan (Plan.hereditary_open _) t
  exact ⟨generated_gains (Form.builds_expression d.node? t) opened d,
    generated_gains (Form.builds_statement d.node? t) opened d⟩

/-- A term that fails in the branch of a conditional has left a placeholder behind. -/
example :
    let t : Term := .list default [.symbol default "if", .literal default (.boolean true),
      .list default [], .literal default .nil]
    let d := Draft.empty.emit .endDialogue
    (d.statement t).2.code = [.endDialogue, .pushBool true, .jumpIfFalse 0] := rfl

end Draft
end Dialogue
