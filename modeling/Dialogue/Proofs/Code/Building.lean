import Dialogue.Code.Draft
import Dialogue.Proofs.Code.Plan

/-!
What is known of an emitter that follows a plan. When it succeeds it has emitted the plan laid out
at its site. Whether it succeeds or not, every reference it leaves points at an instruction that
has an address, no two at the same one, and every name it binds is new.
-/
namespace Dialogue

namespace Fragment

/-- A fragment for the site `s` whose references can be resolved and whose labels are new. -/
structure Tidy (f : Fragment) (s : Site) : Prop where
  ordered : f.references.Pairwise fun r q => r.address < q.address
  pointing : ∀ r ∈ f.references, s.start ≤ r.address ∧
    ∃ i, f.code[r.address - s.start]? = some i ∧ i.address?.isSome
  fresh : ∀ l ∈ f.labels, ∀ k ∈ s.labels, k.name ≠ l.name
  distinct : f.labels.Pairwise fun k l => k.name ≠ l.name

variable {f g : Fragment} {s : Site}

theorem Tidy.address_lt (tidy : f.Tidy s) {r : Reference} (mem : r ∈ f.references) :
    r.address < s.start + f.code.length := by
  obtain ⟨above, i, here, _⟩ := tidy.pointing r mem
  have := (List.getElem?_eq_some_iff.mp here).1
  omega

/-- A property of fragments at their sites that what is emitted has when its parts have it. -/
structure Composed (P : Fragment → Site → Prop) : Prop where
  empty (s : Site) : P .empty s
  one (i : Instruction) (s : Site) : P (.one i) s
  reference {i : Instruction} (pointer : i.address?.isSome) (target : String) (span : Span)
    (s : Site) : P ⟨[i], [], [⟨target, span, s.start⟩]⟩ s
  label {name : String} {s : Site} (unbound : ∀ k ∈ s.labels, k.name ≠ name) (span : Span) :
    P ⟨[], [⟨name, s.start, span⟩], []⟩ s
  append {f g : Fragment} {s : Site} (first : P f s) (second : P g (s.after f)) : P (f ++ g) s

theorem Composed.after_one {P : Fragment → Site → Prop} (composed : Composed P) {i : Instruction}
    (j : Instruction) (rest : P f (s.after (.one i))) : P (.one j ++ f) s :=
  composed.append (composed.one j s) rest

theorem composed_tidy : Composed Tidy where
  empty s := by constructor <;> simp [empty]
  one i s := by constructor <;> simp [one]
  reference {i} pointer target span s := by
    constructor
    · simp
    · intro r mem
      rw [List.mem_singleton.mp mem]
      exact ⟨Nat.le_refl _, i, by simp, pointer⟩
    · simp
    · simp
  label unbound span := by
    constructor
    · simp
    · simp
    · intro l mem k old
      rw [List.mem_singleton.mp mem]
      exact unbound k old
    · simp
  append {f g s} hf hg := by
    constructor
    · rw [references_append, List.pairwise_append]
      refine ⟨hf.ordered, hg.ordered, ?_⟩
      intro r mr q mq
      have below := hf.address_lt mr
      have above := (hg.pointing q mq).1
      simp only [Site.after] at above
      omega
    · intro r mem
      rw [references_append, List.mem_append] at mem
      rcases mem with mem | mem
      · obtain ⟨above, i, here, pointer⟩ := hf.pointing r mem
        refine ⟨above, i, ?_, pointer⟩
        have inside := (List.getElem?_eq_some_iff.mp here).1
        rw [code_append, List.getElem?_append_left inside]
        exact here
      · obtain ⟨above, i, here, pointer⟩ := hg.pointing r mem
        simp only [Site.after] at above here
        refine ⟨by omega, i, ?_, pointer⟩
        rw [code_append, List.getElem?_append_right (by omega), Nat.sub_sub]
        exact here
    · intro l mem k old
      rw [labels_append, List.mem_append] at mem
      rcases mem with mem | mem
      · exact hf.fresh l mem k old
      · exact hg.fresh l mem k (List.mem_append_left _ old)
    · rw [labels_append, List.pairwise_append]
      exact ⟨hf.distinct, hg.distinct,
        fun k mk l ml => hg.fresh l ml k (List.mem_append_right _ mk)⟩

end Fragment

namespace Emit
variable {α : Type} {e : Emit α} {p : Plan} {P : Fragment → Site → Prop}

theorem composed_define (composed : Fragment.Composed P) (name : String) (span : Span) (s : Site) :
    P (define name span s).1 s := by
  unfold define
  split
  · exact composed.empty s
  · rename_i unbound
    exact composed.label (fun k old => by simpa using List.find?_eq_none.mp unbound k old) span

/-- What is emitted is put together from single instructions, references and labels, and so is what
was emitted before a mistake. -/
theorem Builds.composed (composed : Fragment.Composed P) (builds : Builds e p) (s : Site) :
    P (e s).1 s := by
  induction builds generalizing s with
  | silent quiet =>
    obtain ⟨r, same⟩ := quiet
    rw [same]
    exact composed.empty s
  | fail => exact composed.empty s
  | emit => exact composed.one _ s
  | refer _ _ _ _ pointer => exact composed.reference pointer _ _ s
  | define name span => exact composed_define composed name span s
  | @both _ _ e k _ _ _ _ first second =>
    rw [bind_apply]
    have front := first s
    split
    · rename_i f p run; rw [run] at front; exact front
    · rename_i f a run; rw [run] at front; exact composed.append front (second a _)
  | @after _ _ e k _ _ quiet first =>
    rw [bind_apply]
    have front := first s
    split
    · rename_i f p run; rw [run] at front; exact front
    · rename_i f a run
      obtain ⟨r, same⟩ := quiet a
      rw [run] at front
      simpa [same] using front
  | @loop c b _ _ _ _ condition body =>
    rw [loop_apply]
    have front := condition s
    split
    · rename_i f p run; rw [run] at front; exact front
    · rename_i f run
      rw [run] at front
      have back := body ((s.after f).after (.one (.jumpIfFalse 0)))
      dsimp only
      split
      · rename_i g p run
        rw [run] at back
        exact composed.append front (composed.after_one _ back)
      · rename_i g run
        rw [run] at back
        have whole := composed.append back (composed.one (.jump s.start) _)
        exact composed.append front (composed.after_one _ whole)
  | @branches _ e k _ _ _ _ consequence alternative =>
    have front := consequence (s.after (.one (.jumpIfFalse 0)))
    unfold Emit.branches
    dsimp only
    split
    · rename_i f p run; rw [run] at front; exact composed.after_one _ front
    · rename_i f a run
      rw [run] at front
      have back := alternative a ((s.after (.one (.jumpIfFalse 0))).after (f ++ .one (.jump 0)))
      have body : ∀ i j : Instruction, ∀ g : Fragment,
          P g ((s.after (.one (.jumpIfFalse 0))).after (f ++ .one (.jump 0))) →
          P (Fragment.one i ++ f ++ .one j ++ g) s := by
        intro i j g rest
        rw [Site.after_append] at rest
        have whole := composed.after_one i (composed.append front (composed.after_one j rest))
        simpa [Fragment.append_assoc] using whole
      split
      · rename_i g p run; rw [run] at back; exact body _ _ g back
      · rename_i g run; rw [run] at back; exact body _ _ g back

theorem Builds.tidy (builds : Builds e p) (s : Site) : (e s).1.Tidy s :=
  builds.composed Fragment.composed_tidy s

theorem define_ok {name : String} {span : Span} {s : Site} {f : Fragment}
    (run : define name span s = (f, .ok ())) : f = ⟨[], [⟨name, s.start, span⟩], []⟩ := by
  unfold define at run
  split at run
  · cases run
  · exact (Prod.mk.inj run).1.symm

theorem Builds.fragment_eq (builds : Builds e p) {s : Site} {f : Fragment} {a : α}
    (run : e s = (f, .ok a)) : f = p.fragment s.start := by
  induction builds generalizing s f with
  | silent quiet =>
    obtain ⟨r, same⟩ := quiet
    rw [same] at run
    cases run
    rfl
  | fail => cases run
  | emit => cases run; rfl
  | refer => cases run; rfl
  | define name span => rw [define_ok run]; rfl
  | both _ _ first second =>
    obtain ⟨g, a, h, hg, hh, rfl⟩ := bind_ok run
    have front := first hg
    rw [Plan.fragment_both, second a hh, front]
    simp [Site.after]
  | after _ quiet first =>
    obtain ⟨g, a, h, hg, hh, rfl⟩ := bind_ok run
    obtain ⟨r, same⟩ := quiet a
    rw [same] at hh
    cases hh
    rw [Fragment.append_empty]
    exact first hg
  | @loop c b _ _ _ _ condition body =>
    rw [loop_apply] at run
    split at run
    · cases run
    · rename_i f' hc
      dsimp only at run
      split at run
      · cases run
      · rename_i g hb
        have front := condition hc
        have back := body hb
        cases run
        rw [Plan.fragment_loop, back, front]
        simp [Site.after, Fragment.one, Nat.add_assoc]
  | @branches _ e k _ _ _ _ consequence alternative =>
    unfold Emit.branches at run
    dsimp only at run
    split at run
    · cases run
    · rename_i f' a' he
      split at run
      · cases run
      · rename_i g hk
        have front := consequence he
        have back := alternative a' hk
        cases run
        rw [Plan.fragment_branches, back, front]
        simp [Site.after, Fragment.one, Nat.add_assoc]

end Emit

namespace Draft
variable {α : Type} {d d' : Draft} {e : Emit α} {p : Plan} {a : α}

/-- What a draft gains from an emitter that succeeds is the plan laid out at its end. -/
theorem run_ok (builds : e.Builds p) (ran : d.run e = (.ok a, d')) :
    (∃ f, e d.site = (f, .ok a)) ∧ d'.size = d.size + p.size ∧
      d'.code.drop d.size = p.instructions (fun _ => none) d.size := by
  unfold run at ran
  cases made : e d.site with
  | mk f r =>
    rw [made] at ran
    cases ran
    have built := builds.fragment_eq made
    refine ⟨⟨f, rfl⟩, ?_, ?_⟩
    · simp [size, built]
    · simp [size, built, Plan.fragment, site]

end Draft
end Dialogue
