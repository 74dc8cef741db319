import Dialogue.Proofs.Code.Building

/-!
The same code elsewhere. Where an emitter is to stand decides nothing but its addresses, unless a
name it binds is taken. So an emitter that was accepted at one place is accepted at every other
place where its names are free, and emits its plan there.
-/
namespace Dialogue

namespace Plan

def names : Plan → List String
  | empty | one _ _ | reference _ _ _ _ => []
  | label name _ => [name]
  | both p q | loop p q | branches p q => p.names ++ q.names

def targets : Plan → List String
  | empty | one _ _ | label _ _ => []
  | reference _ _ target _ => [target]
  | both p q | loop p q | branches p q => p.targets ++ q.targets

/-- Where a plan stands makes no difference to what it names and refers to. -/
theorem collected (p : Plan) (start : Nat) : (p.labels start).map Label.name = p.names ∧
    (p.references start).map Reference.target = p.targets := by
  induction p generalizing start with
  | empty | one | reference | label => exact ⟨rfl, rfl⟩
  | both p q first second | loop p q first second | branches p q first second =>
    simp only [labels, references, List.map_append, first, second, names, targets, and_self]

theorem names_of_labels (p : Plan) (start : Nat) : (p.labels start).map Label.name = p.names :=
  (p.collected start).1

theorem targets_of_references (p : Plan) (start : Nat) :
    (p.references start).map Reference.target = p.targets :=
  (p.collected start).2

theorem bound_at {p : Plan} {name : String} (mem : name ∈ p.names) :
    ∃ k ≤ p.size, ∃ span, ∀ start, ⟨name, start + k, span⟩ ∈ p.labels start := by
  induction p with
  | empty | one | reference => cases mem
  | label other span =>
    rw [List.mem_singleton.mp mem]
    exact ⟨0, Nat.le_refl 0, span, fun start => List.mem_cons_self⟩
  | both p q first second =>
    rcases List.mem_append.mp mem with front | back
    · obtain ⟨k, inside, span, labelled⟩ := first front
      exact ⟨k, by simp only [size]; omega, span, fun start =>
        List.mem_append_left _ (labelled start)⟩
    · obtain ⟨k, inside, span, labelled⟩ := second back
      refine ⟨p.size + k, by simp only [size]; omega, span, fun start => List.mem_append_right _ ?_⟩
      rw [← Nat.add_assoc]
      exact labelled _
  | loop c b condition body =>
    rcases List.mem_append.mp mem with front | back
    · obtain ⟨k, inside, span, labelled⟩ := condition front
      exact ⟨k, by simp only [size]; omega, span, fun start =>
        List.mem_append_left _ (labelled start)⟩
    · obtain ⟨k, inside, span, labelled⟩ := body back
      refine ⟨c.size + 1 + k, by simp only [size]; omega, span, fun start =>
        List.mem_append_right _ ?_⟩
      rw [← Nat.add_assoc, ← Nat.add_assoc]
      exact labelled _
  | branches p q consequence alternative =>
    rcases List.mem_append.mp mem with front | back
    · obtain ⟨k, inside, span, labelled⟩ := consequence front
      refine ⟨1 + k, by simp only [size]; omega, span, fun start => List.mem_append_left _ ?_⟩
      rw [← Nat.add_assoc]
      exact labelled _
    · obtain ⟨k, inside, span, labelled⟩ := alternative back
      refine ⟨1 + p.size + 1 + k, by simp only [size]; omega, span, fun start =>
        List.mem_append_right _ ?_⟩
      rw [← Nat.add_assoc, ← Nat.add_assoc, ← Nat.add_assoc]
      exact labelled _

end Plan

namespace Site
variable {s t : Site} {p : Plan} {others : List String}

def Free (s : Site) (names : List String) : Prop :=
  ∀ k ∈ s.labels, k.name ∉ names

theorem Free.left (free : s.Free (p.names ++ others)) : s.Free p.names :=
  fun k mem taken => free k mem (List.mem_append_left _ taken)

theorem Free.beyond (free : s.Free (p.names ++ others)) (distinct : (p.names ++ others).Nodup)
    (start : Nat) (labels : t.labels = s.labels ++ p.labels start) : t.Free others := by
  intro k mem taken
  rw [labels] at mem
  rcases List.mem_append.mp mem with old | new
  · exact free k old (List.mem_append_right _ taken)
  · have bound : k.name ∈ p.names := by
      rw [← p.names_of_labels start]
      exact List.mem_map_of_mem new
    exact (List.nodup_append.mp distinct).2.2 _ bound _ taken rfl

end Site

namespace Emit
variable {α : Type} {e : Emit α} {p : Plan} {s s' : Site} {f : Fragment} {a : α}

theorem Builds.names_nodup (builds : Builds e p) (run : e s = (f, .ok a)) : p.names.Nodup := by
  have tidy := builds.tidy s
  rw [run, builds.fragment_eq run] at tidy
  rw [← p.names_of_labels s.start]
  exact List.pairwise_map.mpr tidy.distinct

/-- An emitter that is accepted somewhere is accepted wherever its names are free, and emits its
plan. -/
theorem Builds.elsewhere (builds : Builds e p) (run : e s = (f, .ok a)) (free : s'.Free p.names) :
    e s' = (p.fragment s'.start, .ok a) := by
  have distinct := builds.names_nodup run
  induction builds generalizing s s' f with
  | silent quiet =>
    obtain ⟨r, same⟩ := quiet
    rw [same] at run ⊢
    cases run
    rfl
  | fail => cases run
  | emit | refer => cases run; rfl
  | define name span =>
    have unbound : s'.labels.find? (fun l => l.name == name) = none := by
      rw [List.find?_eq_none]
      intro k mem same
      exact free k mem (List.mem_singleton.mpr (eq_of_beq same))
    cases a
    simp only [Emit.define, unbound]
    rfl
  | @both _ _ _ _ p q _ _ first second =>
    obtain ⟨g, b, h, front, back, _⟩ := bind_ok run
    have apart := List.nodup_append.mp distinct
    have done := first front free.left apart.1
    have free' : (s'.after (p.fragment s'.start)).Free q.names := free.beyond distinct _ rfl
    have more := second b back free' apart.2.1
    rw [bind_apply, done]
    simp only [more, Plan.fragment_both]
    simp [Site.after]
  | after _ quiet first =>
    obtain ⟨g, b, h, front, back, _⟩ := bind_ok run
    have done := first front free distinct
    obtain ⟨r, same⟩ := quiet b
    rw [same] at back
    cases back
    rw [bind_apply, done]
    simp only [same, Fragment.append_empty]
  | @loop c b p q _ _ condition body =>
    obtain ⟨g, h, front, back⟩ := loop_ok run
    have apart := List.nodup_append.mp distinct
    have done := condition front free.left apart.1
    have free' : ((s'.after (p.fragment s'.start)).after (.one (.jumpIfFalse 0))).Free q.names :=
      free.beyond distinct s'.start (List.append_nil _)
    have more := body back free' apart.2.1
    rw [loop_apply, done]
    simp only [more, Plan.fragment_loop]
    simp [Site.after, Fragment.one, Nat.add_assoc]
  | @branches _ e k p q _ _ consequence alternative =>
    obtain ⟨g, h, front, back⟩ := branches_ok run
    have apart := List.nodup_append.mp distinct
    have unchanged : (s'.after (.one (.jumpIfFalse 0))).labels = s'.labels := List.append_nil _
    have free' : (s'.after (.one (.jumpIfFalse 0))).Free p.names := by
      rw [Site.Free, unchanged]
      exact free.left
    have left : e (s'.after (.one (.jumpIfFalse 0))) = (p.fragment (s'.start + 1), .ok a) :=
      consequence front free' apart.1
    have free' : ((s'.after (.one (.jumpIfFalse 0))).after
        (p.fragment (s'.start + 1) ++ .one (.jump 0))).Free q.names :=
      free.beyond distinct (s'.start + 1) (by simp [Site.after, Fragment.one, Plan.fragment])
    have right := alternative a back free' apart.2.1
    unfold Emit.branches
    simp only [left, right, Plan.fragment_branches]
    simp [Site.after, Fragment.one, Nat.add_assoc]

end Emit
end Dialogue
