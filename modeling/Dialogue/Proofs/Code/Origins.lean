import Dialogue.Proofs.Code.Heredity

/-!
What is noted of the instructions of a plan is true of them. The jump of a link and the choices of a
menu refer to what they are said to lead to, and apart from assembly nothing leaves a node or shows
a menu but in the name of the node it was compiled in.
-/
namespace Dialogue

namespace Instruction

/-- The node that an instruction leaves, or whose menu it shows. -/
def within? : Instruction → Option String
  | exitNode s | showChoice s => some s
  | _ => none

end Instruction

def Placed.Fits (resolve : String → Option Nat) (title : String) (x : Placed) : Prop :=
  x.origin = .assembly ∨ (∀ s, x.instruction.within? = some s → s = title) ∧
    ∀ target a, resolve target = some a →
      (x.origin = .link target → x.instruction = .jump a) ∧
      (x.origin = .item target ∨ x.origin = .option target → x.instruction = .pushChoice a)

namespace Plan

def Fits (title : String) : Plan → Prop
  | empty | label _ _ => True
  | one origin i =>
    origin = .assembly ∨ origin = .other ∧ ∀ s, i.within? = some s → s = title
  | reference origin i target _ =>
    origin = .assembly ∨ origin = .link target ∧ i = .jump 0 ∨
      (origin = .item target ∨ origin = .option target) ∧ i = .pushChoice 0
  | both p q | loop p q | branches p q => p.Fits title ∧ q.Fits title

variable {resolve : String → Option Nat} {title target : String} {i : Instruction}
variable {origin : Origin}

theorem fits_of_other (outside : i.within? = none) : (one .other i).Fits title :=
  Or.inr ⟨rfl, fun s named => by rw [outside] at named; cases named⟩

theorem placed_fits_one (fits : (one origin i).Fits title) :
    (⟨origin, i⟩ : Placed).Fits resolve title := by
  rcases fits with assembly | ⟨rfl, named⟩
  · exact Or.inl assembly
  · refine Or.inr ⟨named, fun target a _ => ⟨fun link => ?_, fun choice => ?_⟩⟩
    · cases link
    · rcases choice with item | option
      · cases item
      · cases option

theorem placed_fits_reference {span : Span} (fits : (reference origin i target span).Fits title) :
    (⟨origin, ((resolve target).map i.pointed).getD i⟩ : Placed).Fits resolve title := by
  rcases fits with assembly | ⟨rfl, rfl⟩ | ⟨choice, rfl⟩
  · exact Or.inl assembly
  · refine Or.inr ⟨fun s named => ?_, fun other a known => ⟨fun link => ?_, fun choice => ?_⟩⟩
    · cases bound : resolve target <;> rw [bound] at named <;> cases named
    · cases link
      simp [known, Instruction.pointed, Instruction.retarget?]
    · rcases choice with item | option
      · cases item
      · cases option
  · refine Or.inr ⟨fun s named => ?_, fun other a known => ⟨fun link => ?_, fun choice' => ?_⟩⟩
    · cases bound : resolve target <;> rw [bound] at named <;> cases named
    · rcases choice with rfl | rfl <;> cases link
    · have same : other = target := by
        rcases choice with rfl | rfl <;> rcases choice' with same | same <;> cases same <;> rfl
      subst same
      simp [known, Instruction.pointed, Instruction.retarget?]

theorem placed_fits {p : Plan} (fits : p.Fits title) (start : Nat) :
    ∀ x ∈ p.code resolve start, x.Fits resolve title := by
  have jump : ∀ a, (⟨.other, .jump a⟩ : Placed).Fits resolve title :=
    fun _ => placed_fits_one (fits_of_other rfl)
  have test : ∀ a, (⟨.other, .jumpIfFalse a⟩ : Placed).Fits resolve title :=
    fun _ => placed_fits_one (fits_of_other rfl)
  induction p generalizing start with
  | empty | label => intro x mem; cases mem
  | one =>
    intro x mem
    rw [List.mem_singleton.mp mem]
    exact placed_fits_one fits
  | reference =>
    intro x mem
    rw [List.mem_singleton.mp mem]
    exact placed_fits_reference fits
  | both p q first second =>
    intro x mem
    rcases List.mem_append.mp mem with front | back
    · exact first fits.1 _ x front
    · exact second fits.2 _ x back
  | loop c b condition body =>
    intro x mem
    rcases List.mem_append.mp mem with front | back
    · exact condition fits.1 _ x front
    · rcases List.mem_cons.mp back with rfl | back
      · exact test _
      · rcases List.mem_append.mp back with inner | last
        · exact body fits.2 _ x inner
        · rw [List.mem_singleton.mp last]
          exact jump _
  | branches p q consequence alternative =>
    intro x mem
    rcases List.mem_cons.mp mem with rfl | mem
    · exact test _
    · rcases List.mem_append.mp mem with front | back
      · exact consequence fits.1 _ x front
      · rcases List.mem_cons.mp back with rfl | back
        · exact jump _
        · exact alternative fits.2 _ x back

end Plan

theorem Assembly.fits_plan (title : String) (ts : List Term) : (Assembly.plan ts).Fits title := by
  induction ts with
  | nil => trivial
  | cons t ts ih =>
    rcases t with _ | _ | ⟨span, _ | ⟨head, arguments⟩⟩
    · trivial
    · trivial
    · trivial
    · cases head with
      | symbol _ name =>
        refine ⟨?_, ih⟩
        unfold Assembly.linePlan
        repeat' split
        all_goals first | exact Or.inl rfl | exact True.intro
      | literal | list => trivial

theorem Instruction.within?_of_isPlain {i : Instruction} (plain : i.isPlain) :
    i.within? = none := by
  cases i <;> first | rfl | cases plain

theorem Plan.hereditary_fits (title : String) : Plan.Hereditary title (Plan.Fits title) where
  empty := trivial
  both first second := ⟨first, second⟩
  loop condition body := ⟨condition, body⟩
  branches consequence alternative := ⟨consequence, alternative⟩
  plain plain := fits_of_other (Instruction.within?_of_isPlain plain)
  menu := Or.inr ⟨rfl, fun _ named => (Option.some.inj named).symm⟩
  leave := Or.inr ⟨rfl, fun _ named => (Option.some.inj named).symm⟩
  link _ _ := Or.inr (Or.inl ⟨rfl, rfl⟩)
  item _ _ := Or.inr (Or.inr ⟨Or.inl rfl, rfl⟩)
  option _ _ := Or.inr (Or.inr ⟨Or.inr rfl, rfl⟩)
  assembly := Assembly.fits_plan title

end Dialogue
