import Dialogue.Proofs.Code.Applications
import Dialogue.Proofs.Meaning.Expression

/-!
Charts of a program. A chart says what is certain whenever control comes to an address between two
statements or two operands: the node that is open, the terms whose values are on the stack, and the
options put together so far. From a charted address control comes to charted addresses only. The
code of an expression is passed over as a whole; inside it nothing but the stack changes.
-/
namespace Dialogue.Conduct
open Form (WellFormed plan)

structure Point where
  node? : Option String
  held : List Term
  offers : List Offer

namespace Point

def idle (node? : Option String) : Point :=
  ⟨node?, [], []⟩

def hold (x : Point) (t : Term) : Point :=
  { x with held := x.held ++ [t] }

end Point

/-- A program with what its names stand for, and what may be met in it. -/
structure Setting where
  program : Program
  resolve : String → Option Nat
  /-- A function may be called with so many arguments. -/
  calls : String → Nat → Prop
  /-- A menu may be shown in a node. -/
  menus : String → List Offer → Prop
  /-- A line may be shown of which nothing was put together. -/
  blank : Prop

/-- The instruction at `a` is one that can be met at a point, and what comes after it is charted. -/
inductive Act (g : Setting) (At : Nat → Point → Prop) (a : Nat) : Point → Prop where
  | store {node? : Option String} {t : Term} {target : String}
      (here : g.program.code[a]? = some (.storeVariable target)) (next : At (a + 1) (.idle node?)) :
      Act g At a ⟨node?, [t], []⟩
  | line {node? : Option String} {t : Term} (here : g.program.code[a]? = some .showLine)
      (next : At (a + 1) (.idle node?)) : Act g At a ⟨node?, [t], []⟩
  | blank {node? : Option String} (allowed : g.blank)
      (here : g.program.code[a]? = some .showLine) (next : At (a + 1) (.idle node?)) :
      Act g At a ⟨node?, [], []⟩
  | call {node? : Option String} {name : String} {ts : List Term} (allowed : g.calls name ts.length)
      (here : g.program.code[a]? = some (.call name)) (next : At (a + 1) (.idle node?)) :
      Act g At a ⟨node?, ts, []⟩
  | test {node? : Option String} {t : Term} {target : Nat}
      (here : g.program.code[a]? = some (.jumpIfFalse target)) (yes : At (a + 1) (.idle node?))
      (no : At target (.idle node?)) : Act g At a ⟨node?, [t], []⟩
  | jump {node? : Option String} {target : Nat} (here : g.program.code[a]? = some (.jump target))
      (next : At target (.idle node?)) : Act g At a ⟨node?, [], []⟩
  | choice {node destination : String} {t : Term} {offers : List Offer} {target : Nat}
      (bound : g.resolve destination = some target)
      (here : g.program.code[a]? = some (.pushChoice target))
      (next : At (a + 1) ⟨some node, [], offers ++ [⟨t, destination⟩]⟩) :
      Act g At a ⟨some node, [t], offers⟩
  | menu {node : String} {offers : List Offer} (allowed : g.menus node offers)
      (here : g.program.code[a]? = some (.showChoice node)) : Act g At a ⟨some node, [], offers⟩
  | enter {node : String} (here : g.program.code[a]? = some (.enterNode node))
      (next : At (a + 1) (.idle (some node))) : Act g At a ⟨none, [], []⟩
  | leave {node : String} (here : g.program.code[a]? = some (.exitNode node))
      (next : At (a + 1) (.idle none)) : Act g At a ⟨some node, [], []⟩
  | finish (here : g.program.code[a]? = some .endDialogue) : Act g At a ⟨none, [], []⟩
  | off (beyond : g.program.code[a]? = none) : Act g At a ⟨none, [], []⟩

/-- What can come next at a point: a value is worked out, or one instruction is executed. -/
inductive Way (g : Setting) (At : Nat → Point → Prop) (a : Nat) (x : Point) : Prop where
  | value {t : Term} (formed : WellFormed x.node? .expression t)
      (holds : g.program.Holds a ((plan x.node? t).instructions g.resolve a))
      (next : At (a + (plan x.node? t).size) (x.hold t)) : Way g At a x
  | act (act : Act g At a x) : Way g At a x

structure Charted (g : Setting) (At : Nat → Point → Prop) : Prop where
  start : At g.program.start (.idle none)
  door : ∀ name a, g.resolve name = some a →
    g.program.code[a]? = some (.enterNode name) ∧ At a (.idle none)
  way : ∀ a x, At a x → Way g At a x

variable {g : Setting} {At At' goal goal' chart : Nat → Point → Prop} {a : Nat} {x : Point}

theorem Act.mono (wider : ∀ b y, At b y → At' b y) (act : Act g At a x) : Act g At' a x := by
  cases act with
  | store here next => exact .store here (wider _ _ next)
  | line here next => exact .line here (wider _ _ next)
  | blank allowed here next => exact .blank allowed here (wider _ _ next)
  | call allowed here next => exact .call allowed here (wider _ _ next)
  | test here yes no => exact .test here (wider _ _ yes) (wider _ _ no)
  | jump here next => exact .jump here (wider _ _ next)
  | choice bound here next => exact .choice bound here (wider _ _ next)
  | menu allowed here => exact .menu allowed here
  | enter here next => exact .enter here (wider _ _ next)
  | leave here next => exact .leave here (wider _ _ next)
  | finish here => exact .finish here
  | off beyond => exact .off beyond

theorem Way.mono (wider : ∀ b y, At b y → At' b y) (way : Way g At a x) : Way g At' a x := by
  cases way with
  | value formed holds next => exact .value formed holds (wider _ _ next)
  | act act => exact .act (act.mono wider)

/-- Control that is at `a` keeps to a chart until it comes to one of the goals, if it ever does. -/
def Ahead (g : Setting) (goal : Nat → Point → Prop) (a : Nat) (x : Point) : Prop :=
  ∃ chart : Nat → Point → Prop,
    (∀ b y, chart b y → Way g (fun c z => chart c z ∨ goal c z) b y) ∧ (chart a x ∨ goal a x)

namespace Ahead

theorem here (at_goal : goal a x) : Ahead g goal a x :=
  ⟨fun _ _ => False, fun _ _ none => none.elim, Or.inr at_goal⟩

theorem cases (ahead : Ahead g goal a x) : Way g (Ahead g goal) a x ∨ goal a x := by
  obtain ⟨chart, closed, charted | at_goal⟩ := ahead
  · exact Or.inl ((closed a x charted).mono fun _ _ next => ⟨chart, closed, next⟩)
  · exact Or.inr at_goal

theorem of_chart (closed : ∀ b y, chart b y → Way g (fun c z => chart c z ∨ Ahead g goal c z) b y)
    (charted : chart a x) : Ahead g goal a x := by
  let whole : Nat → Point → Prop := fun b y => chart b y ∨ Way g (Ahead g goal) b y
  have within : ∀ c z, Ahead g goal c z → whole c z ∨ goal c z := fun c z ahead =>
    ahead.cases.imp_left Or.inr
  refine ⟨whole, fun b y from_here => ?_, Or.inl (Or.inl charted)⟩
  rcases from_here with here | beyond
  · refine (closed b y here).mono fun c z next => ?_
    rcases next with inside | ahead
    · exact Or.inl (Or.inl inside)
    · exact within c z ahead
  · exact beyond.mono within

theorem way (next : Way g (Ahead g goal) a x) : Ahead g goal a x := by
  have closed : ∀ b y, Way g (Ahead g goal) b y →
      Way g (fun c z => Way g (Ahead g goal) c z ∨ Ahead g goal c z) b y :=
    fun _ _ next => next.mono fun _ _ ahead => Or.inr ahead
  exact of_chart closed next

theorem act (next : Act g (Ahead g goal) a x) : Ahead g goal a x :=
  way (.act next)

theorem further (ahead : Ahead g goal a x) (more : ∀ b y, goal b y → Ahead g goal' b y) :
    Ahead g goal' a x := by
  have closed : ∀ b y, Way g (Ahead g goal) b y →
      Way g (fun c z => Way g (Ahead g goal) c z ∨ Ahead g goal' c z) b y :=
    fun _ _ next => next.mono fun c z ahead => ahead.cases.imp_right (more c z)
  rcases ahead.cases with next | at_goal
  · exact of_chart closed next
  · exact more a x at_goal

/-- Control may come back to where it was, any number of times. -/
theorem cycle (next : Way g (Ahead g fun b y => goal b y ∨ b = a ∧ y = x) a x) :
    Ahead g goal a x := by
  let chart := Way g (Ahead g fun b y => goal b y ∨ b = a ∧ y = x)
  have closed : ∀ b y, chart b y → Way g (fun c z => chart c z ∨ Ahead g goal c z) b y := by
    intro b y from_here
    refine from_here.mono fun c z ahead => ?_
    rcases ahead.cases with inside | at_goal | ⟨rfl, rfl⟩
    · exact Or.inl inside
    · exact Or.inr (here at_goal)
    · exact Or.inl next
  exact of_chart closed next

end Ahead

def Setting.Door (g : Setting) (a : Nat) (x : Point) : Prop :=
  ∃ name, g.resolve name = some a ∧ x = .idle none

/-- A program is charted when each door is the entrance of a node and what lies behind it is. -/
theorem charted_of_doors (start : Ahead g g.Door g.program.start (.idle none))
    (doors : ∀ name a, g.resolve name = some a →
      g.program.code[a]? = some (.enterNode name) ∧ Ahead g g.Door (a + 1) (.idle (some name))) :
    Charted g (Ahead g g.Door) := by
  refine ⟨start, fun name a bound => ⟨(doors name a bound).1, .here ⟨name, bound, rfl⟩⟩, ?_⟩
  intro a x ahead
  rcases ahead.cases with next | ⟨name, bound, rfl⟩
  · exact next
  · obtain ⟨here, behind⟩ := doors name a bound
    exact .act (.enter here behind)

end Dialogue.Conduct
