import Dialogue.Code.Draft
import Dialogue.Proofs.Code.Plan

/-!
Code generated in steps. A generator works on one draft: it writes at the end, and emits a jump over
code that is yet to come without its target and points it when that code is there. What an emitter
makes for its site in one piece is generated by such steps, the same code being there after each
mistake.
-/
namespace Dialogue

/-- Steps on one draft, up to the first mistake. -/
def Generator (α : Type) : Type :=
  Draft → Except Problem α × Draft

namespace Generator
variable {α β : Type}

protected def bind (g : Generator α) (h : α → Generator β) : Generator β := fun d =>
  match g d with
  | (.error problem, d') => (.error problem, d')
  | (.ok a, d') => h a d'

def result (r : Except Problem α) : Generator α :=
  fun d => (r, d)

instance : Monad Generator where
  pure a := result (.ok a)
  bind := Generator.bind

def size : Generator Nat :=
  fun d => (.ok d.size, d)

def emit (i : Instruction) : Generator Nat :=
  fun d => (.ok d.size, d.emit i)

def refer (i : Instruction) (target : String) (span : Span) : Generator Unit :=
  fun d => (.ok (), d.refer i target span)

def define (name : String) (span : Span) : Generator Unit :=
  fun d => d.define name span

def patch (address target : Nat) : Generator Unit :=
  fun d => (.ok (), d.patch address target)

/-- The condition, a jump that is pointed at the end, the body and a jump back. -/
def loop (condition body : Generator Unit) : Generator Unit := do
  let top ← size
  condition
  let exit ← emit (.jumpIfFalse 0)
  body
  let _ ← emit (.jump top)
  patch exit (← size)

theorem bind_apply (g : Generator α) (h : α → Generator β) (d : Draft) :
    (g >>= h) d = match g d with
      | (.error problem, d') => (.error problem, d')
      | (.ok a, d') => h a d' := rfl

theorem loop_apply (condition body : Generator Unit) (d : Draft) :
    loop condition body d = match condition d with
      | (.error problem, tested) => (.error problem, tested)
      | (.ok _, tested) =>
        match body (tested.emit (.jumpIfFalse 0)) with
        | (.error problem, d') => (.error problem, d')
        | (.ok _, repeated) =>
          let d' := repeated.emit (.jump d.size)
          (.ok (), d'.patch tested.size d'.size) := by
  simp only [loop, bind_apply, size, emit, patch]
  cases condition d with
  | mk r tested =>
    cases r with
    | error => rfl
    | ok =>
      dsimp only
      cases body (tested.emit (.jumpIfFalse 0)) with
      | mk r => cases r <;> rfl

/-- Two jumps, each pointed as soon as what it passes over is there. -/
def branches (consequence : Generator α) (alternative : α → Generator Unit) : Generator α := do
  let skip ← emit (.jumpIfFalse 0)
  let a ← consequence
  let exit ← emit (.jump 0)
  patch skip (← size)
  alternative a
  patch exit (← size)
  pure a

theorem branches_apply (consequence : Generator α) (alternative : α → Generator Unit) (d : Draft) :
    branches consequence alternative d = match consequence (d.emit (.jumpIfFalse 0)) with
      | (.error problem, d') => (.error problem, d')
      | (.ok a, left) =>
        let skipped := left.emit (.jump 0)
        match alternative a (skipped.patch d.size skipped.size) with
        | (.error problem, d') => (.error problem, d')
        | (.ok _, d') => (.ok a, d'.patch left.size d'.size) := by
  simp only [branches, bind_apply, size, emit, patch]
  cases consequence (d.emit (.jumpIfFalse 0)) with
  | mk r left =>
    cases r with
    | error => rfl
    | ok a =>
      dsimp only
      cases alternative a _ with
      | mk r => cases r <;> rfl

def adding (e : Emit α) : Generator α :=
  fun d => d.run e

end Generator

/-- `g` generates in steps what `e` makes in one piece. -/
inductive Generates : {α : Type} → Generator α → Emit α → Prop where
  | result {α : Type} (r : Except Problem α) : Generates (.result r) (.ofExcept r)
  | emit (i : Instruction) : Generates (do let _ ← .emit i) (.emit i)
  | refer (i : Instruction) (target : String) (span : Span) :
      Generates (.refer i target span) (.refer i target span)
  | define (name : String) (span : Span) : Generates (.define name span) (.define name span)
  | bind {α β : Type} {g : Generator α} {e : Emit α} {h : α → Generator β} {k : α → Emit β}
      (first : Generates g e) (second : ∀ a, Generates (h a) (k a)) :
      Generates (g >>= h) (e >>= k)
  | loop {g h : Generator Unit} {c b : Emit Unit} (condition : Generates g c)
      (body : Generates h b) : Generates (.loop g h) (.loop c b)
  | branches {α : Type} {g : Generator α} {e : Emit α} {h : α → Generator Unit} {k : α → Emit Unit}
      (consequence : Generates g e) (alternative : ∀ a, Generates (h a) (k a)) :
      Generates (.branches g h) (.branches e k)

namespace Draft
variable {α β : Type}

def plus (d : Draft) (f : Fragment) : Draft :=
  { d with toFragment := d.toFragment ++ f }

theorem run_eq (d : Draft) (e : Emit α) : d.run e = ((e d.site).2, d.plus (e d.site).1) := rfl

theorem emit_eq (d : Draft) (i : Instruction) : d.emit i = d.plus (.one i) := rfl

theorem plus_plus (d : Draft) (f g : Fragment) : (d.plus f).plus g = d.plus (f ++ g) := by
  simp only [plus, Fragment.append_assoc]

theorem size_plus (d : Draft) (f : Fragment) : (d.plus f).size = d.size + f.code.length :=
  List.length_append

theorem site_plus (d : Draft) (f : Fragment) : (d.plus f).site = d.site.after f := by
  rw [site, size_plus]
  rfl

theorem run_bind (d : Draft) (e : Emit α) (k : α → Emit β) :
    d.run (e >>= k) = match d.run e with
      | (.error problem, d') => (.error problem, d')
      | (.ok a, d') => d'.run (k a) := by
  rw [run_eq, run_eq, Emit.bind_apply]
  cases e d.site with
  | mk f r =>
    cases r with
    | error => rfl
    | ok a =>
      dsimp only
      rw [run_eq, site_plus, plus_plus]

theorem patch_plus (d : Draft) (f g : Fragment) (i : Instruction) (target : Nat) :
    (d.plus (f ++ (.one i ++ g))).patch (d.plus f).size target =
      d.plus (f ++ (.one (i.pointed target) ++ g)) := by
  have pointed (front back : List Instruction) :
      (front ++ i :: back).modify front.length (fun i => i.pointed target) =
        front ++ i.pointed target :: back := by
    induction front with
    | nil => rfl
    | cons j front ih => exact congrArg (j :: ·) ih
  have code : (d.plus (f ++ (.one i ++ g))).code.modify (d.plus f).size
      (fun i => i.pointed target) = (d.plus (f ++ (.one (i.pointed target) ++ g))).code := by
    have around := pointed (d.code ++ f.code) g.code
    rw [List.append_assoc, List.append_assoc] at around
    exact around
  exact congrArg (fun code => ({ d.plus (f ++ (.one i ++ g)) with code := code } : Draft)) code

theorem patch_first (d : Draft) (g : Fragment) (i : Instruction) (target : Nat) :
    (d.plus (.one i ++ g)).patch d.size target = d.plus (.one (i.pointed target) ++ g) := by
  have patched := patch_plus d .empty g i target
  rwa [size_plus, Fragment.empty_append, Fragment.empty_append] at patched

/-- A jump over code that is yet to come may be emitted as a placeholder and pointed behind that
code when it is there. -/
theorem run_skipping {jump : Nat → Instruction} (pointed : ∀ a b, (jump a).pointed b = jump b)
    (d : Draft) (body : Emit Unit) :
    d.run (Emit.skipping jump body) = match (d.emit (jump 0)).run body with
      | (.error problem, d') => (.error problem, d')
      | (.ok (), d') => (.ok (), d'.patch d.size d'.size) := by
  rw [run_eq, run_eq, emit_eq, site_plus, plus_plus, Emit.skipping]
  cases body (d.site.after (.one (jump 0))) with
  | mk f r =>
    cases r with
    | error => rfl
    | ok =>
      have stop : (d.plus (.one (jump 0) ++ f)).size = d.size + 1 + f.code.length := by
        rw [← plus_plus, size_plus, size_plus]
        rfl
      dsimp only
      rw [stop, patch_first, pointed]
      rfl

end Draft

namespace Generator
open Draft
variable {α β : Type}

theorem adding_bind (e : Emit α) (k : α → Emit β) :
    adding (e >>= k) = adding e >>= fun a => adding (k a) :=
  funext fun d => d.run_bind e k

theorem adding_loop (condition body : Emit Unit) :
    adding (.loop condition body) = loop (adding condition) (adding body) := by
  funext d
  rw [loop_apply]
  dsimp only [adding]
  have top : Emit.loop condition body = Emit.here >>= fun top => condition >>= fun _ =>
      Emit.skipping .jumpIfFalse (body >>= fun _ => Emit.emit (.jump top)) := rfl
  have here : d.run Emit.here = (.ok d.size, d) := by
    simp [Draft.run, Emit.here, site]
  rw [top, run_bind, here]
  dsimp only
  rw [run_bind]
  cases d.run condition with
  | mk r tested =>
    cases r with
    | error => rfl
    | ok =>
      dsimp only
      rw [run_skipping fun _ _ => rfl, run_bind]
      cases (tested.emit (.jumpIfFalse 0)).run body with
      | mk r repeated => cases r <;> rfl

theorem adding_branches (consequence : Emit α) (alternative : α → Emit Unit) :
    adding (.branches consequence alternative) =
      branches (adding consequence) fun a => adding (alternative a) := by
  funext d
  rw [branches_apply]
  dsimp only [adding]
  rw [run_eq, run_eq, emit_eq, site_plus, Emit.branches]
  dsimp only
  cases consequence (d.site.after (.one (.jumpIfFalse 0))) with
  | mk f r =>
    cases r with
    | error =>
      dsimp only
      rw [plus_plus]
    | ok a =>
      dsimp only
      -- From here on the first jump leads to the alternative.
      let outer := (d.site.after (.one (.jumpIfFalse 0))).after (f ++ .one (.jump 0))
      have stop : ((d.plus (.one (.jumpIfFalse 0))).plus f |>.plus (.one (.jump 0))).size =
          outer.start := by
        rw [plus_plus, size_plus, size_plus]
        rfl
      have first : ((d.plus (.one (.jumpIfFalse 0))).plus f |>.plus (.one (.jump 0))).patch d.size
          outer.start = d.plus (.one (.jumpIfFalse outer.start) ++ (f ++ .one (.jump 0))) := by
        rw [plus_plus, plus_plus]
        exact patch_first d _ _ _
      have place : (d.plus (.one (.jumpIfFalse outer.start) ++ (f ++ .one (.jump 0)))).site =
          outer := by
        rw [site_plus, Site.after_append]
        rfl
      rw [emit_eq, stop, first, run_eq, place, plus_plus]
      cases alternative a outer with
      | mk g r =>
        cases r with
        | error =>
          dsimp only
          simp only [Fragment.append_assoc]
          rfl
        | ok =>
          dsimp only
          let test := Fragment.one (.jumpIfFalse outer.start)
          have whole : d.plus (test ++ (f ++ .one (.jump 0)) ++ g) =
              d.plus (test ++ f ++ (.one (.jump 0) ++ g)) := by
            simp only [Fragment.append_assoc]
          have left : ((d.plus (.one (.jumpIfFalse 0))).plus f).size =
              (d.plus (test ++ f)).size := by
            rw [← plus_plus, size_plus, size_plus, size_plus, size_plus]
            rfl
          have stop : (d.plus (test ++ f ++ (.one (.jump 0) ++ g))).size =
              (outer.after g).start := by
            rw [← whole, ← plus_plus, size_plus]
            exact congrArg (·.start + g.code.length) place
          rw [whole, left, patch_plus, stop]
          simp only [Fragment.append_assoc]
          rfl

end Generator

namespace Generates
variable {α : Type} {g : Generator α} {e : Emit α} {p : Plan}

/-- Generated in steps or added in one piece, a draft is left with the same code and the same
mistake. -/
theorem eq_adding (generates : Generates g e) : g = .adding e := by
  induction generates with
  | result r =>
    funext d
    simp [Generator.adding, Generator.result, Draft.run, Emit.ofExcept]
  | emit | refer | define => rfl
  | bind _ _ first second => rw [first, funext second, Generator.adding_bind]
  | loop _ _ condition body => rw [condition, body, Generator.adding_loop]
  | branches _ _ consequence alternative =>
    rw [consequence, funext alternative, Generator.adding_branches]

theorem of_builds (builds : e.Builds p) : ∃ g, Generates g e := by
  have silent {α : Type} {e : Emit α} (quiet : e.Silent) : ∃ g, Generates g e := by
    obtain ⟨r, same⟩ := quiet
    obtain rfl : e = Emit.ofExcept r := funext same
    exact ⟨_, .result r⟩
  induction builds with
  | silent quiet => exact silent quiet
  | fail cause span => exact silent (Emit.silent_fail cause span)
  | emit _ i => exact ⟨_, .emit i⟩
  | refer _ i target span => exact ⟨_, .refer i target span⟩
  | define name span => exact ⟨_, .define name span⟩
  | both _ _ first second =>
    obtain ⟨g, first⟩ := first
    exact ⟨_, first.bind fun a => (second a).choose_spec⟩
  | after _ quiet first =>
    obtain ⟨g, first⟩ := first
    exact ⟨_, first.bind fun a => (silent (quiet a)).choose_spec⟩
  | loop _ _ condition body =>
    obtain ⟨g, condition⟩ := condition
    obtain ⟨h, body⟩ := body
    exact ⟨_, condition.loop body⟩
  | branches _ _ consequence alternative =>
    obtain ⟨g, consequence⟩ := consequence
    exact ⟨_, consequence.branches fun a => (alternative a).choose_spec⟩

end Generates
end Dialogue
