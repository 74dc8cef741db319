import Dialogue.Proofs.Conduct.Chart

/-!
What a host is told from the start of a dialogue on. Each event has to go with those before it: a
node is entered when none is open and left when it is the open one, and a menu is one of the open
node's, its texts worked out from the variables of that moment.
-/
namespace Dialogue.Conduct
open Machine (Event Request View)

def opens (node? : Option String) : Request → Option String
  | .enter node => some node
  | .leave _ => none
  | _ => node?

/-- The node that was entered and has not been left. -/
def openNode (log : List Event) : Option String :=
  log.foldl (fun node? e => opens node? e.request) none

@[simp] theorem openNode_next (log : List Event) (e : Event) :
    openNode (log ++ [e]) = opens (openNode log) e.request := by
  rw [openNode, List.foldl_append]
  rfl

/-- A request that may come after `log`, when the machine looks like `view`. -/
def Proper (g : Setting) (log : List Event) (view : View) : Request → Prop
  | .enter _ | .finish => openNode log = none
  | .leave node => openNode log = some node ∧ view.node? = some node
  | .menu texts => ∃ node offers, openNode log = some node ∧ view.node? = some node ∧
      g.menus node offers ∧
      Meaning.values view.store (offers.map Offer.text) = .ok (texts.map Value.string)
  | _ => True

/-- When `snug`, nothing is left on the stack. -/
structure Fits (g : Setting) (snug : Prop) (log : List Event) (e : Event) : Prop where
  unfinished : ∀ earlier ∈ log, earlier.request ≠ .finish
  depth : snug → e.view.depth = 0
  proper : Proper g log e.view e.request

inductive Kept (g : Setting) (snug : Prop) : List Event → Prop where
  | nil : Kept g snug []
  | next {log : List Event} {e : Event} (kept : Kept g snug log) (fits : Fits g snug log e) :
      Kept g snug (log ++ [e])

variable {g : Setting} {snug : Prop} {log before after : List Event} {e : Event}

theorem Kept.fits (kept : Kept g snug log) (split : log = before ++ e :: after) :
    Fits g snug before e := by
  induction kept generalizing after with
  | nil => cases before <;> cases split
  | @next log last kept fits ih =>
    rcases List.eq_nil_or_concat after with rfl | ⟨middle, final, rfl⟩
    · obtain ⟨rfl, same⟩ := List.append_inj' split rfl
      cases same
      exact fits
    · rw [List.concat_eq_append, ← List.cons_append, ← List.append_assoc] at split
      exact ih (List.append_inj' split rfl).1

theorem Kept.finished (kept : Kept g snug log) (split : log = before ++ e :: after)
    (finish : e.request = .finish) : after = [] := by
  cases after with
  | nil => rfl
  | cons next after =>
    have later : log = before ++ [e] ++ next :: after := by
      rw [split, List.append_assoc]
      rfl
    exact ((kept.fits later).unfinished e (by simp) finish).elim

end Dialogue.Conduct
