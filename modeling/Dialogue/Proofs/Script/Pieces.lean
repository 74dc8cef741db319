import Dialogue.Script.Outline

/-!
The pieces of a line, one event after another. Every event but the beginning of a paragraph comes
to one piece, which a text before it may take up, and the line goes on behind the event or behind
what it opens.
-/
namespace Dialogue

def Markdown.Event.isSingle : Event → Bool
  | .opens _ | .closes _ => false
  | _ => true

namespace Script
open Markdown (Located Tag Event)

variable {source : Source} {before : List Piece} {e x : Located} {es : List Located} {p q : Piece}
  {depth : Nat}
variable {t : Tag}

/-- What an event in a line comes to if it begins no paragraph. -/
def inlineOf (source : Source) (e : Located) (es : List Located) : Inline :=
  match e.event with
  | .text s => .text s
  | .softBreak | .hardBreak => .text [' ']
  | .code s => .code (located s (place source e))
  | .opens .strong => .strong true
  | .closes .strong => .strong false
  | .opens .emphasis => .emphasis true
  | .closes .emphasis => .emphasis false
  | .opens (.link destination) => .link destination (plain (line source [] (inside 0 es).1))
  | .opens t => .unsupported t.describe
  | other => .unsupported other.describe

def restOf (e : Located) (es : List Located) : List Located :=
  match e.event with
  | .opens .strong | .opens .emphasis => es
  | .opens _ => (inside 0 es).2
  | _ => es

@[simp] theorem line_nil : line source before [] = before.reverse := by
  rw [line]

theorem line_paragraph (begins : e.event = .opens .paragraph) : line source before (e :: es) =
    line source ((line source [] (inside 0 es).1).reverse ++ before) (inside 0 es).2 := by
  rw [line, begins]

theorem line_cons (other : e.event ≠ .opens .paragraph) : line source before (e :: es) =
    line source (push ⟨inlineOf source e es, place source e⟩ before) (restOf e es) := by
  obtain ⟨event, start, stop⟩ := e
  rw [line]
  cases event with
  | opens t =>
    cases t with
    | paragraph => exact absurd rfl other
    | _ => rfl
  | closes t => cases t <;> rfl
  | _ => rfl

theorem length_restOf (e : Located) (es : List Located) : (restOf e es).length ≤ es.length := by
  have := length_inside 0 es
  unfold restOf
  split <;> omega

theorem inside_opens (opens : e.event = .opens t) :
    inside depth (e :: es) = (e :: (inside (depth + 1) es).1, (inside (depth + 1) es).2) := by
  simp only [inside, opens]

theorem inside_end (closes : e.event = .closes t) : inside 0 (e :: es) = ([], es) := by
  simp only [inside, closes, if_true]

theorem inside_closes (closes : e.event = .closes t) :
    inside (depth + 1) (e :: es) = (e :: (inside depth es).1, (inside depth es).2) := by
  simp only [inside, closes, Nat.add_one_ne_zero, if_false, Nat.add_sub_cancel]

theorem inside_single (single : e.event.isSingle = true) :
    inside depth (e :: es) = (e :: (inside depth es).1, (inside depth es).2) := by
  cases here : e.event with
  | opens t | closes t =>
    rw [here] at single
    cases single
  | _ => simp only [inside, here]

theorem inside_cons (depth : Nat) (e : Located) (es : List Located) :
    inside depth (e :: es) = ([], es) ∨
    ∃ n, inside depth (e :: es) = (e :: (inside n es).1, (inside n es).2) := by
  rw [inside]
  split
  · exact Or.inr ⟨_, rfl⟩
  · split
    · exact Or.inl rfl
    · exact Or.inr ⟨_, rfl⟩
  · exact Or.inr ⟨_, rfl⟩

/-- Between the events in an element and those after it is at most the end of the element. -/
theorem exists_ending (depth : Nat) (es : List Located) :
    ∃ ending, es = (inside depth es).1 ++ ending ++ (inside depth es).2 := by
  induction es generalizing depth with
  | nil => exact ⟨[], rfl⟩
  | cons e es ih =>
    rcases inside_cons depth e es with ends | ⟨n, goes⟩
    · exact ⟨[e], by rw [ends]; rfl⟩
    · obtain ⟨ending, whole⟩ := ih n
      exact ⟨ending, by rw [goes]; exact congrArg (e :: ·) whole⟩

theorem mem_of_mem_inside (mem : x ∈ (inside depth es).1 ∨ x ∈ (inside depth es).2) : x ∈ es := by
  obtain ⟨ending, whole⟩ := exists_ending depth es
  rw [whole]
  rcases mem with mem | mem <;> simp [mem]

theorem mem_of_mem_restOf (mem : x ∈ restOf e es) : x ∈ es := by
  unfold restOf at mem
  split at mem
  · exact mem
  · exact mem
  · exact mem_of_mem_inside (Or.inr mem)
  · exact mem

end Script
end Dialogue
