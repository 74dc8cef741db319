import Dialogue.Proofs.Script.Pieces

/-!
Gathering from one queue. Nothing has to be known beforehand about where an element ends: whoever
gathers one takes events from the front of the same queue until it meets the end that it takes for
its own, and leaves the rest to the next. A line ends with the first end that is not one of bold
or italic text, a fence or a list with any, and what is of no use is passed over by counting how
deep it goes.
-/
namespace Dialogue.Script.Queue
open Markdown (Located Tag Event)

/-- What has been gathered, and the events that are left in the queue. -/
structure Gathered (α : Type) (es : List Located) where
  got : α
  left : List Located
  shorter : left.length ≤ es.length

namespace Gathered
variable {α β : Type} {es fs : List Located}

/-- The same from a queue with more events in front, and with `f` of what has been gathered. -/
def after (f : α → β) (r : Gathered α fs) (le : fs.length ≤ es.length) : Gathered β es :=
  ⟨f r.got, r.left, Nat.le_trans r.shorter le⟩

def both (r : Gathered α es) : α × List Located :=
  (r.got, r.left)

end Gathered

/-- Drops the events of `depth` open elements, their ends included. -/
def skip (depth : Nat) : List Located → List Located
  | [] => []
  | e :: es =>
    let still := match e.event with
      | .opens _ => depth + 1
      | .closes _ => depth - 1
      | _ => depth
    if still = 0 then es else skip still es

theorem skip_eq (depth : Nat) (es : List Located) : skip (depth + 1) es = (inside depth es).2 := by
  induction es generalizing depth with
  | nil => rfl
  | cons e es ih =>
    cases event : e.event with
    | opens t =>
      rw [inside_opens event, skip, event]
      exact ih (depth + 1)
    | closes t =>
      rw [skip, event]
      cases depth with
      | zero =>
        rw [inside_end event]
        rfl
      | succ depth =>
        rw [inside_closes event]
        exact ih depth
    | _ =>
      have single : e.event.isSingle = true := by rw [event]; rfl
      rw [inside_single single, skip, event]
      exact ih depth

def fence : (es : List Located) → Gathered (List Located) es
  | [] => ⟨[], [], Nat.le_refl _⟩
  | e :: es =>
    match e.event with
    | .text _ => (fence es).after (e :: ·) (Nat.le_succ _)
    | .closes _ => ⟨[], es, Nat.le_succ _⟩
    | _ => (fence es).after id (Nat.le_succ _)

theorem fence_text {e : Located} {es : List Located} (text : isText e = true) :
    (fence (e :: es)).both = (e :: (fence es).got, (fence es).left) := by
  obtain ⟨event, start, stop⟩ := e
  cases event with
  | text s => rfl
  | _ => cases text

theorem fence_end {e : Located} {es : List Located} {t : Tag} (closes : e.event = .closes t) :
    (fence (e :: es)).both = ([], es) := by
  obtain ⟨event, start, stop⟩ := e
  obtain rfl : event = _ := closes
  rfl

def endsLine : Event → Bool
  | .closes .strong | .closes .emphasis => false
  | .closes _ => true
  | _ => false

/-- What is left after `e`, when that begins no paragraph and no link. -/
def passed (e : Located) (es : List Located) : List Located :=
  match e.event with
  | .opens .strong | .opens .emphasis => es
  | .opens _ => skip 1 es
  | _ => es

theorem passed_eq (e : Located) (es : List Located) : passed e es = restOf e es := by
  obtain ⟨event, start, stop⟩ := e
  cases event with
  | opens t => cases t <;> first | rfl | exact skip_eq 0 es
  | _ => rfl

theorem length_passed (e : Located) (es : List Located) : (passed e es).length ≤ es.length :=
  passed_eq e es ▸ length_restOf e es

/-- The pieces up to the end of the line, after those of `before`, which is reversed. -/
def line (source : Source) (before : List Piece) : (es : List Located) → Gathered (List Piece) es
  | [] => ⟨before.reverse, [], Nat.le_refl _⟩
  | e :: es =>
    match e.event with
    | .opens .paragraph =>
      match line source [] es with
      | ⟨inner, rest, shorter⟩ =>
        (line source (inner.reverse ++ before) rest).after id (Nat.le_succ_of_le shorter)
    | .opens (.link destination) =>
      match line source [] es with
      | ⟨inner, rest, shorter⟩ =>
        (line source (push ⟨.link destination (plain inner), place source e⟩ before) rest).after id
          (Nat.le_succ_of_le shorter)
    | event =>
      if endsLine event then ⟨before.reverse, es, Nat.le_succ _⟩
      else
        have shorter := length_passed e es
        (line source (push ⟨inlineOf source e es, place source e⟩ before) (passed e es)).after id
          (Nat.le_succ_of_le shorter)
termination_by es => es.length
decreasing_by
  all_goals
    simp only [List.length_cons]
    omega

variable {source : Source} {before : List Piece} {e : Located} {es : List Located}
  {destination : List Char}

theorem line_end (ends : endsLine e.event = true) :
    (line source before (e :: es)).both = (before.reverse, es) := by
  obtain ⟨event, start, stop⟩ := e
  rw [line]
  cases event with
  | closes t => cases t <;> first | rfl | cases ends
  | _ => cases ends

theorem line_paragraph (begins : e.event = .opens .paragraph) :
    (line source before (e :: es)).both =
      (line source ((line source [] es).got.reverse ++ before) (line source [] es).left).both := by
  obtain ⟨event, start, stop⟩ := e
  obtain rfl : event = _ := begins
  rw [line]
  rfl

theorem line_link (begins : e.event = .opens (.link destination)) :
    (line source before (e :: es)).both =
      (line source
        (push ⟨.link destination (plain (line source [] es).got), place source e⟩ before)
        (line source [] es).left).both := by
  obtain ⟨event, start, stop⟩ := e
  obtain rfl : event = _ := begins
  rw [line]
  rfl

theorem line_cons (further : endsLine e.event = false) (paragraph : e.event ≠ .opens .paragraph)
    (link : ∀ destination, e.event ≠ .opens (.link destination)) :
    (line source before (e :: es)).both =
      (line source (push ⟨inlineOf source e es, place source e⟩ before) (restOf e es)).both := by
  obtain ⟨event, start, stop⟩ := e
  rw [← passed_eq, line]
  cases event with
  | opens t =>
    cases t with
    | paragraph => exact absurd rfl paragraph
    | link destination => exact absurd rfl (link destination)
    | _ => rfl
  | closes t => cases t <;> first | rfl | cases further
  | _ => rfl

/-- The items up to the next end that is not one of an item. -/
def items (source : Source) : (es : List Located) → Gathered (List Item) es
  | [] => ⟨[], [], Nat.le_refl _⟩
  | e :: es =>
    match e.event with
    | .opens .item =>
      match line source [] es with
      | ⟨inner, rest, shorter⟩ =>
        (items source rest).after (⟨inner, place source e⟩ :: ·) (Nat.le_succ_of_le shorter)
    | .closes _ => ⟨[], es, Nat.le_succ _⟩
    | _ => (items source es).after id (Nat.le_succ _)
termination_by es => es.length
decreasing_by
  all_goals
    simp only [List.length_cons]
    omega

theorem items_item (begins : e.event = .opens .item) : (items source (e :: es)).both =
    (⟨(line source [] es).got, place source e⟩ :: (items source (line source [] es).left).got,
      (items source (line source [] es).left).left) := by
  obtain ⟨event, start, stop⟩ := e
  obtain rfl : event = _ := begins
  rw [items]
  rfl

theorem items_end {t : Tag} (closes : e.event = .closes t) :
    (items source (e :: es)).both = ([], es) := by
  obtain ⟨event, start, stop⟩ := e
  obtain rfl : event = _ := closes
  rw [items]
  rfl

def block (source : Source) (e : Located) (es : List Located) : Gathered Block es :=
  match e.event with
  | .opens (.heading level) =>
    (line source [] es).after (fun ps => .heading level (Text.trim (plain ps))) (Nat.le_refl _)
  | .opens .paragraph => (line source [] es).after .paragraph (Nat.le_refl _)
  | .opens (.list first?) => (items source es).after (.list first?.isSome) (Nat.le_refl _)
  | .opens .fencedCode =>
    (fence es).after (fun texts => .fence (fenced source e.start texts)) (Nat.le_refl _)
  | .opens t => ⟨.unsupported t.describe, skip 1 es, by
      rw [skip_eq]
      have := length_inside 0 es
      omega⟩
  | _ => ⟨Script.block source e [], es, Nat.le_refl _⟩

/-- The elements of a document, one after the other until the queue is empty. -/
def outline (source : Source) : List Located → List Element
  | [] => []
  | e :: es =>
    match block source e es with
    | ⟨b, rest, _⟩ => ⟨b, place source e⟩ :: outline source rest
termination_by es => es.length
decreasing_by
  simp only [List.length_cons]
  omega

theorem outline_cons : outline source (e :: es) =
    ⟨(block source e es).got, place source e⟩ :: outline source (block source e es).left := by
  rw [outline]

end Dialogue.Script.Queue
