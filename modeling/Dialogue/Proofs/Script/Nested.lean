import Dialogue.Proofs.Script.Queue
import Mathlib.Data.List.Chain

/-!
Documents made of complete elements. Each element is one event, or is opened by one and closed by
another with complete elements in between. Who gathers an element then meets its own end and no
other, so that one element is gathered after another and nothing of it depends on what stands
around it.
-/
namespace Dialogue

namespace Markdown

def Tag.isInline : Tag → Bool
  | .emphasis | .strong | .link _ | .image => true
  | _ => false

def Event.isInline : Event → Bool
  | .opens t | .closes t => t.isInline
  | .text _ | .code _ | .inlineHtml _ | .softBreak | .hardBreak => true
  | .html _ | .rule => false

/-- What an element may hold: a list nothing but items, code nothing but text, a paragraph and a
heading nothing but what lines are made of. -/
def Tag.Holds (parts : List (List Located)) : Tag → Prop
  | .list _ => ∀ p ∈ parts, ∀ e ∈ p.head?, e.event = .opens .item
  | .indentedCode | .fencedCode => ∀ e ∈ parts.flatten, Script.isText e = true
  | .paragraph | .heading _ => ∀ e ∈ parts.flatten, e.event.isInline = true
  | _ => True

/-- The events of one element, from its first to its last. -/
inductive Complete : List Located → Prop where
  | single {e : Located} (single : e.event.isSingle = true) : Complete [e]
  | whole {e c : Located} {t : Tag} {parts : List (List Located)} (opens : e.event = .opens t)
      (closes : c.event = .closes t) (holds : t.Holds parts) (complete : ∀ p ∈ parts, Complete p) :
      Complete (e :: (parts.flatten ++ [c]))

end Markdown

namespace Script
open Markdown (Located Tag Event Complete)

variable {source : Source} {before : List Piece} {e c : Located} {p es tail : List Located}
  {depth : Nat}
variable {parts : List (List Located)} {t : Tag}

theorem inside_parts (step : ∀ p ∈ parts, ∀ depth tail,
      inside depth (p ++ tail) = (p ++ (inside depth tail).1, (inside depth tail).2)) :
    inside depth (parts.flatten ++ tail) =
      (parts.flatten ++ (inside depth tail).1, (inside depth tail).2) := by
  induction parts with
  | nil => rfl
  | cons p parts ih =>
    rw [List.flatten_cons, List.append_assoc, step p List.mem_cons_self,
      ih fun q mem => step q (List.mem_cons_of_mem p mem), List.append_assoc]

theorem inside_complete (complete : Complete p) (depth : Nat) (tail : List Located) :
    inside depth (p ++ tail) = (p ++ (inside depth tail).1, (inside depth tail).2) := by
  induction complete generalizing depth tail with
  | single single => exact inside_single single
  | whole opens closes _ _ ih =>
    rw [List.cons_append, inside_opens opens, List.append_assoc, inside_parts ih,
      List.singleton_append, inside_closes closes]
    simp

theorem inside_whole (complete : ∀ p ∈ parts, Complete p) (closes : c.event = .closes t) :
    inside 0 (parts.flatten ++ c :: tail) = (parts.flatten, tail) := by
  rw [inside_parts fun p mem => inside_complete (complete p mem), inside_end closes,
    List.append_nil]

/-- What opens an element that is no mark takes the line past its end. -/
theorem restOf_whole (opens : e.event = .opens t) (closes : c.event = .closes t)
    (complete : ∀ p ∈ parts, Complete p) (other : ¬ (t = .strong ∨ t = .emphasis)) :
    restOf e (parts.flatten ++ c :: tail) = tail := by
  cases t with
  | strong | emphasis => exact absurd (by simp) other
  | _ => rw [restOf, opens, inside_whole complete closes]

theorem inlineOf_eq (link : ∀ destination, e.event ≠ .opens (.link destination))
    (es fs : List Located) :
    inlineOf source e es = inlineOf source e fs := by
  obtain ⟨event, start, stop⟩ := e
  cases event with
  | opens t =>
    cases t with
    | link destination => exact absurd rfl (link destination)
    | _ => rfl
  | closes t => cases t <;> rfl
  | _ => rfl

/-- A line that has come to `before` has come to `after` behind `es`, whatever comes next, both if
it is known where the elements in it end and if it is gathered from the queue. -/
structure Continues (source : Source) (before : List Piece) (es : List Located)
    (after : List Piece) : Prop where
  line : ∀ tail, line source before (es ++ tail) = Script.line source after tail
  queue : ∀ tail, (Queue.line source before (es ++ tail)).both = (Queue.line source after tail).both

namespace Continues
variable {after later : List Piece} {fs : List Located}

theorem nil : Continues source before [] before :=
  ⟨fun _ => rfl, fun _ => rfl⟩

theorem append (first : Continues source before es after)
    (second : Continues source after fs later) :
    Continues source before (es ++ fs) later where
  line tail := by rw [List.append_assoc, first.line, second.line]
  queue tail := by rw [List.append_assoc, first.queue, second.queue]

theorem gathered (continues : Continues source before es after) :
    Script.line source before es = after.reverse := by
  have alone := continues.line []
  rwa [List.append_nil, line_nil] at alone

theorem piece (further : Queue.endsLine e.event = false) (paragraph : e.event ≠ .opens .paragraph)
    (link : ∀ destination, e.event ≠ .opens (.link destination))
    (rest : ∀ tail, restOf e (es ++ tail) = tail) :
    Continues source before (e :: es) (push ⟨inlineOf source e [], place source e⟩ before) where
  line tail := by rw [List.cons_append, line_cons paragraph, rest, inlineOf_eq link _ []]
  queue tail := by
    rw [List.cons_append, Queue.line_cons further paragraph link, rest, inlineOf_eq link _ []]

theorem gathered_queue (continues : Continues source [] es after)
    (ends : Queue.endsLine c.event = true) :
    (Queue.line source [] (es ++ c :: tail)).both = (Script.line source [] es, tail) := by
  rw [continues.queue, Queue.line_end ends, continues.gathered]

end Continues

theorem continues_parts (step : ∀ p ∈ parts, ∀ before, ∃ after, Continues source before p after)
    (before : List Piece) : ∃ after, Continues source before parts.flatten after := by
  induction parts generalizing before with
  | nil => exact ⟨before, .nil⟩
  | cons p parts ih =>
    obtain ⟨after, first⟩ := step p List.mem_cons_self before
    obtain ⟨later, rest⟩ := ih (fun q mem => step q (List.mem_cons_of_mem p mem)) after
    exact ⟨later, first.append rest⟩

theorem continues_single (single : e.event.isSingle = true) :
    Continues source before [e] (push ⟨inlineOf source e [], place source e⟩ before) := by
  obtain ⟨event, start, stop⟩ := e
  cases event with
  | opens t | closes t => cases single
  | _ => exact .piece rfl (by simp) (by simp) fun tail => rfl

/-- The beginning and the end of bold or italic text are pieces of the line like any other. -/
theorem continues_mark (mark : t = .strong ∨ t = .emphasis)
    (event : e.event = .opens t ∨ e.event = .closes t) :
    Continues source before [e] (push ⟨inlineOf source e [], place source e⟩ before) := by
  obtain ⟨_, start, stop⟩ := e
  rcases mark with rfl | rfl <;> rcases event with rfl | rfl
  all_goals exact .piece rfl (by simp) (by simp) fun tail => rfl

/-- A line passes through a complete element. -/
theorem continues_complete (complete : Complete p) (before : List Piece) :
    ∃ after, Continues source before p after := by
  induction complete generalizing before with
  | single single => exact ⟨_, continues_single single⟩
  | @whole e c t parts opens closes _ complete ih =>
    have shape : ∀ tail, e :: (parts.flatten ++ [c]) ++ tail =
        e :: (parts.flatten ++ c :: tail) := by simp
    have whole : ∀ tail, inside 0 (parts.flatten ++ c :: tail) = (parts.flatten, tail) :=
      fun _ => inside_whole complete closes
    by_cases mark : t = .strong ∨ t = .emphasis
    · obtain ⟨later, rest⟩ :=
        continues_parts ih (push ⟨inlineOf source e [], place source e⟩ before)
      exact ⟨_, (continues_mark mark (Or.inl opens)).append
        (rest.append (continues_mark mark (Or.inr closes)))⟩
    obtain ⟨after, inner⟩ := continues_parts ih []
    have queue : ∀ tail, Queue.endsLine c.event = true →
        (Queue.line source [] (parts.flatten ++ c :: tail)).got = line source [] parts.flatten ∧
        (Queue.line source [] (parts.flatten ++ c :: tail)).left = tail :=
      fun tail ends => Prod.mk.inj (inner.gathered_queue ends)
    cases t with
    | strong | emphasis => exact absurd (by simp) mark
    | paragraph =>
      refine ⟨(line source [] parts.flatten).reverse ++ before, fun tail => ?_, fun tail => ?_⟩
      · rw [shape, line_paragraph opens, whole]
      · obtain ⟨got, left⟩ := queue tail (by rw [closes]; rfl)
        rw [shape, Queue.line_paragraph opens, got, left]
    | link destination =>
      refine
        ⟨push ⟨.link destination (plain (line source [] parts.flatten)), place source e⟩ before,
          fun tail => ?_, fun tail => ?_⟩
      · rw [shape, line_cons (by simp [opens]), inlineOf, restOf, opens, whole]
      · obtain ⟨got, left⟩ := queue tail (by rw [closes]; rfl)
        rw [shape, Queue.line_link opens, got, left]
    | _ =>
      refine ⟨_, .piece (by simp [opens, Queue.endsLine]) (by simp [opens]) (by simp [opens])
        fun tail => ?_⟩
      rw [List.append_assoc, List.singleton_append, restOf_whole opens closes complete mark]

theorem queue_line (complete : ∀ p ∈ parts, Complete p) (ends : Queue.endsLine c.event = true) :
    (Queue.line source [] (parts.flatten ++ c :: tail)).both =
      (line source [] parts.flatten, tail) := by
  obtain ⟨_, continues⟩ : ∃ after, Continues source [] parts.flatten after :=
    continues_parts (fun p mem => continues_complete (complete p mem)) []
  exact continues.gathered_queue ends

theorem items_complete (complete : Complete p) (item : ∀ e ∈ p.head?, e.event = .opens .item) :
    ∃ i, ∀ tail, items source (p ++ tail) = i :: items source tail ∧
      (Queue.items source (p ++ tail)).both =
        (i :: (Queue.items source tail).got, (Queue.items source tail).left) := by
  cases complete with
  | single single =>
    rw [item _ rfl] at single
    cases single
  | @whole e c t parts opens closes _ complete =>
    have begins : e.event = .opens .item := item e rfl
    obtain rfl : Tag.item = t := Event.opens.inj (begins.symm.trans opens)
    refine ⟨⟨line source [] parts.flatten, place source e⟩, fun tail => ?_⟩
    have line : (Queue.line source [] (parts.flatten ++ c :: tail)).both = _ :=
      queue_line complete (by rw [closes]; rfl)
    obtain ⟨got, left⟩ := Prod.mk.inj line
    rw [List.cons_append, List.append_assoc, List.singleton_append, Queue.items_item begins, got,
      left, items]
    simp only [begins, inside_whole complete closes, and_self]

theorem queue_items (complete : ∀ p ∈ parts, Complete p) (holds : Tag.Holds parts (.list none))
    (closes : c.event = .closes t) :
    (Queue.items source (parts.flatten ++ c :: tail)).both =
      (items source parts.flatten, tail) := by
  induction parts with
  | nil =>
    rw [List.flatten_nil, items]
    exact Queue.items_end closes
  | cons p parts ih =>
    obtain ⟨i, step⟩ : ∃ i, ∀ tail, items source (p ++ tail) = i :: items source tail ∧ _ :=
      items_complete (complete p List.mem_cons_self) (holds p List.mem_cons_self)
    have rest := ih (fun q mem => complete q (List.mem_cons_of_mem p mem))
      (fun q mem => holds q (List.mem_cons_of_mem p mem))
    obtain ⟨got, left⟩ := Prod.mk.inj rest
    rw [List.flatten_cons, List.append_assoc, (step _).1, (step _).2, got, left]

theorem queue_fence (texts : ∀ x ∈ es, isText x = true) (closes : c.event = .closes t) :
    (Queue.fence (es ++ c :: tail)).both = (es, tail) := by
  induction es with
  | nil => exact Queue.fence_end closes
  | cons e es ih =>
    obtain ⟨got, left⟩ := Prod.mk.inj (ih fun x mem => texts x (List.mem_cons_of_mem e mem))
    rw [List.cons_append, Queue.fence_text (texts e List.mem_cons_self), got, left]

theorem queue_block (opens : e.event = .opens t) (closes : c.event = .closes t)
    (holds : t.Holds parts) (complete : ∀ p ∈ parts, Complete p) :
    (Queue.block source e (parts.flatten ++ c :: tail)).both =
      (block source e parts.flatten, tail) := by
  have line : Queue.endsLine c.event = true →
      (Queue.line source [] (parts.flatten ++ c :: tail)).both = _ :=
    queue_line complete
  obtain ⟨event, start, stop⟩ := e
  obtain rfl : event = .opens t := opens
  cases t with
  | heading level =>
    obtain ⟨got, left⟩ := Prod.mk.inj (line (by rw [closes]; rfl))
    exact Prod.ext (congrArg (fun ps => Block.heading level (Text.trim (plain ps))) got) left
  | paragraph =>
    obtain ⟨got, left⟩ := Prod.mk.inj (line (by rw [closes]; rfl))
    exact Prod.ext (congrArg Block.paragraph got) left
  | list first? =>
    have items : (Queue.items source (parts.flatten ++ c :: tail)).both = _ :=
      queue_items complete holds closes
    obtain ⟨got, left⟩ := Prod.mk.inj items
    exact Prod.ext (congrArg (Block.list first?.isSome) got) left
  | fencedCode =>
    have fence : (Queue.fence (parts.flatten ++ c :: tail)).both = _ := queue_fence holds closes
    obtain ⟨got, left⟩ := Prod.mk.inj fence
    exact Prod.ext (congrArg (fun texts => Block.fence (fenced source start texts)) got) left
  | _ =>
    have skipped : Queue.skip 1 (parts.flatten ++ c :: tail) = tail := by
      rw [Queue.skip_eq 0, inside_whole complete closes]
    exact Prod.ext rfl skipped

end Script
end Dialogue
