import Dialogue.Proofs.Script.Nested

/-!
Elements apart from each other. Of complete elements there is one element of the dialogue each,
which depends on nothing else in the document. In a paragraph no two texts stand next to each
other, and bold and italic text begins and ends like brackets do.
-/
namespace Dialogue.Script
open Markdown (Located Tag Event Complete)

variable {source : Source} {before ps : List Piece} {q : Piece} {e c : Located}
  {p es tail : List Located}
variable {parts : List (List Located)} {t : Tag} {u v : List Event} {x : Element}

def Piece.isText (p : Piece) : Bool :=
  match p.inline with
  | .text _ => true
  | _ => false

def Separate (ps : List Piece) : Prop :=
  ps.IsChain fun p q => ¬ (p.isText = true ∧ q.isText = true)

def Piece.mark? (p : Piece) : Option Event :=
  match p.inline with
  | .strong true => some (.opens .strong)
  | .strong false => some (.closes .strong)
  | .emphasis true => some (.opens .emphasis)
  | .emphasis false => some (.closes .emphasis)
  | _ => none

def marks (ps : List Piece) : List Event :=
  ps.filterMap Piece.mark?

/-- Everything that begins ends, after what begins in it. -/
inductive Balanced : List Event → Prop where
  | none : Balanced []
  | around {t : Tag} {u v : List Event} (inner : Balanced u) (later : Balanced v) :
      Balanced (.opens t :: (u ++ .closes t :: v))

theorem separate_reverse : Separate ps.reverse ↔ Separate ps := by
  unfold Separate
  rw [List.isChain_reverse]
  simp only [and_comm]

theorem separate_push (separate : Separate before) (q : Piece) : Separate (push q before) := by
  obtain ⟨inline, span⟩ := q
  cases before with
  | nil => exact List.isChain_singleton _
  | cons p before =>
    obtain ⟨last, place⟩ := p
    have head := List.isChain_cons.mp separate
    cases last with
    | text s =>
      cases inline with
      | text t => exact List.isChain_cons.mpr ⟨head.1, head.2⟩
      | _ => exact List.isChain_cons_cons.mpr ⟨by simp [Piece.isText], separate⟩
    | _ => exact List.isChain_cons_cons.mpr ⟨by simp [Piece.isText], separate⟩

theorem separate_line (inline : ∀ x ∈ es, x.event.isInline = true) (separate : Separate before) :
    Separate (line source before es) := by
  induction length : es.length using Nat.strongRecOn generalizing before es with
  | ind n ih =>
    subst length
    cases es with
    | nil =>
      rw [line_nil]
      exact separate_reverse.mpr separate
    | cons e es =>
      have other : e.event ≠ .opens .paragraph := by
        intro begins
        have here := inline e List.mem_cons_self
        rw [begins] at here
        cases here
      rw [line_cons other]
      exact ih _ (Nat.lt_succ_of_le (length_restOf e es))
        (fun x mem => inline x (List.mem_cons_of_mem e (mem_of_mem_restOf mem)))
        (separate_push separate _) rfl

theorem Balanced.append (first : Balanced u) (second : Balanced v) : Balanced (u ++ v) := by
  induction first with
  | none => exact second
  | around inner _ _ ih =>
    rw [List.cons_append, List.append_assoc]
    exact .around inner ih

theorem marks_append (ps qs : List Piece) : marks (ps ++ qs) = marks ps ++ marks qs :=
  List.filterMap_append

theorem marks_push (q : Piece) (before : List Piece) :
    marks (push q before).reverse = marks before.reverse ++ marks [q] := by
  have same : marks (push q before) = marks (q :: before) := by
    obtain ⟨inline, span⟩ := q
    unfold push
    split
    · cases inline <;> rfl
    · rfl
  have reversed : ∀ qs, marks qs.reverse = (marks qs).reverse := fun qs => List.filterMap_reverse
  rw [reversed, same, ← reversed, List.reverse_cons, marks_append]

theorem marks_single (single : e.event.isSingle = true) :
    marks [⟨inlineOf source e es, place source e⟩] = [] := by
  obtain ⟨event, start, stop⟩ := e
  cases event with
  | opens t | closes t => cases single
  | _ => rfl

theorem marks_begins (mark : t = .strong ∨ t = .emphasis) (opens : e.event = .opens t) :
    marks [⟨inlineOf source e es, place source e⟩] = [.opens t] := by
  rcases mark with rfl | rfl <;> rw [inlineOf, opens] <;> rfl

theorem marks_ends (mark : t = .strong ∨ t = .emphasis) (closes : c.event = .closes t) :
    marks [⟨inlineOf source c es, place source c⟩] = [.closes t] := by
  rcases mark with rfl | rfl <;> rw [inlineOf, closes] <;> rfl

theorem marks_other (other : ¬ (t = .strong ∨ t = .emphasis)) (inline : t.isInline = true)
    (opens : e.event = .opens t) : marks [⟨inlineOf source e es, place source e⟩] = [] := by
  cases t with
  | strong | emphasis => exact absurd (by simp) other
  | link | image =>
    rw [inlineOf, opens]
    rfl
  | _ => cases inline

theorem balanced_parts (complete : ∀ p ∈ parts, Complete p)
    (step : ∀ p ∈ parts, ∀ before, ∃ w, Balanced w ∧ marks (line source before p) =
      marks before.reverse ++ w)
    (before : List Piece) :
    ∃ w, Balanced w ∧ marks (line source before parts.flatten) = marks before.reverse ++ w := by
  induction parts generalizing before with
  | nil => exact ⟨[], .none, by rw [List.flatten_nil, line_nil, List.append_nil]⟩
  | cons p parts ih =>
    obtain ⟨after, continues⟩ : ∃ after, Continues source before p after :=
      continues_complete (complete p List.mem_cons_self) before
    obtain ⟨u, first, added⟩ := step p List.mem_cons_self before
    obtain ⟨v, rest, later⟩ := ih (fun q mem => complete q (List.mem_cons_of_mem p mem))
      (fun q mem => step q (List.mem_cons_of_mem p mem)) after
    rw [continues.gathered] at added
    exact ⟨u ++ v, first.append rest, by
      rw [List.flatten_cons, continues.line, later, added, List.append_assoc]⟩

theorem balanced_complete (complete : Complete p) (inline : ∀ x ∈ p, x.event.isInline = true)
    (before : List Piece) :
    ∃ w, Balanced w ∧ marks (line source before p) = marks before.reverse ++ w := by
  induction complete generalizing before with
  | @single e single =>
    refine ⟨[], .none, ?_⟩
    rw [(continues_single single).gathered, marks_push, marks_single single]
  | @whole e c t parts opens closes _ complete ih =>
    have here := inline e List.mem_cons_self
    rw [opens] at here
    have within : ∀ p ∈ parts, ∀ x ∈ p, x.event.isInline = true := by
      intro p mem x member
      have inner : x ∈ parts.flatten := List.mem_flatten.mpr ⟨p, mem, member⟩
      exact inline x (List.mem_cons_of_mem e (List.mem_append_left [c] inner))
    have other : e.event ≠ .opens .paragraph := by
      intro begins
      rw [begins] at opens
      cases opens
      cases here
    by_cases mark : t = .strong ∨ t = .emphasis
    · have step := fun p mem => ih p mem (within p mem)
      obtain ⟨w, balanced, added⟩ :=
        balanced_parts complete step (push ⟨inlineOf source e [], place source e⟩ before)
      obtain ⟨after, continues⟩ : ∃ after, Continues source _ parts.flatten after := continues_parts
        (fun p mem => continues_complete (complete p mem))
        (push ⟨inlineOf source e [], place source e⟩ before)
      rw [continues.gathered, marks_push, marks_begins mark opens] at added
      have whole := (continues_mark mark (Or.inl opens)).append
        (continues.append (continues_mark mark (Or.inr closes)))
      refine ⟨.opens t :: (w ++ .closes t :: []), .around balanced .none, ?_⟩
      change marks (line source before ([e] ++ (parts.flatten ++ [c]))) = _
      rw [whole.gathered, marks_push, added, marks_ends mark closes]
      simp
    · refine ⟨[], .none, ?_⟩
      rw [line_cons other, restOf_whole opens closes complete mark, line_nil, marks_push,
        marks_other mark here opens]

/-- What a complete element `p` comes to: one element, in the place of its first event, whatever
comes after it. -/
structure Outlines (source : Source) (p : List Located) (x : Element) : Prop where
  span : ∃ e ∈ p.head?, x.span = place source e
  outline : ∀ tail, outline source (p ++ tail) = x :: Script.outline source tail
  queue : ∀ tail, Queue.outline source (p ++ tail) = x :: Queue.outline source tail
  lines : ∀ ps, x.block = .paragraph ps → Separate ps ∧ Balanced (marks ps)

theorem queue_single (single : e.event.isSingle = true) :
    (Queue.block source e tail).both = (block source e (split e tail).1, (split e tail).2) := by
  obtain ⟨event, start, stop⟩ := e
  cases event with
  | opens t | closes t => cases single
  | _ => rfl

theorem split_single (single : e.event.isSingle = true) : split e tail = ([], tail) := by
  obtain ⟨event, start, stop⟩ := e
  cases event with
  | opens t | closes t => cases single
  | _ => rfl

theorem paragraph_of_block (same : block source e es = .paragraph ps) :
    e.event = .opens .paragraph ∧ ps = line source [] es := by
  unfold block at same
  split at same
  case h_2 begins => exact ⟨begins, (Block.paragraph.inj same).symm⟩
  all_goals cases same

theorem outline_cons : outline source (e :: es) =
    ⟨block source e (split e es).1, place source e⟩ :: outline source (split e es).2 := by
  rw [outline]

theorem outlines_complete (complete : Complete p) : ∃ x, Outlines source p x := by
  cases complete with
  | @single e single =>
    refine ⟨⟨block source e [], place source e⟩, ⟨e, rfl, rfl⟩, fun tail => ?_,
      fun tail => ?_, fun ps same => ?_⟩
    · rw [List.singleton_append, outline_cons, split_single single]
    · have gathered : (Queue.block source e tail).both = _ := queue_single single
      rw [split_single single] at gathered
      obtain ⟨got, left⟩ := Prod.mk.inj gathered
      rw [List.singleton_append, Queue.outline_cons, got, left]
    · have begins := (paragraph_of_block same).1
      rw [begins] at single
      cases single
  | @whole e c t parts opens closes holds complete =>
    have whole : ∀ tail, split e (parts.flatten ++ c :: tail) = (parts.flatten, tail) := by
      intro tail
      rw [split, opens]
      exact inside_whole complete closes
    refine ⟨⟨block source e parts.flatten, place source e⟩, ⟨e, rfl, rfl⟩, fun tail => ?_,
      fun tail => ?_, fun ps same => ?_⟩
    · rw [List.cons_append, List.append_assoc, List.singleton_append, outline_cons, whole]
    · have gathered : (Queue.block source e (parts.flatten ++ c :: tail)).both = _ :=
        queue_block opens closes holds complete
      obtain ⟨got, left⟩ := Prod.mk.inj gathered
      rw [List.cons_append, List.append_assoc, List.singleton_append, Queue.outline_cons, got, left]
    · obtain ⟨begins, rfl⟩ := paragraph_of_block same
      obtain rfl : Tag.paragraph = t := Event.opens.inj (begins.symm.trans opens)
      have inline : ∀ x ∈ parts.flatten, x.event.isInline = true := holds
      have step : ∀ p ∈ parts, ∀ before,
          ∃ w, Balanced w ∧ marks (line source before p) = marks before.reverse ++ w :=
        fun p mem => balanced_complete (complete p mem) fun x member =>
          inline x (List.mem_flatten.mpr ⟨p, mem, member⟩)
      obtain ⟨w, balanced, added⟩ := balanced_parts complete step []
      refine ⟨separate_line inline (List.isChain_nil), ?_⟩
      rw [added]
      exact balanced

theorem outlines_parts (complete : ∀ p ∈ parts, Complete p) :
    ∃ xs, List.Forall₂ (Outlines source) parts xs ∧
    ∀ tail, outline source (parts.flatten ++ tail) = xs ++ outline source tail ∧
      Queue.outline source (parts.flatten ++ tail) = xs ++ Queue.outline source tail := by
  induction parts with
  | nil => exact ⟨[], .nil, fun tail => ⟨rfl, rfl⟩⟩
  | cons p parts ih =>
    obtain ⟨x, first⟩ : ∃ x, Outlines source p x :=
      outlines_complete (complete p List.mem_cons_self)
    obtain ⟨xs, rest, whole⟩ := ih fun q mem => complete q (List.mem_cons_of_mem p mem)
    refine ⟨x :: xs, .cons first rest, fun tail => ?_⟩
    rw [List.flatten_cons, List.append_assoc, first.outline, first.queue, (whole tail).1,
      (whole tail).2]
    exact ⟨rfl, rfl⟩

/-- A document of complete elements has one element for each of them, in their order and in their
places. Each is what its own events alone come to, and whatever follows adds its elements after
them. Taking the events one by one from a queue comes to the same. In every paragraph no two texts
are neighbours, and bold and italic text begins and ends in balance. -/
theorem elements_apart (complete : ∀ p ∈ parts, Complete p) :
    List.Forall₂ (fun p x => outline source p = [x] ∧ ∃ e ∈ p.head?, x.span = place source e) parts
      (outline source parts.flatten) ∧
    (∀ rest, outline source (parts.flatten ++ rest) =
      outline source parts.flatten ++ outline source rest) ∧
    Queue.outline source parts.flatten = outline source parts.flatten ∧
    ∀ x ∈ outline source parts.flatten, ∀ ps, x.block = .paragraph ps →
      Separate ps ∧ Balanced (marks ps) := by
  obtain ⟨xs, each, whole⟩ : ∃ xs, List.Forall₂ (Outlines source) parts xs ∧ _ :=
    outlines_parts complete
  have none : outline source [] = [] := by rw [outline]
  have empty : Queue.outline source [] = [] := by rw [Queue.outline]
  obtain ⟨known, queue⟩ := whole []
  rw [List.append_nil, none, List.append_nil] at known
  rw [List.append_nil, empty, List.append_nil] at queue
  rw [known]
  refine ⟨?_, fun rest => (whole rest).1, queue, fun x mem => ?_⟩
  · refine each.imp fun p x outlines => ⟨?_, outlines.span⟩
    have alone := outlines.outline []
    rwa [List.append_nil, none] at alone
  · obtain ⟨i, here, rfl⟩ := List.mem_iff_getElem.mp mem
    exact ((List.forall₂_iff_get.mp each).2 i (by rw [each.length_eq]; exact here) here).lines

/-- A line that begins with bold text, and a list. -/
theorem elements_apart_list :
    let source : Source := ⟨"**a** b\n\n1. c\n".toList, "./source"⟩
    let bold : List Located :=
      [⟨.opens .strong, 0, 5⟩, ⟨.text ['a'], 2, 3⟩, ⟨.closes .strong, 0, 5⟩]
    let paragraph :=
      ⟨.opens .paragraph, 0, 8⟩ :: (bold ++ [⟨.text [' ', 'b'], 5, 7⟩, ⟨.closes .paragraph, 0, 8⟩])
    let item : List Located :=
      [⟨.opens .item, 9, 14⟩, ⟨.text ['c'], 12, 13⟩, ⟨.closes .item, 9, 14⟩]
    let list := ⟨.opens (.list (some 1)), 9, 14⟩ :: (item ++ [⟨.closes (.list (some 1)), 9, 14⟩])
    Markdown.events source.text = paragraph ++ list ∧ Complete paragraph ∧ Complete list ∧
      Queue.outline source (paragraph ++ list) = outline source paragraph ++ outline source list ∧
      (outline source paragraph).length = 1 := by
  intro source bold paragraph item list
  have text : ∀ s i j, Complete [⟨.text s, i, j⟩] := fun s i j => .single rfl
  have strong : Complete bold :=
    @Complete.whole _ _ .strong [[⟨.text ['a'], 2, 3⟩]] rfl rfl trivial (by simpa using text _ _ _)
  have first : Complete paragraph :=
    @Complete.whole _ _ .paragraph [bold, [⟨.text [' ', 'b'], 5, 7⟩]] rfl rfl
      (by unfold Tag.Holds; decide) (by simpa using ⟨strong, text _ _ _⟩)
  have inner : Complete item :=
    @Complete.whole _ _ .item [[⟨.text ['c'], 12, 13⟩]] rfl rfl trivial (by simpa using text _ _ _)
  have second : Complete list :=
    @Complete.whole _ _ (.list (some 1)) [item] rfl rfl (by unfold Tag.Holds; decide)
      (by simpa using inner)
  have alone : ∀ p ∈ [paragraph], Complete p := by simpa using first
  have both : ∀ p ∈ [paragraph, list], Complete p := by simpa using ⟨first, second⟩
  obtain ⟨each, appended, _, _⟩ := @elements_apart source _ alone
  obtain ⟨_, _, queue, _⟩ := @elements_apart source _ both
  simp only [List.flatten_cons, List.flatten_nil, List.append_nil] at each appended queue
  exact ⟨by decide +kernel, first, second, queue.trans (appended list), each.length_eq.symm⟩

end Dialogue.Script
