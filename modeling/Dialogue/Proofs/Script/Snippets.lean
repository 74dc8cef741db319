import Dialogue.Proofs.Script.Pieces
import Dialogue.Proofs.Term.Tiling

/-!
Code in a document and the text it was delivered as. The place of a snippet is found by looking
for its text, and what is compiled is read from that place; the text itself is never read. Both
have the same characters, in the document or in a text of their own, and reading them comes to the
same but for the places.
-/
namespace Dialogue
open Text (byteLength)
open Markdown (Located)

namespace Text
variable {a b text : List Char}

theorem prefix_of_byteLength_le (front : a <+: text) (longer : b <+: text)
    (le : byteLength a ≤ byteLength b) :
    a <+: b := by
  rcases List.prefix_or_prefix_of_prefix front longer with less | ⟨more, rfl⟩
  · exact less
  · rw [byteLength_append] at le
    have none : more = [] := eq_nil_of_byteLength (by omega)
    exact ⟨[], by rw [none, List.append_nil, List.append_nil]⟩

end Text

namespace Span
variable {s t : Span} {ss : List Span}

theorem Contains.infix (valid : s.Valid) (contains : s.Contains t) :
    t.contents <:+: s.contents := by
  obtain ⟨before, after, text, start, length⟩ := valid.parts
  obtain ⟨front, rest, whole, first, size⟩ := contains.valid.parts
  rw [contains.source] at whole
  have begins := contains.start
  have ends := contains.stop
  simp only [Span.stop] at ends
  have outer : before ++ s.contents <+: s.source.text := ⟨after, text.symm⟩
  have inner : front ++ t.contents <+: s.source.text := ⟨rest, whole.symm⟩
  obtain ⟨gap, rfl⟩ := Text.prefix_of_byteLength_le ((List.prefix_append _ _).trans outer)
    ((List.prefix_append _ _).trans inner) (by omega)
  have within := Text.prefix_of_byteLength_le inner outer (by
    rw [Text.byteLength_append, Text.byteLength_append before s.contents]
    omega)
  rw [List.append_assoc, List.prefix_append_right_inj] at within
  exact (List.suffix_append _ _).isInfix.trans within.isInfix

theorem Valid.cover (first : s.Valid) (second : t.Valid) (same : t.source = s.source) :
    (s.cover t).Valid := by
  have bounds : (s.cover t).stop = max s.stop t.stop := by
    simp only [Span.cover, Span.stop]
    omega
  rw [Valid, same] at second
  refine ⟨?_, ?_⟩
  · rcases Nat.le_total s.start t.start with less | less
    · simpa [Span.cover, Nat.min_eq_left less] using first.1
    · simpa [Span.cover, Nat.min_eq_right less] using second.1
  · rw [bounds]
    rcases Nat.le_total s.stop t.stop with less | less
    · simpa [Span.cover, Nat.max_eq_right less] using second.2
    · simpa [Span.cover, Nat.max_eq_left less] using first.2

theorem Valid.coverAll {source : Source} (valid : ∀ t ∈ ss, t.source = source ∧ t.Valid)
    (found : Span.coverAll ss = some s) : s.source = source ∧ s.Valid := by
  cases ss with
  | nil => cases found
  | cons t ss =>
    obtain rfl := Option.some.inj found
    refine List.foldlRecOn (motive := fun u : Span => u.source = source ∧ u.Valid) ss Span.cover
      (valid t List.mem_cons_self) ?_
    rintro u ⟨place, cut⟩ v mem
    obtain ⟨own, between⟩ := valid v (List.mem_cons_of_mem t mem)
    exact ⟨place, cut.cover between (own.trans place.symm)⟩

end Span

namespace Term
open Lexer

/-- What comes of reading a text, whatever the places in it. -/
def unplaced (r : Except Problem Term) : Except Problem Term :=
  mapPlaces (fun _ => default) (Term.mapSpan fun _ => default) r

theorem mapPlaces_bind {α β : Type} {f : Span → Span} {g : α → α} {h : β → β}
    {k l : α → Except Problem β} (same : ∀ a, mapPlaces f h (k a) = l (g a))
    (r : Except Problem α) :
    mapPlaces f h (r >>= k) = mapPlaces f g r >>= l := by
  cases r with
  | error p => rfl
  | ok a => exact same a

theorem unplaced_read (s : Span) : unplaced (Term.read s) =
    (mapPlaces (fun _ => default) (List.map (.mapSpan fun _ => default)) (lex s) >>=
      Reader.readAll) >>= Reader.single default := by
  have join : ∀ a b : Span, (fun _ => default : Span → Span) (a.cover b) =
      Span.cover default default :=
    fun _ _ => rfl
  unfold unplaced Term.read Term.readAll
  rw [mapPlaces_bind fun ts => (Reader.single_mapSpan join s ts).symm,
    mapPlaces_bind fun ls => (Reader.readAll_mapSpan join ls).symm]

/-- It makes no difference where places have been moved to before they are left out. -/
theorem places_left_out (f : Span → Span) (r : Except Problem (List Lexeme)) :
    mapPlaces (fun _ => default) (List.map (.mapSpan fun _ => default))
      (mapPlaces f (List.map (.mapSpan f)) r) =
    mapPlaces (fun _ => default) (List.map (.mapSpan fun _ => default)) r := by
  cases r with
  | error p =>
    obtain ⟨cause, span, second⟩ := p
    cases second <;> rfl
  | ok ls =>
    have same : (ls.map (Lexeme.mapSpan f)).map (Lexeme.mapSpan fun _ => default) =
        ls.map (Lexeme.mapSpan fun _ => default) := by
      rw [List.map_map]
      rfl
    exact congrArg Except.ok same

/-- A part of a text is read like a text of its own with the same characters. -/
theorem read_unplaced {s : Span} (valid : s.Valid) (path : String) :
    unplaced (Term.read s) = unplaced (Term.read (Source.whole ⟨s.contents, path⟩)) := by
  obtain ⟨_, _, _, _, length⟩ := valid.parts
  have stop : s.stop = s.start + byteLength s.contents := congrArg (s.start + ·) length.symm
  have own : lex (Source.whole ⟨s.contents, path⟩) =
      lexFrom ⟨s.contents, path⟩ (byteLength s.contents) s.contents := by
    unfold lex
    rw [Span.contents_whole]
    congr 1
    exact Nat.zero_add _
  have moved : lex s =
      mapPlaces (.moved s.source s.start) (List.map (.mapSpan (.moved s.source s.start)))
        (lexFrom ⟨s.contents, path⟩ (byteLength s.contents) s.contents) := by
    unfold lex
    rw [stop]
    exact lexFrom_moved s.source ⟨s.contents, path⟩ s.start (Nat.le_refl _)
  rw [unplaced_read, unplaced_read, own, moved, places_left_out]

end Term

namespace Script
variable {content text : List Char} {within : Span} {source : Source} {e x : Located}
  {es inner : List Located}
variable {before : List Piece} {p : Piece} {snippet : Snippet} {i : Nat}

theorem parts_of_offset? (found : offset? content text = some i) :
    ∃ front rest, text = front ++ content ++ rest ∧ byteLength front = i := by
  induction text generalizing i with
  | nil =>
    rw [offset?] at found
    split at found
    · rename_i none
      cases found
      exact ⟨[], [], by simp [none], rfl⟩
    · cases found
  | cons c text ih =>
    rw [offset?] at found
    split at found
    · rename_i here
      obtain ⟨rest, whole⟩ := List.isPrefixOf_iff_prefix.mp here
      cases found
      exact ⟨[], rest, whole.symm, rfl⟩
    · obtain ⟨j, later, rfl⟩ := Option.map_eq_some_iff.mp found
      obtain ⟨front, rest, rfl, rfl⟩ := ih later
      exact ⟨c :: front, rest, rfl, rfl⟩

theorem offset?_eq_none_iff : offset? content text = none ↔ ¬ content <:+: text := by
  induction text with
  | nil => simp [offset?]
  | cons c text ih =>
    rw [offset?, List.infix_cons_iff, not_or, ← ih]
    by_cases here : content.isPrefixOf (c :: text) = true
    · simp [here, List.isPrefixOf_iff_prefix.mp here]
    · have later := mt List.isPrefixOf_iff_prefix.mpr here
      simp [here, later]

/-- How code is placed: over its own text, in the section it was delivered for if that holds it,
and otherwise in a text that is nothing else and has the name of the document. -/
structure Snippet.Placed (snippet : Snippet) (content : List Char) (within : Span) : Prop where
  text : snippet.text = content
  valid : snippet.span.Valid
  contents : snippet.span.contents = content
  inside : within.Contains snippet.span ↔ content <:+: within.contents
  apart : ¬ content <:+: within.contents → snippet.span = Source.whole ⟨content, within.source.path⟩

theorem placed_of_located (valid : within.Valid) (content : List Char) :
    (located content within).Placed content within := by
  unfold located
  cases found : offset? content within.contents with
  | some i =>
    obtain ⟨front, rest, whole, rfl⟩ := parts_of_offset? found
    have stands := valid.stands
    rw [whole] at stands
    have contains := Span.contains_part stands
    have holds : content <:+: within.contents := ⟨front, rest, whole.symm⟩
    exact ⟨rfl, contains.valid, stands.part.contents, iff_of_true contains holds, fun none =>
      absurd holds none⟩
  | none =>
    have without := offset?_eq_none_iff.mp found
    have contents : (Source.whole ⟨content, within.source.path⟩).contents = content :=
      Span.contents_whole _
    have own : (⟨content, within.source.path⟩ : Source).Stands 0 (byteLength content) content :=
      ⟨[], [], by simp, rfl, Nat.zero_add _⟩
    refine ⟨rfl, own.valid, contents, iff_of_false ?_ without, fun _ => rfl⟩
    intro contains
    have holds := contains.infix valid
    rw [contents] at holds
    exact without holds

def Piece.snippet? (p : Piece) : Option Snippet :=
  match p.inline with
  | .code snippet => some snippet
  | _ => none

def Block.snippets : Block → List Snippet
  | .paragraph ps => ps.filterMap Piece.snippet?
  | .list _ items => items.flatMap fun i => i.pieces.filterMap Piece.snippet?
  | .fence snippet => [snippet]
  | .heading _ _ | .unsupported _ => []

/-- The snippet was delivered for a section of the document. -/
def Snippet.Delivered (source : Source) (snippet : Snippet) : Prop :=
  ∃ within, within.source = source ∧ within.Valid ∧ snippet = located snippet.text within

theorem snippets_push (p : Piece) (before : List Piece) :
    (push p before).filterMap Piece.snippet? = (p :: before).filterMap Piece.snippet? := by
  obtain ⟨inline, span⟩ := p
  unfold push
  split
  · cases inline <;> rfl
  · rfl

theorem text_located (content : List Char) (within : Span) :
    (located content within).text = content := by
  unfold located
  split <;> rfl

theorem delivered_of_inlineOf (valid : (place source e).Valid)
    (found : (Piece.mk (inlineOf source e es) (place source e)).snippet? = some snippet) :
    snippet.Delivered source := by
  have code : ∀ i, Piece.snippet? ⟨i, place source e⟩ = some snippet → i = .code snippet := by
    intro i
    cases i with
    | code s => exact fun same => congrArg Inline.code (Option.some.inj same)
    | _ =>
      intro same
      cases same
  have same := code _ found
  cases event : e.event with
  | code s =>
    rw [inlineOf, event] at same
    obtain rfl := Inline.code.inj same
    exact ⟨_, rfl, valid, by rw [text_located]⟩
  | opens t | closes t =>
    rw [inlineOf, event] at same
    cases t <;> cases same
  | _ =>
    rw [inlineOf, event] at same
    cases same

theorem delivered_of_line (valid : ∀ x ∈ es, (place source x).Valid)
    (mem : snippet ∈ (line source before es).filterMap Piece.snippet?) :
    snippet ∈ before.filterMap Piece.snippet? ∨ snippet.Delivered source := by
  induction length : es.length using Nat.strongRecOn generalizing before es with
  | ind n ih =>
    subst length
    cases es with
    | nil => exact Or.inl (by simpa using mem)
    | cons e es =>
      have later := fun x mem => valid x (List.mem_cons_of_mem e mem)
      by_cases begins : e.event = .opens .paragraph
      · have short := length_inside 0 es
        have less : (inside 0 es).1.length < es.length + 1 := by omega
        have rest : (inside 0 es).2.length < es.length + 1 := by omega
        rw [line_paragraph begins] at mem
        rcases ih _ rest (fun x mem => later x (mem_of_mem_inside (Or.inr mem))) mem rfl
          with inner | delivered
        · simp only [List.filterMap_append, List.filterMap_reverse, List.mem_append,
            List.mem_reverse] at inner
          rcases inner with inner | old
          · rcases ih _ less (fun x mem => later x (mem_of_mem_inside (Or.inl mem))) inner
              rfl with none | delivered
            · cases none
            · exact Or.inr delivered
          · exact Or.inl old
        · exact Or.inr delivered
      · have less : (restOf e es).length < es.length + 1 := Nat.lt_succ_of_le (length_restOf e es)
        rw [line_cons begins] at mem
        rcases ih _ less (fun x mem => later x (mem_of_mem_restOf mem)) mem rfl
          with inner | delivered
        · rw [snippets_push] at inner
          obtain ⟨p, here, code⟩ := List.mem_filterMap.mp inner
          rcases List.mem_cons.mp here with rfl | old
          · exact Or.inr (delivered_of_inlineOf (valid e List.mem_cons_self) code)
          · exact Or.inl (List.mem_filterMap.mpr ⟨p, old, code⟩)
        · exact Or.inr delivered

theorem delivered_of_mem_line (valid : ∀ x ∈ es, (place source x).Valid)
    (mem : snippet ∈ (line source [] es).filterMap Piece.snippet?) : snippet.Delivered source := by
  rcases delivered_of_line valid mem with none | delivered
  · cases none
  · exact delivered

theorem delivered_of_items (valid : ∀ x ∈ es, (place source x).Valid)
    (mem : snippet ∈ (items source es).flatMap fun i => i.pieces.filterMap Piece.snippet?) :
    snippet.Delivered source := by
  induction es using items.induct with
  | case1 =>
    rw [items] at mem
    cases mem
  | case2 e es opens ih =>
    have later := fun x mem => valid x (List.mem_cons_of_mem e mem)
    rw [items, opens, List.flatMap_cons, List.mem_append] at mem
    rcases mem with here | mem
    · exact delivered_of_mem_line (fun x mem => later x (mem_of_mem_inside (Or.inl mem))) here
    · exact ih (fun x mem => later x (mem_of_mem_inside (Or.inr mem))) mem
  | case3 e es other ih =>
    rw [items] at mem
    split at mem
    · rename_i opens
      exact absurd opens other
    · exact ih (fun x mem => valid x (List.mem_cons_of_mem e mem)) mem

/-- The code of a fence is looked for in the section from the first of its texts to the last. -/
theorem delivered_of_fenced (start : (Span.point source e.start).Valid)
    (valid : ∀ x ∈ es, (place source x).Valid) : (fenced source e.start es).Delivered source := by
  have whole : fenced source e.start es = located (fenced source e.start es).text
      ((Span.coverAll ((es.filter isText).map (place source))).getD (.point source e.start)) := by
    unfold fenced
    rw [text_located]
  cases covered : Span.coverAll ((es.filter isText).map (place source)) with
  | none =>
    rw [covered] at whole
    exact ⟨_, rfl, start, whole⟩
  | some within =>
    rw [covered] at whole
    have texts : ∀ t ∈ (es.filter isText).map (place source), t.source = source ∧ t.Valid := by
      intro t mem
      obtain ⟨x, text, rfl⟩ := List.mem_map.mp mem
      exact ⟨rfl, valid x (List.mem_filter.mp text).1⟩
    obtain ⟨own, sound⟩ := Span.Valid.coverAll texts covered
    exact ⟨within, own, sound, whole⟩

theorem delivered_of_block (valid : ∀ x ∈ e :: inner, (place source x).Valid)
    (mem : snippet ∈ (block source e inner).snippets) : snippet.Delivered source := by
  have inside := fun x mem => valid x (List.mem_cons_of_mem e mem)
  unfold block at mem
  split at mem
  · cases mem
  · exact delivered_of_mem_line inside mem
  · exact delivered_of_items inside mem
  · obtain rfl := List.mem_singleton.mp mem
    have cut := (valid e List.mem_cons_self).1
    exact delivered_of_fenced ⟨cut, cut⟩ inside
  all_goals cases mem

theorem mem_of_mem_split (mem : x ∈ (split e es).1 ∨ x ∈ (split e es).2) : x ∈ es := by
  unfold split at mem
  split at mem
  · exact mem_of_mem_inside mem
  · simpa using mem

theorem delivered_of_outline (valid : ∀ x ∈ es, (place source x).Valid) {y : Element}
    (mem : y ∈ outline source es) (code : snippet ∈ y.block.snippets) :
    snippet.Delivered source := by
  induction es using outline.induct with
  | case1 =>
    rw [outline] at mem
    cases mem
  | case2 e es ih =>
    have later := fun x mem => valid x (List.mem_cons_of_mem e mem)
    rw [outline] at mem
    rcases List.mem_cons.mp mem with rfl | mem
    · refine delivered_of_block (fun x mem => ?_) code
      rcases List.mem_cons.mp mem with rfl | mem
      · exact valid x List.mem_cons_self
      · exact later x (mem_of_mem_split (Or.inl mem))
    · exact ih (fun x mem => later x (mem_of_mem_split (Or.inr mem))) mem

/-- Code is placed over exactly the text it was delivered as, in the section it was delivered for
if and only if that holds it. So what is read of any code of a document, from its place, is what
is read of its text alone, terms and mistakes alike, but for the places. -/
theorem code_as_delivered {within : Span} (valid : within.Valid) (content : List Char)
    {source : Source} {es : List Located} (bounds : ∀ e ∈ es, (place source e).Valid) :
    (located content within).Placed content within ∧
    ∀ x ∈ outline source es, ∀ snippet ∈ x.block.snippets, snippet.Delivered source ∧
      ∀ path, Term.unplaced (Term.read snippet.span) =
        Term.unplaced (Term.read (Source.whole ⟨snippet.text, path⟩)) := by
  refine ⟨placed_of_located valid content, fun x mem snippet code => ?_⟩
  have delivered := delivered_of_outline bounds mem code
  refine ⟨delivered, fun path => ?_⟩
  obtain ⟨_, _, cut, whole⟩ := delivered
  have placed := placed_of_located cut snippet.text
  rw [← whole] at placed
  rw [Term.read_unplaced placed.valid path, placed.contents]

/-- A snippet that is found behind a letter of two bytes, and one that is not found because its
line ends with two characters in the document. -/
theorem code_as_delivered_two_characters :
    let source : Source := ⟨"é `a`\n\n```\r\n(print a)\r\n```\r\n".toList, "./source"⟩
    let own : Source := ⟨"(print a)\n".toList, "./source"⟩
    source.whole.Valid ∧ (∀ e ∈ Markdown.events source.text, (place source e).Valid) ∧
      (read source).flatMap (fun x => x.block.snippets) =
        [⟨"a".toList, ⟨source, 4, 1⟩⟩, ⟨own.text, own.whole⟩] ∧
      (located own.text source.whole).Placed own.text source.whole ∧
      ∃ x ∈ read source, ∃ snippet ∈ x.block.snippets, Term.unplaced (Term.read snippet.span) =
        Term.unplaced (Term.read (Source.whole ⟨snippet.text, "a"⟩)) := by
  intro source own
  have bounds : ∀ e ∈ Markdown.events source.text, (place source e).Valid := by
    have cut : ∀ e ∈ Markdown.events source.text, Text.isBoundary e.start source.text = true ∧
        Text.isBoundary (e.start + (e.stop - e.start)) source.text = true := by
      decide +kernel
    intro e mem
    exact ⟨Text.isBoundary_iff.mp (cut e mem).1, Text.isBoundary_iff.mp (cut e mem).2⟩
  have valid : source.whole.Valid :=
    ⟨Text.isBoundary_iff.mp (by decide +kernel), Text.isBoundary_iff.mp (by decide +kernel)⟩
  have found : (read source).flatMap (fun x => x.block.snippets) =
      [⟨"a".toList, ⟨source, 4, 1⟩⟩, ⟨own.text, own.whole⟩] := by
    decide +kernel
  obtain ⟨placed, delivered⟩ := code_as_delivered valid own.text bounds
  refine ⟨valid, bounds, found, placed, ?_⟩
  obtain ⟨x, mem, code⟩ := List.mem_flatMap.mp (found ▸ List.mem_cons_self)
  exact ⟨x, mem, _, code, (delivered x mem _ code).2 "a"⟩

end Script
end Dialogue
