import Dialogue.Proofs.Term.Cut
import Dialogue.Proofs.Term.Nesting

/-!
The place of a term. The section of source that a term was read from goes from the beginning of
its first token to the end of its last, however deep in another term it stands, and reading that
section gives the same term again, with the same places throughout.
-/
namespace Dialogue
open Text (byteLength)

namespace Span

theorem contents_of_parts {source : Source} {before own after : List Char}
    (text : source.text = before ++ own ++ after) :
    (⟨source, byteLength before, byteLength own⟩ : Span).contents = own := by
  simp only [contents, text]
  rw [List.append_assoc, Text.dropBytes_byteLength_append, Text.takeBytes_byteLength_append]

theorem Valid.parts {s : Span} (valid : s.Valid) : ∃ before after,
    s.source.text = before ++ s.contents ++ after ∧ byteLength before = s.start ∧
      byteLength s.contents = s.length := by
  obtain ⟨⟨before, front, starts⟩, whole, ⟨after, split⟩, stops⟩ := valid
  have behind : before <+: whole := by
    rcases List.prefix_or_prefix_of_prefix front ⟨after, split⟩ with behind | ⟨more, same⟩
    · exact behind
    · have none : more = [] := by
        have length := congrArg byteLength same
        rw [Text.byteLength_append] at length
        simp only [Span.stop] at stops
        cases more with
        | nil => rfl
        | cons c more =>
          have := c.utf8Size_pos
          simp only [byteLength] at length
          omega
      rw [none, List.append_nil] at same
      exact ⟨[], by rw [same, List.append_nil]⟩
  obtain ⟨own, rfl⟩ := behind
  have length : byteLength own = s.length := by
    rw [Text.byteLength_append, Span.stop] at stops
    omega
  have contents : s.contents = own := by
    have := contents_of_parts split.symm
    rwa [starts, length] at this
  rw [contents]
  exact ⟨before, after, split.symm, starts, length⟩

end Span

/-- `u` stands somewhere in `t`, or is `t`. -/
inductive Term.Within (u : Term) : Term → Prop where
  | self : Within u u
  | item {span : Span} {items : List Term} {t : Term} (mem : t ∈ items) (inner : Within u t) :
      Within u (.list span items)

namespace Term

def items : Term → List Term
  | list _ items => items
  | _ => []

theorem within_of_mem_items {t u : Term} (mem : u ∈ t.items) : u.Within t := by
  cases t with
  | list => exact .item mem .self
  | _ => cases mem

end Term

namespace Lexer
open Reader (Spells)

variable {source : Source} {stop : Nat} {c : Char} {cs : List Char} {ls own : List Lexeme}
  {t u : Term}

theorem spells_within (spells : Spells own [t]) (within : u.Within t) :
    ∃ front inner back, own = front ++ inner ++ back ∧ Spells inner [u] := by
  induction within generalizing own with
  | self => exact ⟨[], own, [], by simp, spells⟩
  | @item span items t mem _ ih =>
    cases spells with
    | @list d opened closed tokens rest _ _ inside _ =>
      obtain ⟨front, mid, back, rfl, spelled⟩ := inside.split mem
      obtain ⟨front', inner, back', rfl, found⟩ := ih spelled
      refine ⟨⟨.opening d, opened⟩ :: (front ++ front'), inner,
        back' ++ back ++ ⟨.closing d, closed⟩ :: rest, ?_, found⟩
      simp

theorem exists_cons_of_spells (spells : Spells ls [t]) : ∃ l later, ls = l :: later := by
  cases spells with
  | symbol | literal | list => exact ⟨_, _, rfl⟩

theorem span_of_spells (spells : Spells ls [t]) (lexes : Lexes source stop (c :: cs) ls)
    (start : isSeparator c = false) (room : byteLength (c :: cs) ≤ stop) {last : Lexeme}
    (final : ls.getLast? = some last) (ending : last.span.stop = stop) :
    t.span = ⟨source, stop - byteLength (c :: cs), byteLength (c :: cs)⟩ := by
  have inside := lexes.inside room
  have begins : ∀ token span, ls.head? = some ⟨token, span⟩ →
      span.start = stop - byteLength (c :: cs) := by
    intro token span head
    cases lexes with
    | nil => cases head
    | cons found =>
      rw [skip_of_start start] at found
      subst found
      cases head
      rfl
  have single : ∀ token span, ls = [⟨token, span⟩] →
      span = ⟨source, stop - byteLength (c :: cs), byteLength (c :: cs)⟩ := by
    intro token span same
    subst same
    have closing : last = ⟨token, span⟩ := by simpa using final.symm
    subst closing
    have first := begins token span rfl
    have within := inside _ List.mem_cons_self
    obtain ⟨text, place, length⟩ := span
    simp only [Span.stop] at first within ending
    simp only [Span.mk.injEq]
    refine ⟨within.1, first, ?_⟩
    omega
  cases spells with
  | symbol later =>
    cases later
    exact single _ _ rfl
  | literal later =>
    cases later
    exact single _ _ rfl
  | @list d opened closed inner _ _ _ within later =>
    cases later
    have first := begins _ opened rfl
    have left := inside ⟨.opening d, opened⟩ List.mem_cons_self
    have right := inside ⟨.closing d, closed⟩ (by simp)
    have closing : last = ⟨.closing d, closed⟩ := by
      rw [← List.cons_append, List.getLast?_append] at final
      simpa using final.symm
    subst closing
    simp only at left right ending
    simp only [Term.span, Span.cover, Span.mk.injEq]
    refine ⟨left.1, ?_, ?_⟩
    · omega
    · omega

theorem read_ok {s : Span} (read : Term.read s = .ok t) :
    ∃ ls, lexFrom s.source s.stop s.contents = .ok ls ∧ Reader.readAll ls = .ok [t] := by
  unfold Term.read Term.readAll lex at read
  cases lexed : lexFrom s.source s.stop s.contents with
  | error => rw [lexed] at read; cases read
  | ok ls =>
    rw [lexed] at read
    change (Reader.readAll ls >>= fun ts => Reader.single s ts) = .ok t at read
    cases nested : Reader.readAll ls with
    | error => rw [nested] at read; cases read
    | ok ts =>
      rw [nested] at read
      change Reader.single s ts = .ok t at read
      match ts, read with
      | [_], read =>
        cases read
        exact ⟨ls, rfl, nested⟩

theorem read_of_spells {s : Span} (lexes : Lexes s.source s.stop s.contents ls)
    (spells : Spells ls [t]) : Term.read s = .ok t := by
  unfold Term.read Term.readAll lex
  rw [lexFrom_iff.mpr lexes]
  change (Reader.readAll ls >>= fun ts => Reader.single s ts) = .ok t
  rw [Reader.readAll_iff.mpr spells]
  rfl

end Lexer

namespace Term
open Lexer

/-- Every term that stands in one that was read, however deep, is what its own section of the source
reads as, with the same places throughout. -/
theorem subterms_read_back {s : Span} {t u : Term} (valid : s.Valid) (read : Term.read s = .ok t)
    (within : u.Within t) :
    Term.read u.span = .ok u := by
  obtain ⟨before, after, text, starts, length⟩ := valid.parts
  obtain ⟨ls, lexed, nested⟩ := read_ok read
  obtain ⟨front, inner, back, rfl, spells⟩ := spells_within (Reader.readAll_iff.mp nested) within
  obtain ⟨l, later, rfl⟩ := exists_cons_of_spells spells
  have lexes := lexFrom_iff.mp lexed
  rw [List.append_assoc] at lexes
  obtain ⟨gap, rest, split, lexes⟩ := lexes.behind
  have lengths := congrArg byteLength split
  rw [Text.byteLength_append] at lengths
  have room : byteLength rest ≤ s.stop := by
    rw [Span.stop]
    omega
  obtain ⟨c, own, tail, found, start, cut, last, final, ending⟩ := lexes.cut room
  obtain ⟨blanks, reached⟩ := skip_suffix false rest
  rw [found] at reached
  have inside := congrArg byteLength reached
  simp only [Text.byteLength_append] at inside
  -- The section of `u` is what stands between the first of its tokens and the last.
  have place := span_of_spells spells cut start (by omega) final ending
  have parts : s.source.text = (before ++ gap ++ blanks) ++ (c :: own) ++ (tail ++ after) := by
    rw [text, split, reached]
    simp
  have own_start : byteLength (before ++ gap ++ blanks) =
      s.stop - byteLength tail - byteLength (c :: own) := by
    simp only [Text.byteLength_append, Span.stop]
    omega
  have contents : u.span.contents = c :: own := by
    have := Span.contents_of_parts parts
    rwa [own_start, ← place] at this
  have stop : u.span.stop = s.stop - byteLength tail := by
    rw [place]
    change s.stop - byteLength tail - byteLength (c :: own) + byteLength (c :: own) = _
    omega
  have source : u.span.source = s.source := by rw [place]
  apply read_of_spells _ spells
  rw [contents, stop, source]
  exact cut

/-- A list in square brackets, deep in a document, with a bracket in its string. -/
theorem subterms_read_back_nested :
    let source : Source := ⟨"é `(do [a \")\" ; b]\n] 1)` c".toList, "./source"⟩
    let s : Span := ⟨source, 4, 20⟩
    s.Valid ∧ ∃ t u, Term.read s = .ok t ∧ u.Within t ∧ u.span = ⟨source, 8, 13⟩ ∧
      Term.read u.span = .ok u := by
  intro source s
  have valid : s.Valid := ⟨Text.isBoundary_iff.mp (by decide), Text.isBoundary_iff.mp (by decide)⟩
  have found : ((Term.read s).toOption.bind fun t => t.items[1]?).map Term.span =
      some ⟨source, 8, 13⟩ := by
    decide +kernel
  obtain ⟨u, item, place⟩ := Option.map_eq_some_iff.mp found
  obtain ⟨t, read, item⟩ := Option.bind_eq_some_iff.mp item
  have read : Term.read s = .ok t := by
    cases result : Term.read s with
    | error => rw [result] at read; cases read
    | ok => rw [result] at read; cases read; rfl
  have within := within_of_mem_items (List.mem_of_getElem? item)
  exact ⟨valid, t, u, read, within, place, subterms_read_back valid read within⟩

end Term
end Dialogue
