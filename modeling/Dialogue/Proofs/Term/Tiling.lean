import Dialogue.Proofs.Term.Offsets

/-!
How the tokens lie in a snippet. They follow one another and none is empty, and between them there
is nothing but blanks, commas and comments, where a comment goes as far as its line or the snippet
does. Each of them, and each place that a mistake is told of, is a part of the snippet that is cut
between characters.
-/
namespace Dialogue
open Text (byteLength)

namespace Span

structure Contains (s t : Span) : Prop where
  source : t.source = s.source
  start : s.start ≤ t.start
  stop : t.stop ≤ s.stop
  valid : t.Valid

theorem Contains.widen {s t u : Span} (contains : s.Contains u) (source : s.source = t.source)
    (start : t.start ≤ s.start) (stop : s.stop ≤ t.stop) : t.Contains u where
  source := contains.source.trans source
  start := Nat.le_trans start contains.start
  stop := Nat.le_trans contains.stop stop
  valid := contains.valid

theorem contains_part {s : Span} {front own rest : List Char}
    (stands : s.source.Stands s.start s.stop (front ++ own ++ rest)) :
    s.Contains ⟨s.source, s.start + byteLength front, byteLength own⟩ := by
  have length := stands.stop_eq
  simp only [Text.byteLength_append] at length
  refine ⟨rfl, Nat.le_add_right .., ?_, stands.part.valid⟩
  change s.start + byteLength front + byteLength own ≤ s.stop
  omega

def after (s t : Span) : Span :=
  ⟨s.source, t.stop, s.stop - t.stop⟩

/-- What a section has before, between and behind parts of it. -/
def gaps (s : Span) : List Span → List Span
  | [] => [s]
  | t :: ts => ⟨s.source, s.start, t.start - s.start⟩ :: (s.after t).gaps ts

end Span

/-- Names and numbers, and the other literals that are written without quotes. -/
def Token.isRun : Token → Bool
  | .symbol _ => true
  | .literal (.string _) => false
  | .literal _ => true
  | .opening _ | .closing _ => false

namespace Lexer

/-- Text between tokens, where `after` is what the snippet goes on with. A comment ends at the
next line feed, or with the snippet. -/
inductive Filler (after : List Char) : List Char → Prop where
  | done : Filler after []
  | gap {c : Char} {cs : List Char} (gap : isGap c = true) (later : Filler after cs) :
      Filler after (c :: cs)
  | comment {line cs : List Char} (inside : '\n' ∉ line)
      (ends : ∀ c, (cs ++ after).head? = some c → c = '\n') (later : Filler after cs) :
      Filler after (';' :: line ++ cs)

structure Tiles (s : Span) (ls : List Lexeme) : Prop where
  inside : ∀ l ∈ ls, s.Contains l.span ∧ 0 < l.span.length
  ordered : ls.Pairwise fun l k => l.span.stop ≤ k.span.start
  apart : ls.Pairwise fun l k => l.token.isRun → k.token.isRun → l.span.stop < k.span.start
  filled : ∀ g ∈ s.gaps (ls.map Lexeme.span), Filler (s.after g).contents g.contents

variable {source : Source} {start stop : Nat} {c : Char} {cs after gap rest here : List Char}
variable {token : Token} {l : Lexeme} {ls : List Lexeme} {p : Problem}

theorem Filler.longer (other : c ≠ '\n') (filler : Filler after (';' :: gap)) :
    Filler after (';' :: c :: gap) := by
  generalize whole : ';' :: gap = text at filler
  cases filler with
  | done => cases whole
  | gap blank =>
    cases whole
    exact absurd blank (by decide)
  | @comment line cs inside ends later =>
    obtain rfl : gap = line ++ cs := List.tail_eq_of_cons_eq whole
    have longer : '\n' ∉ c :: line := by
      intro mem
      rcases List.mem_cons.mp mem with same | mem
      · exact other same.symm
      · exact inside mem
    exact .comment longer ends later

theorem Filler.short (ends : ∀ c, (gap ++ after).head? = some c → c = '\n')
    (later : Filler after gap) :
    Filler after (';' :: gap) := by
  have comment : Filler after (';' :: [] ++ gap) := .comment List.not_mem_nil ends later
  exact comment

/-- What is passed over before a token is filler, also when it begins in a comment. -/
theorem filler_of_skip (inComment : Bool) (cs : List Char) : ∃ gap, cs = gap ++ skip inComment cs ∧
    Filler (skip inComment cs) (if inComment then ';' :: gap else gap) := by
  induction cs generalizing inComment with
  | nil =>
    refine ⟨[], rfl, ?_⟩
    cases inComment with
    | false => exact .done
    | true => exact .short (fun c head => by cases head) .done
  | cons c cs ih =>
    cases inComment with
    | true =>
      change ∃ gap, c :: cs = gap ++ skip (c != '\n') cs ∧ Filler (skip (c != '\n') cs) (';' :: gap)
      obtain ⟨gap, split, filler⟩ := ih (c != '\n')
      refine ⟨c :: gap, congrArg (c :: ·) split, ?_⟩
      by_cases feed : c = '\n'
      · subst feed
        exact .short (fun d head => (Option.some.inj head).symm) (.gap (by decide) filler)
      · have other : (c != '\n') = true := bne_iff_ne.mpr feed
        rw [other] at filler ⊢
        exact filler.longer feed
    | false =>
      rw [skip, if_neg Bool.false_ne_true]
      by_cases blank : (Text.isBlank c || c == ',') = true
      · rw [if_pos blank]
        obtain ⟨gap, split, filler⟩ := ih false
        exact ⟨c :: gap, congrArg (c :: ·) split, .gap blank filler⟩
      · rw [if_neg blank]
        by_cases semicolon : (c == ';') = true
        · rw [if_pos semicolon]
          obtain ⟨gap, split, filler⟩ := ih true
          obtain rfl : c = ';' := beq_iff_eq.mp semicolon
          exact ⟨';' :: gap, congrArg (';' :: ·) split, filler⟩
        · rw [if_neg semicolon]
          exact ⟨[], rfl, .done⟩

theorem Scans.ends_of_isRun (scans : Scans here token rest) (run : token.isRun = true) :
    Ends rest ∧ ¬ Ends here := by
  cases scans with
  | opening | closing | string => cases run
  | @run c more _ _ chars ends _ =>
    refine ⟨ends, fun stops => ?_⟩
    have other := stops c rfl
    rw [chars c List.mem_cons_self] at other
    cases other

theorem Lexes.head (lexes : Lexes source stop cs (l :: ls)) (stands : source.Stands start stop cs) :
    ∃ gap own rest, cs = gap ++ own ++ rest ∧ Filler (own ++ rest) gap ∧ 0 < byteLength own ∧
      Scans (own ++ rest) l.token rest ∧ l.span = ⟨source, start + byteLength gap, byteLength own⟩ ∧
      Lexes source stop rest ls := by
  obtain ⟨gap, split, filler⟩ := filler_of_skip false cs
  cases lexes with
  | cons front scans later =>
    obtain ⟨c, own, rfl, _⟩ := scans.frame
    rw [front] at split filler
    have length := (split ▸ stands).left.stop_eq
    rw [Text.byteLength_append] at length
    refine ⟨gap, c :: own, _, by rw [List.append_assoc, ← split], filler,
      Text.byteLength_pos c own, scans, ?_, later⟩
    refine between_eq ?_ ?_ <;> rw [Text.byteLength_append] <;> omega

/-- No run begins where a run may still go on. -/
theorem Lexes.apart (lexes : Lexes source stop cs ls) (stands : source.Stands start stop cs)
    (ends : Ends cs) :
    ∀ k ∈ ls, k.token.isRun = true → start < k.span.start := by
  intro k mem run
  cases ls with
  | nil => cases mem
  | cons l ls =>
    obtain ⟨gap, own, rest, rfl, _, positive, scans, place, later⟩ := lexes.head stands
    have length := stands.stop_eq
    simp only [Text.byteLength_append] at length
    rcases List.mem_cons.mp mem with rfl | mem
    · cases gap with
      | nil => exact absurd ends (scans.ends_of_isRun run).2
      | cons c gap =>
        have := Text.byteLength_pos c gap
        rw [place]
        exact Nat.lt_add_of_pos_right this
    · have inside := (later.inside (by omega) k mem).2.1
      omega

theorem after_of_stop {front : List Char} {t : Span} (reaches : t.stop = start + byteLength front) :
    (⟨source, start, byteLength (front ++ rest)⟩ : Span).after t =
      ⟨source, start + byteLength front, byteLength rest⟩ := by
  rw [Span.after, reaches, Span.stop, Text.byteLength_append, ← Nat.add_assoc,
    Nat.add_sub_cancel_left]

theorem tiles_of_lexes (lexes : Lexes source stop cs ls) (stands : source.Stands start stop cs) :
    Tiles ⟨source, start, byteLength cs⟩ ls := by
  induction ls generalizing start cs with
  | nil =>
    obtain ⟨gap, split, filler⟩ := filler_of_skip false cs
    cases lexes with
    | nil blank =>
      rw [blank] at split filler
      rw [List.append_nil] at split
      subst split
      refine ⟨by simp, .nil, .nil, ?_⟩
      intro g mem
      obtain rfl := List.mem_singleton.mp mem
      rw [stands.contents]
      simpa [Span.after, Span.contents] using filler
  | cons l ls ih =>
    obtain ⟨gap, own, rest, rfl, filler, positive, scans, place, later⟩ := lexes.head stands
    obtain rfl := stands.stop_eq
    have behind := stands.left
    have before : source.Stands start _ (gap ++ (own ++ rest)) :=
      List.append_assoc gap own rest ▸ stands
    have tiles := ih later behind
    let snippet : Span := ⟨source, start, byteLength (gap ++ own ++ rest)⟩
    let remainder : Span := ⟨source, start + byteLength (gap ++ own), byteLength rest⟩
    have same_stop : remainder.stop = snippet.stop := behind.stop_eq
    have token : snippet.Contains l.span := place ▸ Span.contains_part stands
    have begins : l.span.start = start + byteLength gap := by rw [place]
    have reaches : l.span.stop = start + byteLength (gap ++ own) := by
      rw [place, Span.stop, Text.byteLength_append, Nat.add_assoc]
    have widen {u : Span} (inside : remainder.Contains u) : snippet.Contains u :=
      inside.widen rfl (Nat.le_add_right ..) (Nat.le_of_eq same_stop)
    refine ⟨?_, ?_, ?_, ?_⟩
    · intro k mem
      rcases List.mem_cons.mp mem with rfl | mem
      · exact ⟨token, place ▸ positive⟩
      · exact (tiles.inside k mem).imp_left widen
    · refine List.pairwise_cons.mpr ⟨fun k mem => ?_, tiles.ordered⟩
      exact reaches ▸ (tiles.inside k mem).1.start
    · refine List.pairwise_cons.mpr ⟨fun k mem run run' => ?_, tiles.apart⟩
      rw [reaches]
      exact later.apart behind (scans.ends_of_isRun run).1 k mem run'
    · intro g mem
      rw [List.map_cons, Span.gaps, after_of_stop reaches] at mem
      rcases List.mem_cons.mp mem with rfl | mem
      · rw [begins, Nat.add_sub_cancel_left, before.first.contents, List.append_assoc,
          after_of_stop rfl, before.left.contents]
        exact filler
      · have same : snippet.after g = remainder.after g := by
          rw [Span.after, Span.after, same_stop]
        change Filler (snippet.after g).contents g.contents
        rw [same]
        exact tiles.filled g mem

theorem fault_of_lexFrom (failed : lexFrom source stop cs = .error p) : ∃ cause here after,
    here <:+ cs ∧ after <:+ here ∧ p = { cause, span := between source stop here after } := by
  induction cs using lexFrom.induct with
  | case1 cs blank =>
    rw [lexFrom_blank blank] at failed
    cases failed
  | case2 cs c more front m misread =>
    rw [lexFrom_misread front misread] at failed
    cases failed
    obtain ⟨gap, split⟩ := skip_suffix false cs
    obtain ⟨here, after⟩ := suffix_of_scanToken misread
    exact ⟨m.cause, m.here, m.after, here.trans (front ▸ ⟨gap, split.symm⟩), after, rfl⟩
  | case3 cs c more front t scanned ih =>
    rw [lexFrom_token front scanned] at failed
    obtain ⟨gap, split⟩ := skip_suffix false cs
    obtain ⟨d, own, whole, _⟩ := (scans_of_scanToken (start_of_skip front) scanned).frame
    obtain ⟨cause, here, after, within, later, rfl⟩ := ih (error_of_map failed)
    have rest : t.rest <:+ c :: more := ⟨d :: own, whole.symm⟩
    exact ⟨cause, here, after, within.trans (rest.trans (front ▸ ⟨gap, split.symm⟩)), later, rfl⟩

theorem contains_between {s : Span} (valid : s.Valid) (within : here <:+ s.contents)
    (later : after <:+ here) :
    s.Contains (between s.source s.stop here after) := by
  obtain ⟨front, whole⟩ := within
  obtain ⟨own, rfl⟩ := later
  have stands := valid.stands
  rw [← whole, ← List.append_assoc] at stands
  have length := stands.stop_eq
  simp only [Text.byteLength_append] at length
  have place : between s.source s.stop (own ++ after) after =
      ⟨s.source, s.start + byteLength front, byteLength own⟩ := by
    refine between_eq ?_ ?_ <;> rw [Text.byteLength_append] <;> omega
  exact place ▸ Span.contains_part stands

/-- Reading a snippet that is cut between characters ends, with every cut in the source and
between characters. The tokens of a snippet that can be read tile it, and if it cannot be read,
all places that its author is told of are parts of it. -/
theorem lexing_tiles {s : Span} (valid : s.Valid) :
    lexByOffsets? s = some (lex s) ∧ (∀ ls, lex s = .ok ls → Tiles s ls) ∧
      ∀ p, lex s = .error p → ∀ n ∈ p.diagnostic.notes, s.Contains n.span := by
  refine ⟨lexByOffsets_eq valid, fun ls lexed => ?_, fun p failed n mem => ?_⟩
  · obtain ⟨_, _, _, _, length⟩ := valid.parts
    have tiles := tiles_of_lexes (lexFrom_iff.mp lexed) valid.stands
    rwa [length] at tiles
  · obtain ⟨cause, here, after, within, later, rfl⟩ := fault_of_lexFrom failed
    obtain rfl := List.mem_singleton.mp mem
    exact contains_between valid within later

/-- Tokens around a comment in letters of two bytes, and an escape of such a letter. -/
theorem lexing_tiles_two_bytes :
    let source : Source := ⟨"é (a;ü\n\"ö\" b), \"\\ü\"".toList, "./source"⟩
    let sound : Span := ⟨source, 3, 13⟩
    let broken : Span := ⟨source, 16, 7⟩
    sound.Valid ∧ broken.Valid ∧
      (∃ ls, lex sound = .ok ls ∧ Tiles sound ls ∧
        ls.map (fun l => (l.span.start, l.span.length)) =
          [(3, 1), (4, 1), (9, 4), (14, 1), (15, 1)]) ∧
      ∃ p, lex broken = .error p ∧ p.span = ⟨source, 19, 3⟩ ∧ broken.Contains p.span := by
  intro source sound broken
  have first : sound.Valid :=
    ⟨Text.isBoundary_iff.mp (by decide), Text.isBoundary_iff.mp (by decide)⟩
  have second : broken.Valid :=
    ⟨Text.isBoundary_iff.mp (by decide), Text.isBoundary_iff.mp (by decide)⟩
  refine ⟨first, second, ?_, ?_⟩
  · have found : (lex sound).toOption.map (List.map fun l => (l.span.start, l.span.length)) =
        some [(3, 1), (4, 1), (9, 4), (14, 1), (15, 1)] := by decide +kernel
    obtain ⟨ls, lexed, places⟩ := Option.map_eq_some_iff.mp found
    have read := ok_of_toOption lexed
    exact ⟨ls, read, (lexing_tiles first).2.1 ls read, places⟩
  · have failed : lex broken = .error { cause := .unknownEscape 'ü', span := ⟨source, 19, 3⟩ } := by
      with_unfolding_all rfl
    exact ⟨_, failed, rfl, (lexing_tiles second).2.2 _ failed _ List.mem_cons_self⟩

end Lexer
end Dialogue
