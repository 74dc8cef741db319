import Dialogue.Proofs.Term.Subterms

/-!
A snippet in a document is read as it would be in a text of its own. The tokens, the terms and the
mistakes are the same, and only their places differ, all by as much as the snippet stands behind
the beginning.
-/
namespace Dialogue
open Text (byteLength)

def Span.moved (source : Source) (offset : Nat) (s : Span) : Span :=
  ⟨source, offset + s.start, s.length⟩

theorem Span.cover_moved (source : Source) (offset : Nat) (a b : Span) :
    (a.cover b).moved source offset = (a.moved source offset).cover (b.moved source offset) := by
  simp only [moved, cover, stop, mk.injEq, true_and]
  omega

def Lexeme.mapSpan (f : Span → Span) (l : Lexeme) : Lexeme :=
  ⟨l.token, f l.span⟩

namespace Term

mutual

def mapSpan (f : Span → Span) : Term → Term
  | symbol s name => symbol (f s) name
  | literal s v => literal (f s) v
  | list s items => list (f s) (mapSpans f items)

def mapSpans (f : Span → Span) : List Term → List Term
  | [] => []
  | t :: ts => t.mapSpan f :: mapSpans f ts

end

theorem mapSpans_eq_map (f : Span → Span) (ts : List Term) :
    mapSpans f ts = ts.map (mapSpan f) := by
  induction ts with
  | nil => rfl
  | cons t ts ih => rw [mapSpans, List.map_cons, ih]

@[simp] theorem span_mapSpan (f : Span → Span) (t : Term) : (t.mapSpan f).span = f t.span := by
  cases t <;> rfl

end Term

def Note.mapSpan (f : Span → Span) (n : Note) : Note :=
  ⟨f n.span, n.hint?⟩

def Diagnostic.mapSpan (f : Span → Span) (d : Diagnostic) : Diagnostic :=
  ⟨d.reason, d.notes.map (Note.mapSpan f)⟩

def Problem.mapSpan (f : Span → Span) (p : Problem) : Problem :=
  { cause := p.cause, span := f p.span, second? := p.second?.map f }

theorem Problem.diagnostic_mapSpan (f : Span → Span) (p : Problem) :
    (p.mapSpan f).diagnostic = p.diagnostic.mapSpan f := by
  obtain ⟨cause, span, second⟩ := p
  cases second <;> rfl

def mapPlaces {α : Type} (f : Span → Span) (g : α → α) (r : Except Problem α) : Except Problem α :=
  (r.map g).mapError (Problem.mapSpan f)

namespace Lexer
variable {source own : Source} {offset stop : Nat} {c : Char}
  {cs here after opening read : List Char}
variable {m : Misread}

theorem byteLength_of_suffix (suffix : here <:+ cs) : byteLength here ≤ byteLength cs := by
  obtain ⟨front, rfl⟩ := suffix
  rw [Text.byteLength_append]
  omega

theorem between_moved (own : Source) (room : byteLength here ≤ stop) :
    between source (offset + stop) here after =
      (between own stop here after).moved source offset := by
  simp only [between, Span.moved, Span.mk.injEq, and_true, true_and]
  omega

theorem error_of_map {ε α β : Type} {x : Except ε α} {f : α → β} {e : ε}
    (mapped : x.map f = .error e) :
    x = .error e := by
  cases x with
  | error => simpa [Except.map] using mapped
  | ok => simp [Except.map] at mapped

theorem ok_of_toOption {ε α : Type} {x : Except ε α} {a : α} (found : x.toOption = some a) :
    x = .ok a := by
  cases x with
  | error => cases found
  | ok => cases found; rfl

/-- A string literal is at fault from its quote on, or from some place in it, up to a later
place. -/
theorem suffix_of_scanString (misread : scanString opening read cs = .error m) :
    (m.here = opening ∨ m.here <:+ cs) ∧ m.after <:+ m.here := by
  induction read, cs using scanString.induct with
  | case1 | case3 =>
    simp only [scanString] at misread
    cases misread
    exact ⟨Or.inl rfl, List.nil_suffix⟩
  | case2 => cases misread
  | case4 read e cs unknown =>
    simp only [scanString, unknown] at misread
    cases misread
    exact ⟨Or.inr List.suffix_rfl, (List.suffix_cons e cs).trans (List.suffix_cons _ _)⟩
  | case5 read e cs c known ih =>
    simp only [scanString, known] at misread
    obtain ⟨quote | later, after⟩ := ih (error_of_map misread)
    · exact ⟨Or.inl quote, after⟩
    · exact ⟨Or.inr ((later.trans (List.suffix_cons e cs)).trans (List.suffix_cons _ _)), after⟩
  | case6 read c cs quote last other ih =>
    simp only [scanString] at misread
    obtain ⟨quote | later, after⟩ := ih (error_of_map misread)
    · exact ⟨Or.inl quote, after⟩
    · exact ⟨Or.inr (later.trans (List.suffix_cons c cs)), after⟩

theorem suffix_of_scanToken (misread : scanToken c cs = .error m) :
    m.here <:+ c :: cs ∧ m.after <:+ m.here := by
  unfold scanToken at misread
  split at misread
  · cases misread
  split at misread
  · cases misread
  split at misread
  · cases misread
  split at misread
  · cases misread
  split at misread
  · obtain ⟨whole | inside, after⟩ := suffix_of_scanString (error_of_map misread)
    · exact ⟨whole ▸ List.suffix_rfl, after⟩
    · exact ⟨inside.trans (List.suffix_cons c cs), after⟩
  split at misread
  · cases misread
    exact ⟨List.suffix_rfl, List.suffix_rfl⟩
  dsimp only at misread
  split at misread
  · split at misread
    · cases misread
    · cases misread
      exact ⟨List.suffix_rfl, (List.dropWhile_suffix _).trans (List.suffix_cons c cs)⟩
  · cases misread

theorem lexFrom_moved (source own : Source) (offset : Nat) (room : byteLength cs ≤ stop) :
    lexFrom source (offset + stop) cs =
      mapPlaces (.moved source offset) (List.map (.mapSpan (.moved source offset)))
        (lexFrom own stop cs) := by
  induction cs using lexFrom.induct with
  | case1 cs blank =>
    rw [lexFrom_blank blank, lexFrom_blank blank]
    rfl
  | case2 cs c more front m misread =>
    have inside := byteLength_skip false cs
    rw [front] at inside
    have fault := byteLength_of_suffix (suffix_of_scanToken misread).1
    rw [lexFrom_misread front misread, lexFrom_misread front misread, between_moved own (by omega)]
    rfl
  | case3 cs c more front t scanned ih =>
    have inside := byteLength_skip false cs
    rw [front] at inside
    -- The rest lies within the text, so the places in it are counted from the same end.
    obtain ⟨_, _, split, _⟩ := (scans_of_scanToken (start_of_skip front) scanned).frame
    have later := byteLength_of_suffix ⟨_, split.symm⟩
    rw [lexFrom_token front scanned, lexFrom_token front scanned, ih (by omega),
      between_moved own (by omega)]
    cases lexFrom own stop t.rest <;> rfl

end Lexer

namespace Reader
variable {f : Span → Span}

def Group.mapSpan (f : Span → Span) (g : Group) : Group :=
  ⟨g.delimiter, f g.span, g.items.map (Term.mapSpan f)⟩

def Nesting.mapSpan (f : Span → Span) (n : Nesting) : Nesting :=
  ⟨n.groups.map (Group.mapSpan f), n.items.map (Term.mapSpan f)⟩

theorem put_mapSpan (n : Nesting) (t : Term) :
    (n.put t).mapSpan f = (n.mapSpan f).put (t.mapSpan f) := by
  obtain ⟨groups, items⟩ := n
  cases groups <;> rfl

/-- The reader is indifferent to places, but for joining those of an opening and a closing
bracket. -/
theorem take_mapSpan (join : ∀ a b, f (a.cover b) = (f a).cover (f b)) (n : Nesting) (l : Lexeme) :
    (n.mapSpan f).take (l.mapSpan f) = mapPlaces f (.mapSpan f) (n.take l) := by
  obtain ⟨token, span⟩ := l
  cases token with
  | opening d => rfl
  | symbol name =>
    change Except.ok _ = Except.ok _
    rw [put_mapSpan]
    rfl
  | literal v =>
    change Except.ok _ = Except.ok _
    rw [put_mapSpan]
    rfl
  | closing d =>
    obtain ⟨groups, items⟩ := n
    cases groups with
    | nil => rfl
    | cons g gs =>
      simp only [Nesting.take, Nesting.close, Nesting.mapSpan, Lexeme.mapSpan, List.map_cons,
        Group.mapSpan]
      split
      · change Except.ok _ = Except.ok _
        rw [put_mapSpan, Term.mapSpan, Term.mapSpans_eq_map, join, List.map_reverse]
        rfl
      · rfl

theorem fold_mapSpan (join : ∀ a b, f (a.cover b) = (f a).cover (f b)) (ls : List Lexeme)
    (n : Nesting) :
    (ls.map (Lexeme.mapSpan f)).foldlM Nesting.take (n.mapSpan f) =
      mapPlaces f (.mapSpan f) (ls.foldlM Nesting.take n) := by
  induction ls generalizing n with
  | nil => rfl
  | cons l ls ih =>
    rw [List.map_cons, List.foldlM_cons, List.foldlM_cons, take_mapSpan join]
    cases n.take l with
    | error => rfl
    | ok next => exact ih next

theorem readAll_mapSpan (join : ∀ a b, f (a.cover b) = (f a).cover (f b)) (ls : List Lexeme) :
    readAll (ls.map (Lexeme.mapSpan f)) = mapPlaces f (List.map (Term.mapSpan f)) (readAll ls) := by
  have fold := fold_mapSpan join ls .empty
  change List.foldlM _ Nesting.empty _ = _ at fold
  unfold readAll
  rw [fold]
  cases ls.foldlM Nesting.take Nesting.empty with
  | error => rfl
  | ok n =>
    change (n.mapSpan f).finish = mapPlaces f (List.map (Term.mapSpan f)) n.finish
    obtain ⟨groups, items⟩ := n
    cases groups with
    | nil =>
      change Except.ok _ = Except.ok _
      rw [List.map_reverse]
      rfl
    | cons => rfl

theorem single_mapSpan (join : ∀ a b, f (a.cover b) = (f a).cover (f b)) (snippet : Span)
    (ts : List Term) :
    single (f snippet) (ts.map (Term.mapSpan f)) =
      mapPlaces f (.mapSpan f) (single snippet ts) := by
  have joined : ∀ (us : List Term) (s : Span),
      ((us.map (Term.mapSpan f)).map Term.span).foldl Span.cover (f s) =
        f ((us.map Term.span).foldl Span.cover s) := by
    intro us
    induction us with
    | nil => exact fun s => rfl
    | cons u us ih =>
      intro s
      simp only [List.map_cons, List.foldl_cons, Term.span_mapSpan]
      rw [← join]
      exact ih _
  match ts with
  | [] | [_] => rfl
  | _ :: t :: ts =>
    simp only [List.map_cons, single, Term.span_mapSpan, joined]
    rfl

end Reader

namespace Term
open Lexer Reader

/-- Reading a snippet of a document, its tokens or the one term they make up, gives what reading a
text of its own with the same characters gives, mistakes with their reasons and hints included;
every place is further on by the offset of the snippet. -/
theorem read_in_place {s : Span} (valid : s.Valid) (path : String) :
    let own : Source := ⟨s.contents, path⟩
    let place := Span.moved s.source s.start
    lex s = mapPlaces place (List.map (Lexeme.mapSpan place)) (lex own.whole) ∧
    Term.read s = mapPlaces place (Term.mapSpan place) (Term.read own.whole) ∧
    ∀ p : Problem, (p.mapSpan place).diagnostic = p.diagnostic.mapSpan place := by
  intro own place
  obtain ⟨_, _, _, _, length⟩ := valid.parts
  have contents : own.whole.contents = s.contents := Span.contents_whole own
  have stop : own.whole.stop = s.length := by
    rw [← length]
    exact Nat.zero_add _
  have whole : place own.whole = s := by
    change (⟨s.source, s.start + 0, byteLength s.contents⟩ : Span) = s
    rw [length, Nat.add_zero]
  have lexed : lex s = mapPlaces place (List.map (Lexeme.mapSpan place)) (lex own.whole) := by
    unfold lex
    rw [contents, stop]
    exact lexFrom_moved s.source own s.start (Nat.le_of_eq length)
  refine ⟨lexed, ?_, Problem.diagnostic_mapSpan place⟩
  have join := Span.cover_moved s.source s.start
  unfold Term.read Term.readAll
  rw [lexed]
  cases lex own.whole with
  | error => rfl
  | ok ls =>
    change (Reader.readAll (ls.map (Lexeme.mapSpan place)) >>= fun ts => single s ts) =
      mapPlaces place (Term.mapSpan place) (Reader.readAll ls >>= fun ts => single own.whole ts)
    rw [readAll_mapSpan join]
    cases Reader.readAll ls with
    | error => rfl
    | ok ts =>
      change single s (ts.map (Term.mapSpan place)) =
        mapPlaces place (Term.mapSpan place) (single own.whole ts)
      rw [← single_mapSpan join]
      change single s _ = single (place own.whole) _
      rw [whole]

/-- A string that is closed only behind its snippet, after a letter of two bytes, and a snippet
that is a term. -/
theorem read_in_place_unterminated :
    let source : Source := ⟨"é `(a \"b` c\") `[é d]`".toList, "./source"⟩
    let broken : Span := ⟨source, 4, 5⟩
    let sound : Span := ⟨source, 16, 6⟩
    broken.Valid ∧ sound.Valid ∧ (∃ p, Term.read broken = .error p ∧ p.span = ⟨source, 7, 2⟩) ∧
      ∃ t, Term.read sound = .ok t ∧ t.span = sound := by
  intro source broken sound
  have first : broken.Valid :=
    ⟨Text.isBoundary_iff.mp (by decide), Text.isBoundary_iff.mp (by decide)⟩
  have second : sound.Valid :=
    ⟨Text.isBoundary_iff.mp (by decide), Text.isBoundary_iff.mp (by decide)⟩
  have here : broken.contents = "(a \"b".toList := by decide +kernel
  refine ⟨first, second, ?_, ?_⟩
  · have moved := (read_in_place first "").2.1
    rw [here] at moved
    rw [moved]
    exact ⟨_, by with_unfolding_all rfl, rfl⟩
  · have moved := (read_in_place second "").2.1
    have found : (Term.read (Source.whole ⟨sound.contents, ""⟩)).toOption.map Term.span =
        some (Source.whole ⟨sound.contents, ""⟩) := by decide +kernel
    obtain ⟨t, result, place⟩ := Option.map_eq_some_iff.mp found
    have read := ok_of_toOption result
    rw [read] at moved
    refine ⟨_, moved, ?_⟩
    rw [span_mapSpan, place]
    rfl

end Term
end Dialogue
