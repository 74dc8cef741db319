import Dialogue.Proofs.Term.Nesting
import Mathlib.Data.List.Induction

/-!
Which tokens are read, and what is said of the others. Tokens are read when every closing bracket
is of the kind of the innermost group still open and nothing is left open at the end; what they
are read as can be written out again. Otherwise the first closing bracket that does not fit is
reported, whatever comes after it, and only where there is none a group that nothing closes.
-/
namespace Dialogue

/-- The token with its kind of bracket left aside. -/
def Token.rounded : Token → Token
  | opening _ => opening .round
  | closing _ => closing .round
  | t => t

namespace Term

mutual

/-- The tokens of a term, every list in round brackets. -/
def tokens : Term → List Token
  | symbol _ name => [.symbol name]
  | literal _ v => [.literal v]
  | list _ items => .opening .round :: (tokensOf items ++ [.closing .round])

def tokensOf : List Term → List Token
  | [] => []
  | t :: ts => t.tokens ++ tokensOf ts

end

end Term

namespace Reader

/-- Every bracket in the tokens has its partner among them, of its own kind. -/
inductive Paired : List Lexeme → Prop where
  | nil : Paired []
  | symbol {span : Span} {name : String} {ls : List Lexeme} (later : Paired ls) :
      Paired (⟨.symbol name, span⟩ :: ls)
  | literal {span : Span} {v : Value} {ls : List Lexeme} (later : Paired ls) :
      Paired (⟨.literal v, span⟩ :: ls)
  | group {d : Delimiter} {opened closed : Span} {inner ls : List Lexeme}
      (within : Paired inner) (later : Paired ls) :
      Paired (⟨.opening d, opened⟩ :: (inner ++ ⟨.closing d, closed⟩ :: ls))

/-- After the tokens the innermost group still open is of the kind `d` and was opened at `place`. -/
def Innermost (d : Delimiter) (place : Span) (ls : List Lexeme) : Prop :=
  ∃ front inner, ls = front ++ ⟨.opening d, place⟩ :: inner ∧ Paired inner

/-- Every closing bracket is of the kind of the innermost group still open. -/
def Matching (ls : List Lexeme) : Prop :=
  ∀ before d span after, ls = before ++ ⟨.closing d, span⟩ :: after →
    ∃ place, Innermost d place before

/-- What is wrong with tokens, and what is said of it. Before an offending bracket all brackets
match. -/
inductive Refused : List Lexeme → Diagnostic → Prop where
  | unexpected {before after : List Lexeme} {d : Delimiter} {span : Span}
      (matching : Matching before) (outside : Paired before) :
      Refused (before ++ ⟨.closing d, span⟩ :: after)
      ⟨"Unexpected closing " ++ d.name, [⟨span, none⟩]⟩
  | mismatched {before after : List Lexeme} {o d : Delimiter} {place span : Span}
      (matching : Matching before) (inside : Innermost o place before) (other : o ≠ d) :
      Refused (before ++ ⟨.closing d, span⟩ :: after)
        ⟨"Mismatched opening " ++ o.name ++ " and closing " ++ d.name,
          [⟨place, none⟩, ⟨span, none⟩]⟩
  | unclosed {ls : List Lexeme} {o : Delimiter} {place : Span}
      (matching : Matching ls) (inside : Innermost o place ls) :
      Refused ls ⟨"Unclosed " ++ o.name, [⟨place, none⟩]⟩

variable {ls before after : List Lexeme} {ts : List Term} {n n' : Nesting} {l : Lexeme}
  {d o : Delimiter}
variable {place span : Span} {p : Problem}

theorem tokens_of_spells (spells : Spells ls ts) :
    Term.tokensOf ts = ls.map fun l => l.token.rounded := by
  induction spells with
  | nil => rfl
  | symbol _ ih | literal _ ih =>
    rw [Term.tokensOf, ih]
    rfl
  | list _ _ inner ih =>
    rw [Term.tokensOf, Term.tokens, inner, ih]
    simp [Token.rounded]

/-! Tokens are paired when they spell terms, so reading them leaves the groups around them alone. -/

theorem paired_of_spells (spells : Spells ls ts) : Paired ls := by
  induction spells with
  | nil => exact .nil
  | symbol _ ih => exact .symbol ih
  | literal _ ih => exact .literal ih
  | list _ _ inner ih => exact .group inner ih

theorem spells_of_paired (paired : Paired ls) : ∃ ts, Spells ls ts := by
  induction paired with
  | nil => exact ⟨[], .nil⟩
  | symbol _ ih =>
    obtain ⟨ts, spells⟩ := ih
    exact ⟨_, .symbol spells⟩
  | literal _ ih =>
    obtain ⟨ts, spells⟩ := ih
    exact ⟨_, .literal spells⟩
  | group _ _ inner ih =>
    obtain ⟨items, within⟩ := inner
    obtain ⟨ts, spells⟩ := ih
    exact ⟨_, .list within spells⟩

theorem groups_of_paired (paired : Paired ls)
    (read : ls.foldlM Nesting.take Nesting.empty = .ok n) :
    n.groups = [] := by
  obtain ⟨ts, spells⟩ := spells_of_paired paired
  rw [fold_of_spells spells, Nesting.empty, putAll_outside] at read
  cases read
  rfl

theorem fold_append_ok {ms : List Lexeme} (read : (ls ++ ms).foldlM Nesting.take n = .ok n') :
    ∃ m, ls.foldlM Nesting.take n = .ok m ∧ ms.foldlM Nesting.take m = .ok n' := by
  rw [List.foldlM_append] at read
  cases first : ls.foldlM Nesting.take n with
  | error => rw [first] at read; cases read
  | ok m => rw [first] at read; exact ⟨m, rfl, read⟩

theorem groups_of_innermost (inside : Innermost o place ls)
    (read : ls.foldlM Nesting.take Nesting.empty = .ok n) :
    ∃ items gs, n.groups = ⟨o, place, items⟩ :: gs := by
  obtain ⟨front, inner, rfl, paired⟩ := inside
  obtain ⟨ts, spells⟩ := spells_of_paired paired
  obtain ⟨m, _, rest⟩ := fold_append_ok read
  change inner.foldlM Nesting.take ⟨⟨o, place, []⟩ :: m.groups, m.items⟩ = .ok n at rest
  rw [fold_of_spells spells, putAll_groups m] at rest
  cases rest
  exact ⟨_, _, rfl⟩

theorem open_of_fold (read : ls.foldlM Nesting.take Nesting.empty = .ok n) :
    (n.groups = [] → Paired ls) ∧ ∀ g gs, n.groups = g :: gs → Innermost g.delimiter g.span ls := by
  have started : Tracks Nesting.empty.items Nesting.empty.groups [] := .nil
  have tracks : Tracks n.items n.groups ls := tracks_fold started read
  constructor
  · intro none
    rw [none] at tracks
    exact paired_of_spells tracks
  · intro g gs some
    rw [some] at tracks
    obtain ⟨front, inner, split, _, spells⟩ := tracks
    exact ⟨front, inner, split, paired_of_spells spells⟩

/-! The reader goes through tokens as long as their brackets match. -/

theorem Matching.left (matching : Matching (ls ++ after)) : Matching ls := by
  intro before d span rest split
  exact matching before d span (rest ++ after) (by simp [split])

theorem fold_of_matching (matching : Matching ls) :
    ∃ n, ls.foldlM Nesting.take Nesting.empty = .ok n := by
  -- Whether a token is taken depends on all tokens before it, so they are taken off from the end.
  induction ls using List.reverseRecOn with
  | nil => exact ⟨_, rfl⟩
  | append_singleton ls l ih =>
    obtain ⟨n, read⟩ := ih matching.left
    have taken : ∃ n', n.take l = .ok n' := by
      obtain ⟨token, span⟩ := l
      cases token with
      | opening | symbol | literal => exact ⟨_, rfl⟩
      | closing d =>
        obtain ⟨place, inside⟩ := matching ls d span [] rfl
        obtain ⟨items, gs, groups⟩ := groups_of_innermost inside read
        simp [Nesting.take, Nesting.close, groups]
    obtain ⟨n', taken⟩ := taken
    refine ⟨n', ?_⟩
    rw [List.foldlM_append, read]
    change [l].foldlM Nesting.take n = .ok n'
    rw [List.foldlM_cons, taken]
    rfl

theorem matching_of_fold (read : ls.foldlM Nesting.take Nesting.empty = .ok n) : Matching ls := by
  rintro before d span after rfl
  obtain ⟨m, front, rest⟩ := fold_append_ok read
  rw [List.foldlM_cons] at rest
  cases groups : m.groups with
  | nil =>
    simp only [Nesting.take, Nesting.close, groups] at rest
    cases rest
  | cons g gs =>
    simp only [Nesting.take, Nesting.close, groups] at rest
    split at rest
    · rename_i same
      exact ⟨g.span, same ▸ (open_of_fold front).2 g gs groups⟩
    · cases rest

/-- A fold that fails does so at the first token that is not taken. -/
theorem fold_error_iff : ls.foldlM Nesting.take n = .error p ↔
    ∃ before l after m, ls = before ++ l :: after ∧ before.foldlM Nesting.take n = .ok m ∧
      m.take l = .error p := by
  constructor
  · intro failed
    induction ls generalizing n with
    | nil => cases failed
    | cons l ls ih =>
      rw [List.foldlM_cons] at failed
      cases taken : n.take l with
      | error q =>
        rw [taken] at failed
        cases failed
        exact ⟨[], l, ls, n, rfl, rfl, taken⟩
      | ok next =>
        rw [taken] at failed
        obtain ⟨before, k, after, m, rfl, read, failing⟩ := ih failed
        refine ⟨l :: before, k, after, m, rfl, ?_, failing⟩
        rw [List.foldlM_cons, taken]
        exact read
  · rintro ⟨before, l, after, m, rfl, read, failing⟩
    rw [List.foldlM_append, read]
    change (l :: after).foldlM Nesting.take m = .error p
    rw [List.foldlM_cons, failing]
    rfl

theorem readAll_apply (ls : List Lexeme) :
    readAll ls = match ls.foldlM Nesting.take Nesting.empty with
    | .error p => .error p
    | .ok n => n.finish := by
  unfold readAll
  cases ls.foldlM Nesting.take Nesting.empty <;> rfl

theorem refused_of_error (failed : readAll ls = .error p) : Refused ls p.diagnostic := by
  rw [readAll_apply] at failed
  cases read : ls.foldlM Nesting.take Nesting.empty with
  | ok n =>
    rw [read] at failed
    simp only [Nesting.finish] at failed
    split at failed
    · cases failed
    · rename_i g gs groups
      cases failed
      exact .unclosed (matching_of_fold read) ((open_of_fold read).2 g gs groups)
  | error q =>
    rw [read] at failed
    cases failed
    obtain ⟨before, l, after, m, rfl, front, failing⟩ := fold_error_iff.mp read
    have matching := matching_of_fold front
    obtain ⟨token, span⟩ := l
    cases token with
    | opening | symbol | literal => cases failing
    | closing d =>
      cases groups : m.groups with
      | nil =>
        simp only [Nesting.take, Nesting.close, groups] at failing
        cases failing
        exact .unexpected matching ((open_of_fold front).1 groups)
      | cons g gs =>
        simp only [Nesting.take, Nesting.close, groups] at failing
        split at failing
        · cases failing
        · rename_i other
          cases failing
          exact .mismatched matching ((open_of_fold front).2 g gs groups) other

theorem error_of_refused {x : Diagnostic} (refused : Refused ls x) :
    ∃ p, readAll ls = .error p ∧ p.diagnostic = x := by
  cases refused with
  | @unexpected before after d span matching outside =>
    obtain ⟨m, front⟩ := fold_of_matching matching
    have groups := groups_of_paired outside front
    have failing : m.take ⟨.closing d, span⟩ = .error { cause := .unexpectedClosing d, span } := by
      simp only [Nesting.take, Nesting.close, groups]
    rw [readAll_apply, fold_error_iff.mpr ⟨before, _, after, m, rfl, front, failing⟩]
    exact ⟨_, rfl, rfl⟩
  | @mismatched before after o d place span matching inside other =>
    obtain ⟨m, front⟩ := fold_of_matching matching
    obtain ⟨items, gs, groups⟩ := groups_of_innermost inside front
    have failing : m.take ⟨.closing d, span⟩ =
        .error { cause := .mismatched o d, span := place, second? := some span } := by
      simp only [Nesting.take, Nesting.close, groups, if_neg other]
    rw [readAll_apply, fold_error_iff.mpr ⟨before, _, after, m, rfl, front, failing⟩]
    exact ⟨_, rfl, rfl⟩
  | unclosed matching inside =>
    obtain ⟨m, read⟩ := fold_of_matching matching
    obtain ⟨items, gs, groups⟩ := groups_of_innermost inside read
    rw [readAll_apply, read]
    simp only [Nesting.finish, groups]
    exact ⟨_, rfl, rfl⟩

theorem single_ok_iff {snippet : Span} {t : Term} : single snippet ts = .ok t ↔ ts = [t] := by
  constructor
  · intro read
    rcases ts with _ | ⟨u, _ | ⟨v, ts⟩⟩
    · cases read
    · cases read
      rfl
    · cases read
  · rintro rfl
    rfl

/-- Tokens are read when their brackets match and no group is left open, and then the terms are
spelled by just these tokens. What is refused is refused for its first offending bracket, or for
its innermost open group where no bracket offends. A snippet is a term when its tokens are read as
this one. -/
theorem reading_exact (ls : List Lexeme) :
    ((∃ ts, readAll ls = .ok ts) ↔ Matching ls ∧ ∀ d place, ¬ Innermost d place ls) ∧
    (∀ ts, readAll ls = .ok ts → Term.tokensOf ts = ls.map fun l => l.token.rounded) ∧
    (∀ x, (∃ p, readAll ls = .error p ∧ p.diagnostic = x) ↔ Refused ls x) ∧
    ∀ snippet t, (readAll ls >>= single snippet) = .ok t ↔ readAll ls = .ok [t] := by
  refine ⟨⟨?_, ?_⟩, ?_, ?_, ?_⟩
  · rintro ⟨ts, read⟩
    rw [readAll_apply] at read
    cases folded : ls.foldlM Nesting.take Nesting.empty with
    | error => rw [folded] at read; cases read
    | ok n =>
      rw [folded] at read
      refine ⟨matching_of_fold folded, fun d place inside => ?_⟩
      obtain ⟨items, gs, groups⟩ := groups_of_innermost inside folded
      simp only [Nesting.finish, groups] at read
      cases read
  · rintro ⟨matching, closed⟩
    obtain ⟨n, folded⟩ := fold_of_matching matching
    rw [readAll_apply, folded]
    cases groups : n.groups with
    | nil => exact ⟨n.items.reverse, by simp only [Nesting.finish, groups]⟩
    | cons g gs => exact absurd ((open_of_fold folded).2 g gs groups) (closed _ _)
  · intro ts read
    exact tokens_of_spells (readAll_iff.mp read)
  · intro x
    constructor
    · rintro ⟨p, failed, rfl⟩
      exact refused_of_error failed
    · exact error_of_refused
  · intro snippet t
    cases readAll ls with
    | error =>
      constructor
      · intro read
        cases read
      · intro read
        cases read
    | ok ts =>
      change single snippet ts = .ok t ↔ _
      rw [single_ok_iff, Except.ok.injEq]

/-- One list in another, and the same brackets closed in the wrong order. -/
theorem reading_exact_nested :
    let token (t : Token) (i : Nat) : Lexeme := ⟨t, .point default i⟩
    let round := token (.opening .round) 0
    let square := token (.opening .square) 1
    let ls := [round, square, token (.symbol "a") 2, token (.closing .square) 3,
        token (.closing .round) 4]
    let wrong := [round, square, token (.closing .round) 2, token (.closing .square) 3]
    (∃ ts, readAll ls = .ok ts ∧ Term.tokensOf ts =
      [.opening .round, .opening .round, .symbol "a", .closing .round, .closing .round]) ∧
    Refused wrong ⟨"Mismatched opening square brackets and closing parenthesis",
      [⟨.point default 1, none⟩, ⟨.point default 2, none⟩]⟩ := by
  intro token round square ls wrong
  exact ⟨⟨_, rfl, (reading_exact ls).2.1 _ rfl⟩, ((reading_exact wrong).2.2.1 _).mp ⟨_, rfl, rfl⟩⟩

end Reader
end Dialogue
