import Dialogue.Term.Reader

/-!
Which tokens spell which terms. A symbol or a literal is one token; a list is an opening bracket,
the tokens of its items, and a closing bracket of the same kind. Reading tokens finds the terms
that they spell, and no others.
-/
namespace Dialogue
namespace Reader

inductive Spells : List Lexeme → List Term → Prop where
  | nil : Spells [] []
  | symbol {span : Span} {name : String} {ls : List Lexeme} {ts : List Term}
      (later : Spells ls ts) :
      Spells (⟨.symbol name, span⟩ :: ls) (.symbol span name :: ts)
  | literal {span : Span} {v : Value} {ls : List Lexeme} {ts : List Term} (later : Spells ls ts) :
      Spells (⟨.literal v, span⟩ :: ls) (.literal span v :: ts)
  | list {d : Delimiter} {opened closed : Span} {inner ls : List Lexeme} {items ts : List Term}
      (within : Spells inner items) (later : Spells ls ts) :
      Spells (⟨.opening d, opened⟩ :: (inner ++ ⟨.closing d, closed⟩ :: ls))
        (.list (opened.cover closed) items :: ts)

variable {ls ms : List Lexeme} {ts us : List Term} {t : Term} {n n' : Nesting}

theorem Spells.append (first : Spells ls ts) (second : Spells ms us) :
    Spells (ls ++ ms) (ts ++ us) := by
  induction first with
  | nil => exact second
  | symbol _ ih => exact .symbol ih
  | literal _ ih => exact .literal ih
  | list within _ _ ih =>
    rw [List.cons_append, List.append_assoc, List.cons_append]
    exact .list within ih

theorem Spells.split (spells : Spells ls ts) (mem : t ∈ ts) :
    ∃ front own back, ls = front ++ own ++ back ∧ Spells own [t] := by
  induction spells with
  | nil => cases mem
  | @symbol span name ls ts _ ih =>
    rcases List.mem_cons.mp mem with rfl | mem
    · exact ⟨[], [⟨.symbol name, span⟩], ls, rfl, .symbol .nil⟩
    · obtain ⟨front, own, back, rfl, spelled⟩ := ih mem
      exact ⟨⟨.symbol name, span⟩ :: front, own, back, rfl, spelled⟩
  | @literal span v ls ts _ ih =>
    rcases List.mem_cons.mp mem with rfl | mem
    · exact ⟨[], [⟨.literal v, span⟩], ls, rfl, .literal .nil⟩
    · obtain ⟨front, own, back, rfl, spelled⟩ := ih mem
      exact ⟨⟨.literal v, span⟩ :: front, own, back, rfl, spelled⟩
  | @list d opened closed inner ls items ts within _ _ ih =>
    rcases List.mem_cons.mp mem with rfl | mem
    · refine ⟨[], ⟨.opening d, opened⟩ :: (inner ++ [⟨.closing d, closed⟩]), ls, ?_, ?_⟩
      · simp
      · exact .list within .nil
    · obtain ⟨front, own, back, rfl, spelled⟩ := ih mem
      refine ⟨⟨.opening d, opened⟩ :: (inner ++ ⟨.closing d, closed⟩ :: front), own, back,
        ?_, spelled⟩
      simp

/-! What is read is spelled: between two tokens, the terms and groups so far are those of the tokens
so far. -/

/-- The tokens so far are those of the terms outside all groups and of the groups still open. -/
def Tracks (items : List Term) : List Group → List Lexeme → Prop
  | [], ls => Spells ls items.reverse
  | g :: gs, ls => ∃ before inner, ls = before ++ ⟨.opening g.delimiter, g.span⟩ :: inner ∧
      Tracks items gs before ∧ Spells inner g.items.reverse

theorem tracks_put (tracks : Tracks n.items n.groups ls) (spelled : Spells ms [t]) :
    Tracks (n.put t).items (n.put t).groups (ls ++ ms) := by
  obtain ⟨groups, items⟩ := n
  cases groups with
  | nil =>
    simp only [Nesting.put, Tracks, List.reverse_cons] at tracks ⊢
    exact tracks.append spelled
  | cons g gs =>
    obtain ⟨before, inner, rfl, outer, within⟩ := tracks
    refine ⟨before, inner ++ ms, ?_, outer, ?_⟩
    · simp
    · simp only [List.reverse_cons]
      exact within.append spelled

theorem tracks_take {l : Lexeme} (tracks : Tracks n.items n.groups ls) (taken : n.take l = .ok n') :
    Tracks n'.items n'.groups (ls ++ [l]) := by
  obtain ⟨token, span⟩ := l
  cases token with
  | opening d =>
    cases taken
    exact ⟨ls, [], rfl, tracks, .nil⟩
  | symbol name =>
    cases taken
    exact tracks_put tracks (.symbol .nil)
  | literal v =>
    cases taken
    exact tracks_put tracks (.literal .nil)
  | closing d =>
    obtain ⟨groups, items⟩ := n
    cases groups with
    | nil => simp [Nesting.take, Nesting.close] at taken
    | cons g gs =>
      obtain ⟨before, inner, rfl, outer, within⟩ := tracks
      simp only [Nesting.take, Nesting.close] at taken
      split at taken
      · rename_i matching
        cases taken
        subst d
        have spelled :
            Spells (⟨.opening g.delimiter, g.span⟩ :: (inner ++ [⟨.closing g.delimiter, span⟩]))
            [.list (g.span.cover span) g.items.reverse] := .list within .nil
        have whole := tracks_put (n := ⟨gs, items⟩) outer spelled
        simpa only [List.append_assoc, List.cons_append, List.nil_append] using whole
      · cases taken

theorem tracks_fold (tracks : Tracks n.items n.groups ls)
    (read : ms.foldlM Nesting.take n = .ok n') :
    Tracks n'.items n'.groups (ls ++ ms) := by
  induction ms generalizing n ls with
  | nil =>
    cases read
    rwa [List.append_nil]
  | cons l ms ih =>
    rw [List.foldlM_cons] at read
    cases taken : n.take l with
    | error => rw [taken] at read; cases read
    | ok next =>
      rw [taken] at read
      have later := ih (tracks_take tracks taken) read
      rwa [List.append_assoc, List.singleton_append] at later

theorem spells_of_readAll (read : readAll ls = .ok ts) : Spells ls ts := by
  unfold readAll at read
  cases folded : ls.foldlM Nesting.take Nesting.empty with
  | error => rw [folded] at read; cases read
  | ok n =>
    rw [folded] at read
    have started : Tracks Nesting.empty.items Nesting.empty.groups [] := .nil
    have tracks := tracks_fold started folded
    change n.finish = .ok ts at read
    unfold Nesting.finish at read
    split at read
    · rename_i closed
      cases read
      rw [closed] at tracks
      exact tracks
    · cases read

/-! What is spelled is read. -/

theorem putAll_groups (n : Nesting) (g : Group) (gs : List Group) (ts : List Term) :
    ts.foldl Nesting.put ⟨g :: gs, n.items⟩ =
      ⟨{ g with items := ts.reverse ++ g.items } :: gs, n.items⟩ := by
  induction ts generalizing g with
  | nil => rfl
  | cons t ts ih =>
    rw [List.foldl_cons, Nesting.put, ih]
    simp

theorem putAll_outside (items ts : List Term) :
    ts.foldl Nesting.put ⟨[], items⟩ = ⟨[], ts.reverse ++ items⟩ := by
  induction ts generalizing items with
  | nil => rfl
  | cons t ts ih =>
    rw [List.foldl_cons, Nesting.put, ih]
    simp

theorem fold_of_spells (spells : Spells ls ts) (n : Nesting) :
    ls.foldlM Nesting.take n = .ok (ts.foldl Nesting.put n) := by
  induction spells generalizing n with
  | nil => rfl
  | symbol _ ih | literal _ ih =>
    rw [List.foldlM_cons, List.foldl_cons, ← ih]
    rfl
  | @list d opened closed inner ls items ts _ _ ihInner ih =>
    have entered : n.take ⟨.opening d, opened⟩ = .ok ⟨⟨d, opened, []⟩ :: n.groups, n.items⟩ := rfl
    have filled := putAll_groups n ⟨d, opened, []⟩ n.groups items
    have left : Nesting.take ⟨⟨d, opened, items.reverse ++ []⟩ :: n.groups, n.items⟩
        ⟨.closing d, closed⟩ = .ok (n.put (.list (opened.cover closed) items)) := by
      simp [Nesting.take, Nesting.close]
    rw [List.foldlM_cons, entered]
    change (inner ++ ⟨.closing d, closed⟩ :: ls).foldlM Nesting.take _ = _
    rw [List.foldlM_append, ihInner, filled]
    change (⟨.closing d, closed⟩ :: ls).foldlM Nesting.take _ = _
    rw [List.foldlM_cons, left]
    exact ih _

/-- Reading finds the terms that the tokens spell. -/
theorem readAll_iff : readAll ls = .ok ts ↔ Spells ls ts := by
  constructor
  · exact spells_of_readAll
  · intro spells
    unfold readAll
    rw [fold_of_spells spells, Nesting.empty, putAll_outside]
    change Nesting.finish ⟨[], ts.reverse ++ []⟩ = .ok ts
    simp [Nesting.finish]

end Reader
end Dialogue
