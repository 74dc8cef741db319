import Dialogue.Proofs.Term.Tokens

/-!
Cutting a text at the end of a token. A token is read from its own characters; what follows only
has to end it. So the tokens before the cut and their places are the same as without it.
-/
namespace Dialogue.Lexer
open Text (byteLength)

variable {cs text rest value a b r y own here : List Char} {c : Char} {token : Token}
variable {source : Source} {stop : Nat} {ls front back : List Lexeme} {l : Lexeme}

theorem Ends.left (ends : Ends (a ++ r)) : Ends a := by
  cases a with
  | nil => exact ends_nil
  | cons c a => exact ends

theorem Literal.frame (body : Literal cs value rest) :
    ∃ own, cs = own ++ rest ∧ ∀ r, Literal (own ++ r) value r := by
  induction body with
  | close rest => exact ⟨['"'], rfl, fun r => .close r⟩
  | @escaped e c _ _ _ known _ ih =>
    obtain ⟨own, rfl, framed⟩ := ih
    exact ⟨'\\' :: e :: own, rfl, fun r => .escaped known (framed r)⟩
  | @plain c _ _ _ quote backslash _ ih =>
    obtain ⟨own, rfl, framed⟩ := ih
    exact ⟨c :: own, rfl, fun r => .plain quote backslash (framed r)⟩

/-- A token is read from its own characters, before anything that ends it as well. -/
theorem Scans.frame (scans : Scans text token rest) : ∃ c own, text = c :: own ++ rest ∧
    isSeparator c = false ∧ ∀ r, (Ends rest → Ends r) → Scans (c :: own ++ r) token r := by
  cases scans with
  | opening d =>
    refine ⟨d.opener, [], rfl, ?_, fun r _ => .opening d r⟩
    cases d <;> decide
  | closing d =>
    refine ⟨d.closer, [], rfl, ?_, fun r _ => .closing d r⟩
    cases d <;> decide
  | string body =>
    obtain ⟨own, rfl, framed⟩ := body.frame
    exact ⟨'"', own, rfl, by decide, fun r _ => .string (framed r)⟩
  | @run c more _ _ chars ends reads =>
    have start := not_isSeparator_of_isSymbolChar (chars c List.mem_cons_self)
    exact ⟨c, more, rfl, start, fun r kept => .run chars (kept ends) reads⟩

theorem skip_suffix (b : Bool) (cs : List Char) : ∃ gap, cs = gap ++ skip b cs := by
  induction cs generalizing b with
  | nil => exact ⟨[], rfl⟩
  | cons c cs ih =>
    rw [skip]
    split
    · obtain ⟨gap, split⟩ := ih (c != '\n')
      exact ⟨c :: gap, congrArg (c :: ·) split⟩
    · split
      · obtain ⟨gap, split⟩ := ih false
        exact ⟨c :: gap, congrArg (c :: ·) split⟩
      · split
        · obtain ⟨gap, split⟩ := ih true
          exact ⟨c :: gap, congrArg (c :: ·) split⟩
        · exact ⟨[], rfl⟩

theorem skip_cut {b : Bool} (found : skip b (a ++ r) = c :: y ++ r) : skip b a = c :: y := by
  induction a generalizing b with
  | nil =>
    have short := skip_length_le b r
    rw [List.nil_append] at found
    rw [found] at short
    simp only [List.length_append, List.length_cons] at short
    omega
  | cons d a ih =>
    rw [List.cons_append, skip] at found
    rw [skip]
    split at found
    · rename_i comment
      rw [if_pos comment]
      exact ih found
    · rename_i comment
      rw [if_neg comment]
      split at found
      · rename_i blank
        rw [if_pos blank]
        exact ih found
      · rename_i blank
        rw [if_neg blank]
        split at found
        · rename_i semicolon
          rw [if_pos semicolon]
          exact ih found
        · rename_i semicolon
          rw [if_neg semicolon]
          exact List.append_cancel_right found

theorem Lexes.congr (same : skip false a = skip false b) (lexes : Lexes source stop a ls) :
    Lexes source stop b ls := by
  cases lexes with
  | nil blank => exact .nil (same ▸ blank)
  | cons front scans later => exact .cons (same ▸ front) scans later

theorem between_cut (source : Source) (stop : Nat) (a b r : List Char) :
    between source (stop - byteLength r) a b = between source stop (a ++ r) (b ++ r) := by
  simp only [between, Text.byteLength_append, Span.mk.injEq, true_and]
  omega

theorem byteLength_skip (b : Bool) (cs : List Char) : byteLength (skip b cs) ≤ byteLength cs := by
  obtain ⟨gap, split⟩ := skip_suffix b cs
  have length := congrArg byteLength split
  rw [Text.byteLength_append] at length
  omega

/-- The tokens up to some place are those of the text that is cut there, each where it was; the cut
text ends where the last of them does. -/
theorem Lexes.cut (lexes : Lexes source stop cs (l :: front ++ back))
    (room : byteLength cs ≤ stop) :
    ∃ c own rest, skip false cs = c :: own ++ rest ∧ isSeparator c = false ∧
      Lexes source (stop - byteLength rest) (c :: own) (l :: front) ∧
      ∃ last, (l :: front).getLast? = some last ∧ last.span.stop = stop - byteLength rest := by
  have inside := byteLength_skip false cs
  induction front generalizing cs l with
  | nil =>
    cases lexes with
    | @cons _ _ rest token _ found scans _ =>
      obtain ⟨c, own, rfl, start, framed⟩ := scans.frame
      have whole := framed [] fun _ => ends_nil
      have place := between_cut source stop (c :: own) [] rest
      rw [List.append_nil] at whole
      rw [List.nil_append] at place
      refine ⟨c, own, rest, found, start, ?_, ⟨token, between source stop (c :: own ++ rest) rest⟩,
        rfl, ?_⟩
      · rw [← place]
        exact .cons (skip_of_start start) whole (.nil rfl)
      · rw [found] at inside
        simp only [between, Span.stop, Text.byteLength_append] at inside ⊢
        omega
  | cons next front ih =>
    cases lexes with
    | @cons _ _ rest token _ found scans later =>
      obtain ⟨c, own, rfl, start, framed⟩ := scans.frame
      rw [found] at inside
      simp only [Text.byteLength_append] at inside
      obtain ⟨d, inner, tail, found', start', lexed, ending⟩ :=
        ih later (by omega) (byteLength_skip false rest)
      obtain ⟨gap, split⟩ := skip_suffix false rest
      rw [found'] at split
      have whole := framed (gap ++ d :: inner) fun ends => by
        rw [split, ← List.append_assoc] at ends
        exact ends.left
      have reached : skip false (gap ++ d :: inner) = d :: inner := by
        rw [split, ← List.append_assoc] at found'
        exact skip_cut found'
      refine ⟨c, own ++ (gap ++ d :: inner), tail, ?_, start, ?_, ?_⟩
      · rw [found, split]
        simp
      · have place :=
          between_cut source stop (c :: own ++ (gap ++ d :: inner)) (gap ++ d :: inner) tail
        rw [List.append_assoc, List.append_assoc gap, ← split] at place
        rw [← place]
        refine .cons (skip_of_start start) whole (lexed.congr ?_)
        rw [reached, skip_of_start start']
      · exact ending

theorem Lexes.behind (lexes : Lexes source stop cs (front ++ back)) :
    ∃ gap rest, cs = gap ++ rest ∧ Lexes source stop rest back := by
  induction front generalizing cs with
  | nil => exact ⟨[], cs, rfl, lexes⟩
  | cons l front ih =>
    cases lexes with
    | @cons _ _ rest _ _ found scans later =>
      obtain ⟨blanks, reached⟩ := skip_suffix false cs
      obtain ⟨c, own, rfl, _, _⟩ := scans.frame
      obtain ⟨gap, tail, split, lexed⟩ := ih later
      refine ⟨blanks ++ (c :: own) ++ gap, tail, ?_, lexed⟩
      rw [reached, found, split]
      simp

theorem Lexes.inside (lexes : Lexes source stop cs ls) (room : byteLength cs ≤ stop) :
    ∀ l ∈ ls, l.span.source = source ∧ stop - byteLength cs ≤ l.span.start ∧
      l.span.stop ≤ stop := by
  induction lexes with
  | nil => simp
  | @cons cs here rest token ls found scans later ih =>
    have length := byteLength_skip false cs
    obtain ⟨c, own, rfl, _, _⟩ := scans.frame
    rw [found] at length
    simp only [Text.byteLength_append] at length
    intro l mem
    rcases List.mem_cons.mp mem with rfl | mem
    · simp only [between, Span.stop, Text.byteLength_append, true_and]
      omega
    · have tail := ih (by omega) l mem
      refine ⟨tail.1, ?_, tail.2.2⟩
      omega

end Dialogue.Lexer
