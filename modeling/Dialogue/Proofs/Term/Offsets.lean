import Dialogue.Proofs.Term.Snippets

/-!
The scan by offsets. All that a lexer has to keep is the offset it has come to: it cuts what is
left out of the source, counts the bytes of what it takes and moves on by that count. Cutting can
go wrong, when an offset lies in a character or behind the end, and a token without characters
would be met again for ever. None of this happens in a snippet that is cut between characters, and
what is found is what the scan over characters finds.
-/
namespace Dialogue
open Text (byteLength)

namespace Source

/-- The text between two places, unless one of them lies in a character or outside the text, or they
are in the wrong order. -/
def slice? (source : Source) (start stop : Nat) : Option (List Char) :=
  if start ≤ stop ∧ Text.isBoundary start source.text ∧ Text.isBoundary stop source.text then
    some (⟨source, start, stop - start⟩ : Span).contents
  else none

def Stands (source : Source) (start stop : Nat) (cs : List Char) : Prop :=
  ∃ before after, source.text = before ++ cs ++ after ∧ byteLength before = start ∧
    start + byteLength cs = stop

namespace Stands
variable {source : Source} {start stop : Nat} {cs front own rest : List Char}

theorem contents (stands : source.Stands start stop cs) :
    (⟨source, start, byteLength cs⟩ : Span).contents = cs := by
  obtain ⟨before, after, text, rfl, _⟩ := stands
  exact Span.contents_of_parts text

theorem valid (stands : source.Stands start stop cs) :
    (⟨source, start, byteLength cs⟩ : Span).Valid := by
  obtain ⟨before, after, text, rfl, _⟩ := stands
  refine ⟨⟨before, ?_, rfl⟩, ⟨before ++ cs, ?_, Text.byteLength_append before cs⟩⟩
  · exact ⟨cs ++ after, by rw [text, List.append_assoc]⟩
  · exact ⟨after, text.symm⟩

theorem stop_eq (stands : source.Stands start stop cs) : start + byteLength cs = stop := by
  obtain ⟨_, _, _, _, length⟩ := stands
  exact length

theorem part (stands : source.Stands start stop (front ++ own ++ rest)) :
    source.Stands (start + byteLength front) (start + byteLength front + byteLength own) own := by
  obtain ⟨before, after, text, rfl, _⟩ := stands
  refine ⟨before ++ front, rest ++ after, ?_, Text.byteLength_append before front, rfl⟩
  rw [text]
  simp only [List.append_assoc]

theorem first (stands : source.Stands start stop (own ++ rest)) :
    source.Stands start (start + byteLength own) own := by
  have whole : source.Stands start stop ([] ++ own ++ rest) := stands
  exact whole.part

theorem left (stands : source.Stands start stop (own ++ rest)) :
    source.Stands (start + byteLength own) stop rest := by
  have last : source.Stands start stop (own ++ rest ++ []) := by rwa [List.append_nil]
  have length := stands.stop_eq
  rw [Text.byteLength_append, ← Nat.add_assoc] at length
  exact length ▸ last.part

theorem slice (stands : source.Stands start stop cs) : source.slice? start stop = some cs := by
  have valid := stands.valid
  have contents := stands.contents
  obtain rfl := stands.stop_eq
  rw [slice?, if_pos
    ⟨Nat.le_add_right .., Text.isBoundary_iff.mpr valid.1, Text.isBoundary_iff.mpr valid.2⟩,
    Nat.add_sub_cancel_left, contents]

theorem lt_stop {c : Char} (stands : source.Stands start stop (c :: cs)) : start < stop := by
  have length := stands.stop_eq
  have := Text.byteLength_pos c cs
  omega

end Stands

theorem nonempty_of_slice {source : Source} {start stop : Nat} {c : Char} {cs : List Char}
    (slice : source.slice? start stop = some (c :: cs)) : start < stop := by
  unfold slice? at slice
  split at slice
  · rename_i cut
    rcases Nat.lt_or_eq_of_le cut.1 with less | same
    · exact less
    · simp [same, Span.contents] at slice
  · cases slice

end Source

theorem Span.Valid.stands {s : Span} (valid : s.Valid) :
    s.source.Stands s.start s.stop s.contents := by
  obtain ⟨before, after, text, start, length⟩ := valid.parts
  exact ⟨before, after, text, start, congrArg (s.start + ·) length⟩

namespace Lexer

def isGap (c : Char) : Bool :=
  Text.isBlank c || c == ','

/-- The bytes of one round of stripping: blanks and commas, and the comment behind them, if there
is one. -/
def stripped (cs : List Char) : Nat :=
  byteLength (cs.takeWhile isGap) +
    match cs.dropWhile isGap with
    | ';' :: comment => 1 + byteLength (comment.takeWhile (· ≠ '\n'))
    | _ => 0

/-- Where the next token begins, or the end of the snippet: rounds of stripping, until one moves
nothing. -/
def strip? (source : Source) (stop index : Nat) : Option Nat :=
  match _cut : source.slice? index stop with
  | none => none
  | some rest =>
    if stripped rest = 0 then some index else strip? source stop (index + stripped rest)
termination_by stop - index
decreasing_by
  cases rest with
  | nil => contradiction
  | cons c cs =>
    have := Source.nonempty_of_slice _cut
    omega

/-- The string literal whose opening quote stands at `index`, and its bytes. `length` bytes of it
have been read, for which `read` stands, reversed, and the last of them is a backslash that
escapes what follows if `escape` says so. -/
def stringAt (source : Source) (index length : Nat) (escape : Bool) (read : List Char) :
    List Char → Except Problem (Token × Nat)
  | [] => .error { cause := .unterminatedString, span := ⟨source, index, length⟩ }
  | c :: cs =>
    let bytes := c.utf8Size
    let length := length + bytes
    if escape then
      match unescape? c with
      | none =>
        .error { cause := .unknownEscape c, span :=
          ⟨source, index + length - bytes - 1, bytes + 1⟩ }
      | some d => stringAt source index length false (d :: read) cs
    else if c = '\\' then stringAt source index length true read cs
    else if c = '"' then .ok (.literal (.string (String.ofList read.reverse)), length)
    else stringAt source index length false (c :: read) cs

/-- The token at `index` and its bytes. Nothing comes of it where nothing is left. -/
def tokenAt? (source : Source) (stop index : Nat) : Option (Except Problem (Token × Nat)) :=
  match source.slice? index stop with
  | none | some [] => none
  | some (c :: cs) =>
    if c = '(' then some (.ok (.opening .round, 1))
    else if c = '[' then some (.ok (.opening .square, 1))
    else if c = ')' then some (.ok (.closing .round, 1))
    else if c = ']' then some (.ok (.closing .square, 1))
    else if c = '"' then some (stringAt source index 1 false [] cs)
    else if c = '{' ∨ c = '}' then
      some (.error { cause := .mapsUnsupported, span := .point source index })
    else
      let length := byteLength ((c :: cs).takeWhile isSymbolChar)
      (source.slice? index (index + length)).map fun run =>
        if startsNumber c cs then
          match Decimal.readFloat run with
          | some x => .ok (.literal (.number x), length)
          | none =>
            .error { cause := .invalidNumber (String.ofList run), span := ⟨source, index, length⟩ }
        else .ok (word run, length)

theorem le_of_strip {source : Source} {stop index next : Nat}
    (stripped : strip? source stop index = some next) : index ≤ next := by
  fun_induction strip? source stop index with
  | case1 => cases stripped
  | case2 => exact Nat.le_of_eq (Option.some.inj stripped)
  | case3 index rest _ _ ih => exact Nat.le_trans (Nat.le_add_right ..) (ih stripped)

/-- The tokens from `index` on. Nothing comes of it if a cut is wrong, or if a token has no
characters, at which the scan would stand still. -/
def tokensAt? (source : Source) (stop index : Nat) : Option (Except Problem (List Lexeme)) :=
  match _strip : strip? source stop index with
  | none => none
  | some here =>
    if here < stop then
      match tokenAt? source stop here with
      | none => none
      | some (.error p) => some (.error p)
      | some (.ok (token, length)) =>
        if 0 < length then
          (tokensAt? source stop (here + length)).map fun later =>
            later.map fun ls => ⟨token, ⟨source, here, length⟩⟩ :: ls
        else none
    else some (.ok [])
termination_by stop - index
decreasing_by
  have := le_of_strip _strip
  omega

section
variable {source : Source} {stop index length : Nat} {c : Char}
variable {cs rest opening front : List Char}

theorem skip_blanks (cs : List Char) : skip false cs = skip false (cs.dropWhile isGap) := by
  induction cs with
  | nil => rfl
  | cons c cs ih =>
    by_cases blank : isGap c = true
    · rw [List.dropWhile_cons_of_pos blank, ← ih, skip]
      simp only [Bool.false_eq_true, if_false]
      exact if_pos blank
    · rw [List.dropWhile_cons_of_neg blank]

theorem skip_comment (cs : List Char) : skip true cs = skip false (cs.dropWhile (· ≠ '\n')) := by
  induction cs with
  | nil => rfl
  | cons c cs ih =>
    by_cases feed : c = '\n'
    · subst feed
      rfl
    · have inside : (c != '\n') = true := bne_iff_ne.mpr feed
      rw [List.dropWhile_cons_of_pos (by simpa using feed), ← ih, skip, if_pos rfl, inside]

/-- A round of stripping leaves what is found behind the blanks as it is. If it moves nothing, no
blanks are there. -/
theorem exists_round (cs : List Char) :
    ∃ gap rest, cs = gap ++ rest ∧ byteLength gap = stripped cs ∧
    skip false cs = skip false rest ∧ (gap = [] → skip false cs = cs) := by
  have split := List.takeWhile_append_dropWhile (p := isGap) (l := cs)
  have same := skip_blanks cs
  unfold stripped
  split
  · rename_i comment semicolon
    rw [semicolon] at split same
    have feed := List.takeWhile_append_dropWhile (p := (· ≠ '\n')) (l := comment)
    refine ⟨cs.takeWhile isGap ++ ';' :: comment.takeWhile (· ≠ '\n'), comment.dropWhile (· ≠ '\n'),
      ?_, ?_, ?_, ?_⟩
    · rw [List.append_assoc, List.cons_append, feed, split]
    · rw [Text.byteLength_append]
      rfl
    · rw [same, ← skip_comment]
      rfl
    · simp
  · rename_i other
    refine ⟨cs.takeWhile isGap, cs.dropWhile isGap, split.symm, rfl, same, fun none => ?_⟩
    rw [none, List.nil_append] at split
    rw [split] at other
    cases cs with
    | nil => rfl
    | cons c cs =>
      have solid : isGap c = false := by
        cases blank : isGap c with
        | false => rfl
        | true => simp [blank] at none
      have semicolon : c ≠ ';' := fun same => other cs (congrArg (· :: cs) same)
      refine skip_of_start ?_
      unfold isGap at solid
      simp [isSeparator, solid, semicolon]

theorem strip_of_stands (stands : source.Stands index stop cs) : ∃ gap, cs = gap ++ skip false cs ∧
    strip? source stop index = some (index + byteLength gap) := by
  fun_induction strip? source stop index generalizing cs with
  | case1 index cut => cases stands.slice.symm.trans cut
  | case2 index _ cut still =>
    obtain rfl := Option.some.inj (stands.slice.symm.trans cut)
    obtain ⟨gap, rest, _, length, _, none⟩ := exists_round cs
    exact ⟨[], (none (Text.eq_nil_of_byteLength (length.trans still))).symm, rfl⟩
  | case3 index _ cut _ ih =>
    obtain rfl := Option.some.inj (stands.slice.symm.trans cut)
    obtain ⟨gap, rest, split, length, same, _⟩ := exists_round cs
    rw [← length] at ih ⊢
    obtain ⟨more, later, strip⟩ := ih (split ▸ stands).left
    refine ⟨gap ++ more, ?_, ?_⟩
    · rw [same, List.append_assoc, ← later]
      exact split
    · rw [strip, Text.byteLength_append, Nat.add_assoc]

/-- A reading over characters, told by offsets: the token and its bytes, or the mistake at its
place. -/
def told (source : Source) (stop : Nat) (opening : List Char) :
    Except Misread (Token × List Char) → Except Problem (Token × Nat)
  | .error m => .error { cause := m.cause, span := between source stop m.here m.after }
  | .ok (token, rest) => .ok (token, byteLength opening - byteLength rest)

theorem between_eq {offset : Nat} (place : stop - byteLength front = offset)
    (bytes : byteLength front - byteLength rest = length) :
    between source stop front rest = ⟨source, offset, length⟩ := by
  rw [between, place, bytes]

theorem stringAt_of_stands (front read : List Char) (stands : source.Stands index stop opening)
    (split : opening = front ++ cs) :
    stringAt source index (byteLength front) false read cs =
      told source stop opening ((scanString opening read cs).map fun (s, r) =>
        (.literal (.string s), r.1)) := by
  have stop_eq := stands.stop_eq
  have whole := congrArg byteLength split
  have none : byteLength [] = 0 := rfl
  rw [Text.byteLength_append] at whole
  induction read, cs using scanString.induct generalizing front with
  | case1 read =>
    have place : between source stop opening [] = ⟨source, index, byteLength front⟩ :=
      between_eq (by omega) (by omega)
    simp only [stringAt, scanString, Except.map, told, place]
  | case2 read cs =>
    have last : byteLength ('"' :: cs) = '"'.utf8Size + byteLength cs := rfl
    have bytes : byteLength opening - byteLength cs = byteLength front + '"'.utf8Size := by omega
    simp [stringAt, scanString, Except.map, told, bytes]
  | case3 read =>
    have last : byteLength ['\\'] = '\\'.utf8Size := rfl
    have place : between source stop opening [] =
        ⟨source, index, byteLength front + '\\'.utf8Size⟩ :=
      between_eq (by omega) (by omega)
    simp [stringAt, scanString, Except.map, told, place]
  | case4 read e cs unknown =>
    have last : byteLength ('\\' :: e :: cs) = 1 + (e.utf8Size + byteLength cs) := rfl
    have slash : '\\'.utf8Size = 1 := rfl
    have place : between source stop ('\\' :: e :: cs) cs =
        ⟨source, index + (byteLength front + '\\'.utf8Size + e.utf8Size) - e.utf8Size - 1,
          e.utf8Size + 1⟩ :=
      between_eq (by omega) (by omega)
    simp [stringAt, scanString, unknown, Except.map, told, place]
  | case5 read e cs c known ih =>
    have length : byteLength (front ++ ['\\', e]) =
        byteLength front + '\\'.utf8Size + e.utf8Size := by
      rw [Text.byteLength_append, Nat.add_assoc]
      rfl
    have next : opening = (front ++ ['\\', e]) ++ cs := by simpa using split
    have later := ih _ next (by rw [next, Text.byteLength_append])
    rw [length] at later
    simp only [stringAt, scanString, known]
    cases scanned : scanString opening (c :: read) cs <;> rw [scanned] at later <;> exact later
  | case6 read c cs quote last other ih =>
    have backslash := ne_backslash last other
    have length : byteLength (front ++ [c]) = byteLength front + c.utf8Size := by
      rw [Text.byteLength_append]
      rfl
    have next : opening = (front ++ [c]) ++ cs := by simpa using split
    have later := ih _ next (by rw [next, Text.byteLength_append])
    rw [length] at later
    simp only [stringAt, Bool.false_eq_true, if_false, if_neg backslash, if_neg quote, scanString]
    cases scanned : scanString opening (c :: read) cs <;> rw [scanned] at later <;> exact later

theorem tokenAt_of_stands (stands : source.Stands index stop (c :: cs))
    (start : isSeparator c = false) :
    tokenAt? source stop index =
      some (told source stop (c :: cs) ((scanToken c cs).map fun t => (t.token, t.rest))) := by
  have bracket (one : c.utf8Size = 1) (token : Token) :
      told source stop (c :: cs) (.ok (token, cs)) = .ok (token, 1) := by
    rw [told, byteLength, one, Nat.add_sub_cancel]
  simp only [tokenAt?, stands.slice, scanToken]
  split
  · subst c
    exact congrArg some (bracket rfl _).symm
  split
  · subst c
    exact congrArg some (bracket rfl _).symm
  split
  · subst c
    exact congrArg some (bracket rfl _).symm
  split
  · subst c
    exact congrArg some (bracket rfl _).symm
  split
  · subst c
    have literal := stringAt_of_stands ['"'] [] stands rfl
    change some (stringAt source index (byteLength ['"']) false [] cs) = _
    rw [literal]
    cases scanString ('"' :: cs) [] cs <;> rfl
  split
  · have place : between source stop (c :: cs) (c :: cs) = .point source index := by
      have := stands.stop_eq
      exact between_eq (by omega) (Nat.sub_self _)
    simp only [Except.map, told, place]
  rename_i round square round' square' quote braces
  have front := isSymbolChar_of_start start ⟨round, square, round', square'⟩ quote braces
  -- The run takes up as many bytes as are cut out for it.
  have run : c :: cs = (c :: cs.takeWhile isSymbolChar) ++ cs.dropWhile isSymbolChar := by
    rw [List.cons_append, List.takeWhile_append_dropWhile]
  have length : byteLength (c :: cs) - byteLength (cs.dropWhile isSymbolChar) =
      byteLength (c :: cs.takeWhile isSymbolChar) := by
    rw [run, Text.byteLength_append, Nat.add_sub_cancel]
  have place : between source stop (c :: cs) (cs.dropWhile isSymbolChar) =
      ⟨source, index, byteLength (c :: cs.takeWhile isSymbolChar)⟩ := by
    have := stands.stop_eq
    exact between_eq (by omega) length
  have slice := (run ▸ stands).first.slice
  rw [List.takeWhile_cons_of_pos front, slice]
  simp only [Option.map_some, Option.some.injEq]
  split
  · cases Decimal.readFloat (c :: cs.takeWhile isSymbolChar) with
    | some x => simp only [Except.map, told, length]
    | none => simp only [Except.map, told, place]
  · simp only [Except.map, told, length]

theorem tokensAt_of_strip {here : Nat} (strip : strip? source stop index = some here) :
    tokensAt? source stop index =
      if here < stop then
        match tokenAt? source stop here with
        | none => none
        | some (.error p) => some (.error p)
        | some (.ok (token, length)) =>
          if 0 < length then
            (tokensAt? source stop (here + length)).map fun later =>
              later.map fun ls => ⟨token, ⟨source, here, length⟩⟩ :: ls
          else none
      else some (.ok []) := by
  rw [tokensAt?]
  split
  · rename_i none
    cases strip.symm.trans none
  · rename_i found
    cases strip.symm.trans found
    rfl

/-- The scan by offsets ends, takes no cut amiss, and finds what the scan over characters does. -/
theorem tokensAt_of_stands (stands : source.Stands index stop cs) :
    tokensAt? source stop index = some (lexFrom source stop cs) := by
  obtain ⟨gap, split, strip⟩ := strip_of_stands stands
  rw [tokensAt_of_strip strip]
  induction cs using lexFrom.induct generalizing index gap with
  | case1 cs blank =>
    rw [blank] at split
    have last := (split ▸ stands).left.stop_eq
    rw [lexFrom_blank blank]
    exact if_neg (Nat.not_lt_of_le (Nat.le_of_eq last.symm))
  | case2 cs c more front m misread =>
    rw [front] at split
    have here := (split ▸ stands).left
    rw [if_pos here.lt_stop, tokenAt_of_stands here (start_of_skip front), misread,
      lexFrom_misread front misread]
    rfl
  | case3 cs c more front t scanned ih =>
    rw [front] at split
    have here := (split ▸ stands).left
    obtain ⟨d, own, whole, _⟩ := (scans_of_scanToken (start_of_skip front) scanned).frame
    have later := (whole ▸ here).left
    have sizes := congrArg byteLength whole
    rw [Text.byteLength_append] at sizes
    have bytes : byteLength (c :: more) - byteLength t.rest = byteLength (d :: own) := by omega
    have place : stop - byteLength (c :: more) = index + byteLength gap := by
      have := here.stop_eq
      omega
    obtain ⟨blanks, rest, strip'⟩ := strip_of_stands later
    rw [if_pos here.lt_stop, tokenAt_of_stands here (start_of_skip front), scanned,
      lexFrom_token front scanned]
    simp only [Except.map, told, bytes]
    rw [if_pos (Text.byteLength_pos d own), tokensAt_of_strip strip', ih later blanks rest strip',
      between_eq place bytes]
    rfl

def lexByOffsets? (s : Span) : Option (Except Problem (List Lexeme)) :=
  tokensAt? s.source s.stop s.start

theorem lexByOffsets_eq {s : Span} (valid : s.Valid) : lexByOffsets? s = some (lex s) :=
  tokensAt_of_stands valid.stands

end
end Lexer
end Dialogue
