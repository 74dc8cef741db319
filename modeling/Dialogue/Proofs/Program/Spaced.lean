import Dialogue.Proofs.Decimal.Exporting

/-!
Values laid out with blanks. Whatever blanks are put before parts and after names, the text of a
value spells its tokens, texts are read back from their escaped form and finite numbers from
theirs.
-/
namespace Dialogue.Export

/-! Escaped texts. -/

def hexValue (c : Char) : Nat :=
  if c.isDigit then c.toNat - 48 else c.toNat - 87

def unescape : List Char → Option (Char × List Char)
  | [] => none
  | '\\' :: 'b' :: rest => some ('\x08', rest)
  | '\\' :: 'f' :: rest => some ('\x0c', rest)
  | '\\' :: 'n' :: rest => some ('\n', rest)
  | '\\' :: 'r' :: rest => some ('\r', rest)
  | '\\' :: 't' :: rest => some ('\t', rest)
  | '\\' :: 'u' :: '0' :: '0' :: high :: low :: rest =>
    some (Char.ofNat (16 * hexValue high + hexValue low), rest)
  | '\\' :: c :: rest => some (c, rest)
  | c :: rest => some (c, rest)

theorem escape_of_ordinary {c : Char} (quote : c ≠ '"') (backslash : c ≠ '\\')
    (control : 32 ≤ c.toNat) : escape c = [c] := by
  have other (d : Char) (below : d.toNat < 32) : c ≠ d := by
    rintro rfl
    omega
  unfold escape
  rw [if_neg quote, if_neg backslash, if_neg (other _ (by decide)), if_neg (other _ (by decide)),
    if_neg (other _ (by decide)), if_neg (other _ (by decide)), if_neg (other _ (by decide)),
    if_neg (by omega)]

/-- What holds of the escaped form of each character: one with a form of its own, or one that
stays as it is. -/
theorem escape_cases {motive : Char → List Char → Prop} (quote : motive '"' ['\\', '"'])
    (backslash : motive '\\' ['\\', '\\'])
    (control : ∀ n < 32, motive (Char.ofNat n) (escape (Char.ofNat n)))
    (ordinary : ∀ c, c ≠ '"' → c ≠ '\\' → motive c [c]) (c : Char) : motive c (escape c) := by
  by_cases isQuote : c = '"'
  · rw [isQuote]
    exact quote
  by_cases isBackslash : c = '\\'
  · rw [isBackslash]
    exact backslash
  by_cases below : c.toNat < 32
  · rw [← Char.ofNat_toNat c]
    exact control _ below
  · rw [escape_of_ordinary isQuote isBackslash (by omega)]
    exact ordinary c isQuote isBackslash

theorem unescape_escape (c : Char) (rest : List Char) :
    unescape (escape c ++ rest) = some (c, rest) := by
  induction c using escape_cases with
  | quote | backslash => rfl
  | control n below => interval_cases n <;> rfl
  | ordinary c quote backslash =>
    rw [List.singleton_append, unescape] <;> simp_all

theorem isBody_escape (c : Char) (rest : List Char) : isBody (escape c ++ rest) = isBody rest := by
  induction c using escape_cases with
  | quote | backslash => rfl
  | control n below => interval_cases n <;> rfl
  | ordinary c quote backslash =>
    rw [List.singleton_append, isBody] <;> simp_all

theorem flatMap_escape_inj {s t : List Char} (same : s.flatMap escape = t.flatMap escape) :
    s = t := by
  induction s generalizing t with
  | nil =>
    cases t with
    | nil => rfl
    | cons d t =>
      have read := congrArg unescape same
      rw [List.flatMap_cons, unescape_escape] at read
      cases read
  | cons c s ih =>
    have read := congrArg unescape same
    rw [List.flatMap_cons, unescape_escape] at read
    cases t with
    | nil => cases read
    | cons d t =>
      rw [List.flatMap_cons, unescape_escape] at read
      obtain ⟨rfl, rest⟩ := Prod.mk.inj (Option.some.inj read)
      rw [ih rest]

theorem escapeAll_inj {s t : String} (same : escapeAll s = escapeAll t) : s = t :=
  String.toList_inj.mp (flatMap_escape_inj same)

theorem isBody_escapeAll (s : String) : isBody (escapeAll s) = true := by
  unfold escapeAll
  induction s.toList with
  | nil => rfl
  | cons c cs ih => rwa [List.flatMap_cons, isBody_escape]

/-! Numbers. -/

theorem magnitude_of_finite {x : Float} (finite : x.isFinite = true) :
    Decimal.magnitude x < Decimal.infinityBits := by
  rw [← Decimal.isFinite_eq] at finite
  exact of_decide_eq_true finite

theorem textChars_inj {x y : Float} (finite : x.isFinite = true) (finite' : y.isFinite = true)
    (same : Decimal.textChars .exported x = Decimal.textChars .exported y) : x = y := by
  have read := Decimal.readFloat_exported (magnitude_of_finite finite)
  rw [same, Decimal.readFloat_exported (magnitude_of_finite finite')] at read
  exact (Option.some.inj read).symm

theorem Token.Regular.of_finite {x : Float} (finite : Decimal.isFinite x = true) :
    (Token.number (Decimal.textChars .exported x)).Regular := by
  rw [Decimal.isFinite_eq] at finite
  obtain ⟨c, cs, text, first, numeric⟩ := Decimal.numeric_exported (magnitude_of_finite finite)
  rw [text]
  exact .number first numeric

theorem Token.Regular.of_natural (n : Nat) : (Token.number (Nat.toDigits 10 n)).Regular := by
  have digits := Decimal.toDigits_isDigit n
  have numeric := Decimal.numeric_of_digits digits
  obtain ⟨c, cs, text⟩ := List.exists_cons_of_ne_nil (Nat.toDigits_ne_nil (b := 10) (n := n))
  rw [text] at digits numeric ⊢
  exact .number (.inr (digits c List.mem_cons_self)) numeric

/-! Layout. -/

@[simp] theorem Writer.spaced_escaped (s : Spacing) (t : String) :
    (spaced s).escaped t = escapeAll t := rfl

structure Spacing.Blank (s : Spacing) : Prop where
  line : ∀ depth, ∀ c ∈ s.line depth, isBlank c = true
  gap : ∀ c ∈ s.gap, isBlank c = true

theorem Spelled.mark {c : Char} {ts : List Token} {cs : List Char} (rest : Spelled ts cs)
    (known : c ∈ marks) : Spelled (.mark c :: ts) (c :: cs) :=
  .token (.mark known) nofun rest

theorem Spelled.blanks {ts : List Token} {bs cs : List Char} (rest : Spelled ts cs)
    (blanks : ∀ c ∈ bs, isBlank c = true) : Spelled ts (bs ++ cs) := by
  induction bs with
  | nil => exact rest
  | cons c bs ih =>
    rw [List.forall_mem_cons] at blanks
    exact .blank blanks.1 (ih blanks.2)

theorem Spelled.quote {ts : List Token} {cs : List Char} (rest : Spelled ts cs) (s : String) :
    Spelled (.string (escapeAll s) :: ts) (quote s ++ cs) :=
  .token (.string (isBody_escapeAll s)) nofun rest

theorem parted_cons {c : Char} (other : isNumeric c = false) (cs : List Char) :
    Parted (c :: cs) := by
  intro d first
  cases first
  exact other

theorem parted_blanks {bs cs : List Char} (blanks : ∀ c ∈ bs, isBlank c = true)
    (parted : Parted cs) :
    Parted (bs ++ cs) := by
  cases bs with
  | nil => exact parted
  | cons c bs =>
    refine parted_cons (Bool.eq_false_iff.mpr fun numeric => ?_) _
    have blank := blanks c List.mem_cons_self
    rw [not_blank_of_numeric numeric] at blank
    cases blank

theorem Items.parted_more {s : Spacing} {depth : Nat} {cs : List Char} (vs : Items)
    (parted : Parted cs) :
    Parted (vs.more s depth ++ cs) := by
  cases vs with
  | nil => exact parted
  | cons v vs => exact parted_cons rfl _

theorem Members.parted_more {s : Spacing} {depth : Nat} {cs : List Char} (ms : Members)
    (parted : Parted cs) : Parted (ms.more s depth ++ cs) := by
  cases ms with
  | nil => exact parted
  | cons name v ms => exact parted_cons rfl _

variable {s : Spacing}

mutual

theorem Json.spelled (blank : s.Blank) (v : Json) (depth : Nat) {ts : List Token} {cs : List Char}
    (rest : Spelled ts cs) (parted : Parted cs) :
    Spelled (v.finite.tokens (.spaced s) ++ ts) (v.finite.chars s depth ++ cs) := by
  match v with
  | .null => exact .token .null nofun rest
  | .boolean true | .boolean false => exact .token (.boolean _) nofun rest
  | .natural n => exact .token (.of_natural n) (fun _ _ => parted) rest
  | .number x =>
    rw [Json.finite]
    split
    · rename_i finite
      exact .token (.of_finite finite) (fun _ _ => parted) rest
    · exact .token .null nofun rest
  | .string t => exact rest.quote t
  | .array .nil => exact .mark (.mark rest (by decide)) (by decide)
  | .object .nil => exact .mark (.mark rest (by decide)) (by decide)
  | .array (.cons v vs) =>
    have close := (rest.mark (c := ']') (by decide)).blanks (blank.line depth)
    have parted' := parted_blanks (blank.line depth) (parted_cons (c := ']') rfl cs)
    have others := vs.spelled_more blank (depth + 1) close parted'
    have first := v.spelled blank (depth + 1) others (vs.finite.parted_more parted')
    have whole := (first.blanks (blank.line (depth + 1))).mark (c := '[') (by decide)
    simpa [Json.finite, Items.finite, Json.tokens, Json.chars] using whole
  | .object (.cons name v ms) =>
    have close := (rest.mark (c := '\x7d') (by decide)).blanks (blank.line depth)
    have parted' := parted_blanks (blank.line depth) (parted_cons (c := '\x7d') rfl cs)
    have others := ms.spelled_more blank (depth + 1) close parted'
    have first := v.spelled blank (depth + 1) others (ms.finite.parted_more parted')
    have named := ((first.blanks blank.gap).mark (c := ':') (by decide)).quote name
    have whole := (named.blanks (blank.line (depth + 1))).mark (c := '\x7b') (by decide)
    simpa [Json.finite, Members.finite, Json.tokens, Json.chars] using whole

theorem Items.spelled_more (blank : s.Blank) (vs : Items) (depth : Nat) {ts : List Token}
    {cs : List Char} (rest : Spelled ts cs) (parted : Parted cs) :
    Spelled (vs.finite.moreTokens (.spaced s) ++ ts) (vs.finite.more s depth ++ cs) := by
  match vs with
  | .nil => exact rest
  | .cons v vs =>
    have others := vs.spelled_more blank depth rest parted
    have first := v.spelled blank depth others (vs.finite.parted_more parted)
    have whole := (first.blanks (blank.line depth)).mark (c := ',') (by decide)
    simpa [Items.finite, Items.moreTokens, Items.more] using whole

theorem Members.spelled_more (blank : s.Blank) (ms : Members) (depth : Nat) {ts : List Token}
    {cs : List Char} (rest : Spelled ts cs) (parted : Parted cs) :
    Spelled (ms.finite.moreTokens (.spaced s) ++ ts) (ms.finite.more s depth ++ cs) := by
  match ms with
  | .nil => exact rest
  | .cons name v ms =>
    have others := ms.spelled_more blank depth rest parted
    have first := v.spelled blank depth others (ms.finite.parted_more parted)
    have named := ((first.blanks blank.gap).mark (c := ':') (by decide)).quote name
    have whole := (named.blanks (blank.line depth)).mark (c := ',') (by decide)
    simpa [Members.finite, Members.moreTokens, Members.more] using whole

end

mutual

theorem Json.finite_finite (v : Json) : v.finite.finite = v.finite := by
  match v with
  | .null | .boolean _ | .natural _ | .string _ => rfl
  | .number x =>
    rw [Json.finite]
    split
    · rename_i finite
      rw [Json.finite, if_pos finite]
    · rfl
  | .array vs => rw [Json.finite, Json.finite, vs.finite_finite]
  | .object ms => rw [Json.finite, Json.finite, ms.finite_finite]

theorem Items.finite_finite (vs : Items) : vs.finite.finite = vs.finite := by
  match vs with
  | .nil => rfl
  | .cons v vs => rw [Items.finite, Items.finite, v.finite_finite, vs.finite_finite]

theorem Members.finite_finite (ms : Members) : ms.finite.finite = ms.finite := by
  match ms with
  | .nil => rfl
  | .cons name v ms => rw [Members.finite, Members.finite, v.finite_finite, ms.finite_finite]

end

theorem Writer.spaced_standard {s : Spacing} (blank : s.Blank) : (spaced s).Standard where
  spelled v := by
    have whole := v.spelled blank 0 .nil nofun
    rw [List.append_nil, List.append_nil] at whole
    rwa [spaced, String.toList_ofList]
  texts same := escapeAll_inj same
  numbers finite finite' same := textChars_inj finite finite' same
  infinite v := by
    dsimp only [spaced]
    rw [v.finite_finite]

theorem Spacing.blank_pretty : pretty.Blank where
  line depth c mem := by
    rcases List.mem_cons.mp mem with rfl | blank
    · rfl
    · rw [List.eq_of_mem_replicate blank]
      rfl
  gap c mem := by
    rw [List.mem_singleton.mp mem]
    rfl

theorem Spacing.blank_compact : compact.Blank :=
  ⟨fun _ => nofun, nofun⟩

end Dialogue.Export
