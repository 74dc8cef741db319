import Dialogue.Proofs.Program.Spaced
import Dialogue.Terminal.Command

/-!
What an exported program tells. A text spells one list of tokens only, and the tokens of a program
can be taken apart in one way: an operand is one token, and a mark tells whether an instruction
has one and whether another instruction follows. So whatever writes them, two programs with the
same text are the same, but for numbers that are not finite, which are all written alike.
-/
namespace Dialogue.Export

/-- Instructions that count as the same: the same ones, and any two that push numbers that are not
finite. -/
inductive Alike : Instruction → Instruction → Prop where
  | same (i : Instruction) : Alike i i
  | numbers {x y : Float} (infinite : x.isFinite = false) (infinite' : y.isFinite = false) :
      Alike (.pushNumber x) (.pushNumber y)

theorem Alike.eq_of_finite {x y : Float} (alike : Alike (.pushNumber x) (.pushNumber y))
    (finite : x.isFinite = true) : x = y := by
  cases alike with
  | same => rfl
  | numbers infinite => exact absurd finite (by simp [infinite])

variable {w : Writer} {p q : Program} {i j : Instruction} {is js : List Instruction}
  {x y : List Token}

/-! Operands. -/

theorem toDigits_inj {n k : Nat} (same : Nat.toDigits 10 n = Nat.toDigits 10 k) : n = k := by
  rw [← Nat.ofDigitChars_ten_toDigits (n := n), same, Nat.ofDigitChars_ten_toDigits]

theorem finite_number {x : Float} (finite : x.isFinite = true) :
    (Json.number x).finite = .number x := by
  rw [Json.finite, Decimal.isFinite_eq, if_pos finite]

theorem finite_number_of_infinite {x : Float} (infinite : x.isFinite = false) :
    (Json.number x).finite = .null := by
  rw [Json.finite, Decimal.isFinite_eq, infinite]
  rfl

theorem number_inj (standard : w.Standard) {x y : Float}
    (same : (Json.number x).finite.tokens w = (Json.number y).finite.tokens w) :
    Alike (.pushNumber x) (.pushNumber y) := by
  cases finite : x.isFinite with
  | true =>
    rw [finite_number finite] at same
    cases finite' : y.isFinite with
    | true =>
      rw [finite_number finite'] at same
      cases standard.numbers finite finite' (Token.number.inj (List.singleton_inj.mp same))
      exact .same _
    | false =>
      rw [finite_number_of_infinite finite'] at same
      cases List.singleton_inj.mp same
  | false =>
    rw [finite_number_of_infinite finite] at same
    cases finite' : y.isFinite with
    | true =>
      rw [finite_number finite'] at same
      cases List.singleton_inj.mp same
    | false => exact .numbers finite finite'

/-- An instruction is made up of its opcode and its operand, written as its opcode says. -/
def Shape (i : Instruction) : OperandKind → Prop
  | .none => argument? i = none ∧ Instruction.ofOpcode? i.opcode = some i
  | .address => ∃ a, argument? i = some (.natural a) ∧ Instruction.ofAddress? a i.opcode = some i
  | .name => ∃ s, argument? i = some (.string s) ∧ Instruction.ofSymbol? s i.opcode = some i
  | .string => ∃ s, i = .pushString s
  | .number => ∃ x, i = .pushNumber x
  | .boolean => ∃ b, i = .pushBool b

theorem shape (i : Instruction) : Shape i i.opcode.operandKind := by
  cases i with
  | pushString s => exact ⟨s, rfl⟩
  | pushNumber x => exact ⟨x, rfl⟩
  | pushBool b => exact ⟨b, rfl⟩
  | jump a | jumpIfFalse a | pushChoice a => exact ⟨a, rfl, rfl⟩
  | loadVariable s | storeVariable s | showChoice s | enterNode s | exitNode s | call s =>
    exact ⟨s, rfl, rfl⟩
  | _ => exact ⟨rfl, rfl⟩

def argumentTokens (w : Writer) (i : Instruction) : Option (List Token) :=
  (argument? i).map fun v => v.finite.tokens w

theorem alike_of_argument (standard : w.Standard) (opcode : i.opcode = j.opcode)
    (argument : argumentTokens w i = argumentTokens w j) : Alike i j := by
  have first := shape i
  have second := shape j
  rw [← opcode] at second
  unfold argumentTokens at argument
  cases kind : i.opcode.operandKind <;> rw [kind] at first second
  case none =>
    have built := first.2
    rw [opcode, second.2] at built
    cases built
    exact .same i
  case address =>
    obtain ⟨a, written, built⟩ := first
    obtain ⟨b, written', built'⟩ := second
    rw [written, written'] at argument
    have digits := Token.number.inj (List.singleton_inj.mp (Option.some.inj argument))
    rw [toDigits_inj digits, opcode, built'] at built
    cases built
    exact .same i
  case name =>
    obtain ⟨s, written, built⟩ := first
    obtain ⟨t, written', built'⟩ := second
    rw [written, written'] at argument
    have bodies := Token.string.inj (List.singleton_inj.mp (Option.some.inj argument))
    rw [standard.texts bodies, opcode, built'] at built
    cases built
    exact .same i
  case string =>
    obtain ⟨s, rfl⟩ := first
    obtain ⟨t, rfl⟩ := second
    have bodies := Token.string.inj (List.singleton_inj.mp (Option.some.inj argument))
    rw [standard.texts bodies]
    exact .same _
  case number =>
    obtain ⟨x, rfl⟩ := first
    obtain ⟨y, rfl⟩ := second
    exact number_inj standard (Option.some.inj argument)
  case boolean =>
    obtain ⟨b, rfl⟩ := first
    obtain ⟨b', rfl⟩ := second
    rw [Token.boolean.inj (List.singleton_inj.mp (Option.some.inj argument))]
    exact .same _

theorem single_token (w : Writer) {v : Json} (written : argument? i = some v) :
    ∃ t, v.finite.tokens w = [t] := by
  cases i <;> cases written
  case pushNumber x =>
    rw [Json.finite]
    split <;> exact ⟨_, rfl⟩
  all_goals exact ⟨_, rfl⟩

/-! Instructions. -/

theorem tokens_arguments (w : Writer) (i : Instruction) : (arguments i).finite.moreTokens w =
    match argumentTokens w i with
    | none => []
    | some ts => .mark ',' :: .string (w.escaped "arg") :: .mark ':' :: ts := by
  unfold arguments argumentTokens
  cases argument? i with
  | none => rfl
  | some v => simp [Members.finite, Members.moreTokens]

theorem tokens_instruction (w : Writer) (i : Instruction) : (instruction i).finite.tokens w =
    .mark '\x7b' :: .string (w.escaped "op") :: .mark ':' :: .string (w.escaped i.opcode.name) ::
      ((arguments i).finite.moreTokens w ++ [.mark '\x7d']) := rfl

theorem arguments_inj (same : (arguments i).finite.moreTokens w ++ .mark '\x7d' :: x =
    (arguments j).finite.moreTokens w ++ .mark '\x7d' :: y) :
    argumentTokens w i = argumentTokens w j ∧ x = y := by
  rw [tokens_arguments, tokens_arguments] at same
  unfold argumentTokens at same ⊢
  cases first : argument? i with
  | none =>
    cases second : argument? j with
    | none => simpa [first, second] using same
    | some v => simp [first, second] at same
  | some v =>
    obtain ⟨t, single⟩ := single_token w first
    cases second : argument? j with
    | none => simp [first, second] at same
    | some v' =>
      obtain ⟨t', single'⟩ := single_token w second
      simpa [first, second, single, single'] using same

theorem name_inj {o o' : Opcode} (same : o.name = o'.name) : o = o' := by
  have known := Opcode.ofName?_name o
  rw [same, Opcode.ofName?_name] at known
  exact (Option.some.inj known).symm

theorem instruction_inj (standard : w.Standard)
    (same : (instruction i).finite.tokens w ++ x = (instruction j).finite.tokens w ++ y) :
    Alike i j ∧ x = y := by
  simp only [tokens_instruction, List.cons_append, List.append_assoc, List.nil_append,
    List.cons.injEq, true_and] at same
  obtain ⟨name, rest⟩ := same
  obtain ⟨argument, after⟩ := arguments_inj rest
  have opcode := name_inj (standard.texts (Token.string.inj name))
  exact ⟨alike_of_argument standard opcode argument, after⟩

theorem finite_of_alike (alike : Alike i j) : (instruction i).finite = (instruction j).finite := by
  cases alike with
  | same => rfl
  | numbers infinite infinite' =>
    have null {x : Float} (infinite : x.isFinite = false) :
        (arguments (.pushNumber x)).finite = .cons "arg" .null .nil :=
      congrArg (Members.cons "arg" · .nil) (finite_number_of_infinite infinite)
    have written (x : Float) : (instruction (.pushNumber x)).finite =
        .object (.cons "op" (.string "PushNumber") (arguments (.pushNumber x)).finite) := rfl
    rw [written, written, null infinite, null infinite']

/-! Programs. -/

theorem more_inj (standard : w.Standard)
    (same : (instructions is).finite.moreTokens w ++ .mark ']' :: x =
      (instructions js).finite.moreTokens w ++ .mark ']' :: y) :
    List.Forall₂ Alike is js := by
  induction is generalizing js with
  | nil =>
    cases js with
    | nil => exact .nil
    | cons j js => simp [instructions, Items.finite, Items.moreTokens] at same
  | cons i is ih =>
    cases js with
    | nil => simp [instructions, Items.finite, Items.moreTokens] at same
    | cons j js =>
      simp only [instructions, Items.finite, Items.moreTokens, List.cons_append, List.append_assoc,
        List.cons.injEq, true_and] at same
      obtain ⟨alike, rest⟩ := instruction_inj standard same
      exact .cons alike (ih rest)

theorem instructions_inj (standard : w.Standard)
    (same : (Json.array (instructions is)).finite.tokens w ++ x =
      (Json.array (instructions js)).finite.tokens w ++ y) :
    List.Forall₂ Alike is js := by
  cases is with
  | nil =>
    cases js with
    | nil => exact .nil
    | cons j js =>
      simp [instructions, Json.finite, Items.finite, Json.tokens, tokens_instruction] at same
  | cons i is =>
    cases js with
    | nil => simp [instructions, Json.finite, Items.finite, Json.tokens, tokens_instruction] at same
    | cons j js =>
      simp only [instructions, Json.finite, Items.finite, Json.tokens, List.cons_append,
        List.append_assoc, List.cons.injEq, true_and] at same
      obtain ⟨alike, rest⟩ := instruction_inj standard same
      exact .cons alike (more_inj standard rest)

theorem instructions_of_alike (alike : List.Forall₂ Alike is js) :
    (instructions is).finite = (instructions js).finite := by
  induction alike with
  | nil => rfl
  | cons first _ ih =>
    rw [instructions, instructions, Items.finite, Items.finite, finite_of_alike first, ih]

theorem tokens_value (w : Writer) (p : Program) : (value p).finite.tokens w =
    .mark '\x7b' :: .string (w.escaped "start") :: .mark ':' :: .number (Nat.toDigits 10 p.start) ::
      .mark ',' :: .string (w.escaped "code") :: .mark ':' ::
        ((Json.array (instructions p.code)).finite.tokens w ++ [.mark '\x7d']) := by
  simp [value, Json.finite, Members.finite, Json.tokens, Members.moreTokens]

theorem tokens_of_text (standard : w.Standard) {v v' : Json} (same : w.text v = w.text v') :
    v.finite.tokens w = v'.finite.tokens w := by
  have spelled := standard.spelled v
  rw [same] at spelled
  exact spelled.unique (standard.spelled v')

theorem program_same_iff (standard : w.Standard) :
    program p w = program q w ↔ p.start = q.start ∧ List.Forall₂ Alike p.code q.code := by
  constructor
  · intro same
    have tokens := tokens_of_text standard same
    simp only [tokens_value, List.cons.injEq, true_and] at tokens
    obtain ⟨start, code⟩ := tokens
    exact ⟨toDigits_inj (Token.number.inj start), instructions_inj standard code⟩
  · rintro ⟨start, alike⟩
    have values : (value p).finite = (value q).finite := by
      simp only [value, Json.finite, Members.finite, start, instructions_of_alike alike]
    rw [program, program, standard.infinite, values, ← standard.infinite]

/-- Single instructions can be told apart to the same degree. -/
theorem compact_same_iff : compact i = compact j ↔ Alike i j := by
  have standard : Writer.compact.Standard := Writer.spaced_standard Spacing.blank_compact
  constructor
  · intro same
    exact (instruction_inj standard (x := []) (y := []) (by rw [tokens_of_text standard same])).1
  · intro alike
    rw [compact, compact, standard.infinite, finite_of_alike alike, ← standard.infinite]

/-- Whatever standard writer is used, two programs are shown as the same text just when they start
at the same address and have the same instructions, numbers that are not finite being told apart
by nothing. -/
theorem emitted_same_iff (standard : w.Standard) (styling styling' : Terminal.Styling)
    (path path' : String) (p q : Program) :
    (Terminal.Mode.emit.shown styling w path p).out =
      (Terminal.Mode.emit.shown styling' w path' q).out ↔
      p.start = q.start ∧ List.Forall₂ Alike p.code q.code := by
  have shown (styling : Terminal.Styling) (path : String) (p : Program) :
      (Terminal.Mode.emit.shown styling w path p).out = program p w ++ "\n" :=
    String.empty_append
  rw [shown, shown, String.append_left_inj, program_same_iff standard]

/-- Infinity and what is no number are written alike; zero and negative zero are two numbers. -/
theorem emitted_same_iff_pretty :
    let shown (x : Float) := (Terminal.Mode.emit.shown .off .pretty "a" ⟨0, [.pushNumber x]⟩).out
    Writer.pretty.Standard ∧ shown (1 / 0) = shown (0 / 0) ∧ shown 0 ≠ shown (-0) := by
  intro shown
  have standard : Writer.pretty.Standard := Writer.spaced_standard Spacing.blank_pretty
  have same_iff (x y : Float) := emitted_same_iff standard .off .off "a" "a"
    ⟨0, [.pushNumber x]⟩ ⟨0, [.pushNumber y]⟩
  refine ⟨standard, (same_iff _ _).mpr ⟨rfl, .cons (.numbers ?_ ?_) .nil⟩, fun same => ?_⟩
  · decide +kernel
  · decide +kernel
  · obtain ⟨alike, _⟩ := List.forall₂_cons.mp ((same_iff _ _).mp same).2
    have zeros : (0 : Float) = -0 := alike.eq_of_finite (by decide +kernel)
    revert zeros
    decide +kernel

end Dialogue.Export
