import Dialogue.Proofs.Code.Plan
import Dialogue.Proofs.Decimal.Whole

/-!
Instructions taken apart and put together again. An instruction is built from an opcode and just
those operands that are of the kind the opcode is written with, and keeps both. An address goes
through a number on the way; the numbers an address can be given by are the natural ones among the
doubles.
-/
namespace Dialogue

/-- Operands of this kind. An address is a number that is at least zero and has no fractional
part. -/
def OperandKind.Admits : OperandKind → Option Value → Prop
  | .none, operand => operand = Option.none
  | .address, operand => ∃ x r, operand = some (.number x) ∧ Decimal.value? x = some r ∧ 0 ≤ r ∧
      Int.fract r = 0
  | .name, operand => ∃ name, operand = some (.symbol name)
  | .string, operand => ∃ s, operand = some (.string s)
  | .number, operand => ∃ x, operand = some (.number x)
  | .boolean, operand => ∃ b, operand = some (.boolean b)

theorem OperandKind.admits_iff (k : OperandKind) (operand : Option Value) : k.Admits operand ↔
    match operand with
    | Option.none => k = .none
    | some (.string _) => k = .string
    | some (.boolean _) => k = .boolean
    | some (.number x) => k = .number ∨ k = .address ∧ (Decimal.natural? x).isSome = true
    | some (.symbol _) => k = .name
    | some .nil => False := by
  rcases operand with _ | v
  · cases k <;> simp [Admits]
  · cases v <;> cases k <;> simp [Admits, Decimal.isSome_natural?_iff]

namespace Instruction
variable {i : Instruction} {o : Opcode} {operand : Option Value} {a : Nat} {name : String}

/-! What the three tables hold. -/

theorem of_ofOpcode? (built : ofOpcode? o = some i) : i.opcode = o ∧ i.operand? = none := by
  cases o <;> cases built <;> exact ⟨rfl, rfl⟩

theorem of_ofAddress? (built : ofAddress? a o = some i) :
    i.opcode = o ∧ o.operandKind = .address := by
  cases o <;> cases built <;> exact ⟨rfl, rfl⟩

theorem of_ofSymbol? (built : ofSymbol? name o = some i) :
    i.opcode = o ∧ i.operand? = some (.symbol name) := by
  cases o <;> cases built <;> exact ⟨rfl, rfl⟩

theorem isSome_ofOpcode?_iff : (ofOpcode? o).isSome = true ↔ o.operandKind = .none := by
  cases o <;> decide

theorem isSome_ofAddress?_iff : (ofAddress? a o).isSome = true ↔ o.operandKind = .address := by
  cases o <;> simp [ofAddress?, Opcode.operandKind]

theorem isSome_ofSymbol?_iff : (ofSymbol? name o).isSome = true ↔ o.operandKind = .name := by
  cases o <;> simp [ofSymbol?, Opcode.operandKind]

theorem eq_pushString (kind : o.operandKind = .string) : o = .pushString := by
  cases o <;> cases kind
  rfl

theorem eq_pushNumber (kind : o.operandKind = .number) : o = .pushNumber := by
  cases o <;> cases kind
  rfl

theorem eq_pushBool (kind : o.operandKind = .boolean) : o = .pushBool := by
  cases o <;> cases kind
  rfl

/-! Building. -/

theorem isSome_build?_iff : (build? o operand).isSome = true ↔ o.operandKind.Admits operand := by
  rw [OperandKind.admits_iff]
  rcases operand with _ | b | x | s | _ | name
  · exact isSome_ofOpcode?_iff
  · simp [build?]
  · by_cases number : o.operandKind = .number
    · simp [build?, number]
    · rw [build?, if_neg number]
      cases natural : Decimal.natural? x with
      | none => simp [number, natural]
      | some n => simp [number, natural, isSome_ofAddress?_iff]
  · simp [build?]
  · simp [build?]
  · exact isSome_ofSymbol?_iff

theorem of_build? (built : build? o operand = some i) :
    i.opcode = o ∧ (o.operandKind ≠ .address → i.operand? = operand) := by
  rcases operand with _ | b | x | s | _ | name <;> rw [build?] at built
  · obtain ⟨opcode, none⟩ := of_ofOpcode? built
    exact ⟨opcode, fun _ => none⟩
  · obtain ⟨kind, same⟩ := Option.ite_none_right_eq_some.mp built
    cases same
    cases eq_pushBool kind
    exact ⟨rfl, fun _ => rfl⟩
  · split at built
    · rename_i kind
      cases built
      cases eq_pushNumber kind
      exact ⟨rfl, fun _ => rfl⟩
    · obtain ⟨n, _, address⟩ := Option.bind_eq_some_iff.mp built
      obtain ⟨opcode, kind⟩ := of_ofAddress? address
      exact ⟨opcode, fun other => absurd kind other⟩
  · obtain ⟨kind, same⟩ := Option.ite_none_right_eq_some.mp built
    cases same
    cases eq_pushString kind
    exact ⟨rfl, fun _ => rfl⟩
  · cases built
  · obtain ⟨opcode, symbol⟩ := of_ofSymbol? built
    exact ⟨opcode, fun _ => symbol⟩

theorem build?_of_address (points : i.address? = some a) (small : a ≤ 2 ^ 53) :
    build? i.opcode i.operand? = some i := by
  have natural := Decimal.natural?_floatOfNat small
  have least : min a maxAddress = a := Nat.min_eq_left (small.trans (by decide))
  cases i <;> cases points <;>
    simp [opcode, operand?, build?, Opcode.operandKind, natural, least, ofAddress?]

/-- Any instruction, its address at most `2 ^ 53` if it has one, is built again from its opcode
and operand. Building succeeds just for operands of the kind that the opcode takes, and what is
built has that opcode and, if it has no address, that operand. -/
theorem rebuilt_exactly :
    (∀ i : Instruction, (∀ a, i.address? = some a → a ≤ 2 ^ 53) →
      build? i.opcode i.operand? = some i) ∧
    ∀ (o : Opcode) (operand : Option Value),
      ((build? o operand).isSome = true ↔ o.operandKind.Admits operand) ∧
      ∀ i, build? o operand = some i → i.opcode = o ∧
      (o.operandKind ≠ .address → i.operand? = operand) := by
  refine ⟨?_, fun o operand => ⟨isSome_build?_iff, fun i built => of_build? built⟩⟩
  intro i small
  cases points : i.address? with
  | none => exact build?_operand? points
  | some a => exact build?_of_address points (small a points)

/-- The greatest such address, and an address that is given by half a number. -/
theorem rebuilt_exactly_greatest :
    (∀ a, (jump (2 ^ 53)).address? = some a → a ≤ 2 ^ 53) ∧
      build? (jump (2 ^ 53)).opcode (jump (2 ^ 53)).operand? = some (jump (2 ^ 53)) ∧
      (build? .jump (some (.number 0.5))).isSome = false ∧
      ∃ i, build? .loadVariable (some (.symbol "x")) = some i ∧ i.opcode = .loadVariable ∧
        i.operand? = some (.symbol "x") := by
  have small : ∀ a, (jump (2 ^ 53)).address? = some a → a ≤ 2 ^ 53 := fun a points =>
    (Option.some.inj points).ge
  obtain ⟨rebuilt, exactly⟩ := rebuilt_exactly
  have built : build? .loadVariable (some (.symbol "x")) = some (loadVariable "x") := rfl
  obtain ⟨opcode, operand⟩ := (exactly _ _).2 _ built
  exact ⟨small, rebuilt _ small, by decide +kernel, _, built, opcode, operand (by decide)⟩

end Instruction
end Dialogue
