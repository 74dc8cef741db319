import Dialogue.Proofs.Code.Naming
import Dialogue.Proofs.Decimal.Printing
import Dialogue.Proofs.Source.Lines
import Dialogue.Proofs.Term.Literals

/-!
Listings line by line. An instruction has a line to itself unless it names something whose name is
not on one line: texts are quoted, numbers have no line feed, and names are written as they are.
-/
namespace Dialogue

theorem Decimal.newline_not_mem_textChars (x : Float) : '\n' ∉ textChars .plain x := by
  unfold textChars
  dsimp only
  split
  · decide
  · rename_i number
    have magnitude : '\n' ∉ magnitudeText .plain (x.toBits.toNat % signBit) := by
      rcases Nat.lt_or_eq_of_le (Nat.le_of_not_lt number) with finite | infinite
      · intro mem
        rcases (readDecimal_magnitudeText finite).1.2 _ mem with digit | point
        · cases digit
        · cases point
      · rw [infinite]
        decide
    split <;> simp [magnitude]

namespace Text

theorem newline_not_mem_toDigits (n : Nat) : '\n' ∉ Nat.toDigits 16 n := by
  have digit : ∀ d < 16, Nat.digitChar d ≠ '\n' := by decide
  induction n using Nat.strongRecOn with
  | ind n ih =>
    rw [Nat.toDigits_eq_if (by decide)]
    split
    · rename_i small
      rw [List.mem_singleton]
      exact (digit n small).symm
    · rename_i great
      rw [List.mem_append, List.mem_singleton, not_or]
      exact ⟨ih (n / 16) (by omega), (digit _ (Nat.mod_lt n (by decide))).symm⟩

theorem newline_not_mem_escape (c : Char) : '\n' ∉ escape c := by
  rcases Lexer.escape_cases c with number | ⟨e, escaped, known⟩ | ⟨same, _, _⟩
  · rw [show escape c = escapeByNumber c from number]
    simp [escapeByNumber, newline_not_mem_toDigits]
  · rw [escaped]
    intro mem
    obtain rfl : e = '\n' := by simpa [eq_comm] using mem
    cases known
  · rw [same, List.mem_singleton]
    rintro rfl
    exact absurd same (by decide)

theorem newline_not_mem_quote (s : String) : '\n' ∉ (quote s).toList := by
  rw [quote, String.toList_ofList]
  simp [quoteChars, newline_not_mem_escape]

end Text

namespace Program

def argument (i : Instruction) : List Char :=
  match i.operand? with
  | none => "--".toList
  | some v => v.literalText.toList

def row (start address : Nat) (i : Instruction) : List Char :=
  (if address = start then '>' else ' ') ::
    ((addressText address).toList ++ '\t' :: (i.opcode.name.toList ++ '\t' :: argument i))

def headings : List (List Char) :=
  ["Addr.\tInst.\tArg?".toList, "---".toList]

def rows (p : Program) : List (List Char) :=
  headings ++ p.code.mapIdx (row p.start)

/-- The lines of the listing are its headings and one line for each instruction, each ended by a
line feed. -/
def OnePerLine (p : Program) : Prop :=
  Source.splitLines p.listing.toList = p.rows ++ [[]]

variable {p : Program} {i : Instruction} {start address : Nat} {is : List Instruction}

theorem toList_listingLine :
    (listingLine start address i).toList = row start address i ++ ['\n'] := by
  have text : ∀ s : String, toString s = s := fun _ => rfl
  unfold listingLine row argument
  cases i.operand? <;> split <;> simp [text]

theorem toList_listingLines : (listingLines start address is).flatMap String.toList =
    (is.mapIdx fun k => row start (address + k)).flatMap (· ++ ['\n']) := by
  induction is generalizing address with
  | nil => rfl
  | cons i is ih =>
    have later : (fun k => row start (address + (k + 1))) =
        fun k => row start (address + 1 + k) := by
      funext k
      rw [Nat.add_right_comm, Nat.add_assoc]
    rw [listingLines, List.flatMap_cons, toList_listingLine, ih, List.mapIdx_cons,
      List.flatMap_cons, later]
    rfl

theorem toList_listing (p : Program) : p.listing.toList = p.rows.flatMap (· ++ ['\n']) := by
  have first : "Addr.\tInst.\tArg?\n---\n".toList = headings.flatMap (· ++ ['\n']) := by
    rfl
  have counted : (fun k => row p.start (0 + k)) = row p.start := by
    funext k
    rw [Nat.zero_add]
  unfold listing
  rw [String.toList_append, String.toList_join, toList_listingLines, counted, first, rows,
    List.flatMap_append]

theorem newline_not_mem_literalText {v : Value} (other : v.kind ≠ .symbol) :
    '\n' ∉ v.literalText.toList := by
  cases v with
  | boolean b => cases b <;> decide
  | number x =>
    change '\n' ∉ (String.ofList (Decimal.textChars .plain x)).toList
    rw [String.toList_ofList]
    exact Decimal.newline_not_mem_textChars x
  | string s => exact Text.newline_not_mem_quote s
  | nil => decide
  | symbol name => exact absurd rfl other

theorem newline_not_mem_toString (n : Nat) : '\n' ∉ (toString n).toList := by
  rw [Nat.toString_eq_repr, Nat.toList_repr]
  intro mem
  cases Nat.isDigit_of_mem_toDigits (by decide) (by decide) mem

theorem newline_not_mem_addressText (address : Nat) : '\n' ∉ (addressText address).toList := by
  unfold addressText
  rw [String.toList_append, String.toList_ofList, List.mem_append, not_or]
  refine ⟨fun mem => ?_, newline_not_mem_toString address⟩
  cases List.eq_of_mem_replicate mem

/-- What is said of an instruction is on one line unless a name in it is not. -/
theorem newline_mem_row_iff :
    '\n' ∈ row start address i ↔ ∃ s, i.operand? = some (.symbol s) ∧ '\n' ∈ s.toList := by
  have opcode : '\n' ∉ i.opcode.name.toList := by
    cases i.opcode <;> decide
  have marker : '\n' ≠ (if address = start then '>' else ' ') := by
    split <;> decide
  have operand : '\n' ∈ row start address i ↔ '\n' ∈ argument i := by
    simp [row, marker, newline_not_mem_addressText, opcode]
  rw [operand, argument]
  cases written : i.operand? with
  | none =>
    constructor
    · intro mem
      exact absurd mem (by decide)
    · rintro ⟨s, same, _⟩
      cases same
  | some v =>
    constructor
    · intro mem
      cases v with
      | symbol s => exact ⟨s, rfl, mem⟩
      | _ => exact absurd mem (newline_not_mem_literalText (by simp [Value.kind]))
    · rintro ⟨s, same, mem⟩
      cases same
      exact mem

theorem onePerLine_iff : p.OnePerLine ↔ ∀ i ∈ p.code, i.Named fun s => '\n' ∉ s.toList := by
  have heads : ∀ l ∈ headings, '\n' ∉ l := by decide
  rw [OnePerLine, toList_listing, Source.splitLines_flatMap, List.append_left_inj,
    Source.flatMap_splitLines_eq_iff]
  constructor
  · intro single i mem s operand feed
    obtain ⟨k, known, here⟩ := List.getElem_of_mem mem
    refine single (row p.start k i) (List.mem_append_right _ ?_)
      (newline_mem_row_iff.mpr ⟨s, operand, feed⟩)
    exact List.mem_mapIdx.mpr ⟨k, known, by rw [here]⟩
  · intro named l mem feed
    rcases List.mem_append.mp mem with head | row
    · exact heads l head feed
    · obtain ⟨k, known, rfl⟩ := List.mem_mapIdx.mp row
      obtain ⟨s, operand, inside⟩ := newline_mem_row_iff.mp feed
      exact named _ (List.getElem_mem known) s operand inside

end Program
end Dialogue
