import Dialogue.Code.Draft

/-!
Linking: every reference is pointed to the address of the label it names, in the order in which the
references were made. A program starts at its first instruction.
-/
namespace Dialogue.Fragment

def address? (labels : List Label) (name : String) : Option Nat :=
  (labels.find? (·.name == name)).map Label.address

theorem address?_append {labels : List Label} {name : String} {a : Nat}
    (known : address? labels name = some a) (more : List Label) :
    address? (labels ++ more) name = some a := by
  obtain ⟨l, found, rfl⟩ := Option.map_eq_some_iff.mp known
  rw [address?, List.find?_append, found]
  rfl

def retarget? (code : List Instruction) (address target : Nat) : Option (List Instruction) :=
  (code[address]?.bind (Instruction.retarget? target)).map (code.set address)

def resolve (labels : List Label) (code : List Instruction) (r : Reference) :
    Except Problem (List Instruction) :=
  match address? labels r.target with
  | none => .error { cause := .unresolvedSymbol r.target, span := r.span }
  | some target =>
    match retarget? code r.address target with
    | none => .error { cause := .invalidReference, span := r.span }
    | some code => .ok code

def link (f : Fragment) : Except Problem Program :=
  (f.references.foldlM (resolve f.labels) f.code).map fun code => ⟨0, code⟩

end Dialogue.Fragment
