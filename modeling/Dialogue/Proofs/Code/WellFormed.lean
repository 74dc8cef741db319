import Dialogue.Proofs.Code.Forms
import Dialogue.Proofs.Code.Plan

/-!
Well-formed terms, of one class or the other, and that the code generator accepts no others. What
assembly lists is looked at by the assembler alone, so here an assembly form is always a statement.
-/
namespace Dialogue.Form
open Emit

inductive WellFormed (node? : Option String) : Class → Term → Prop where
  | symbol (span : Span) (name : String) : WellFormed node? .expression (.symbol span name)
  | literal (span : Span) (v : Value) : WellFormed node? .expression (.literal span v)
  | operation {span place : Span} {name : String} {o : Operator} {i : Instruction}
      {operands : List Term} (known : Operator.ofName? name = some o)
      (operation : instruction? o = some i) (counted : o.arity.accepts operands.length)
      (parts : ∀ t ∈ operands, WellFormed node? .expression t) :
      WellFormed node? .expression (.list span (.symbol place name :: operands))
  | conditional {span place : Span} {name : String} {k : Class}
      {condition consequence alternative : Term}
      (known : Operator.ofName? name = some .conditional)
      (test : WellFormed node? .expression condition)
      (left : WellFormed node? k consequence) (right : WellFormed node? k alternative) :
      WellFormed node? k (.list span [.symbol place name, condition, consequence, alternative])
  | assign {span place spot : Span} {name target : String} {value : Term}
      (known : Operator.ofName? name = some .assign)
      (source : WellFormed node? .expression value) :
      WellFormed node? .statement (.list span [.symbol place name, .symbol spot target, value])
  | loop {span place : Span} {name : String} {condition body : Term}
      (known : Operator.ofName? name = some .whileLoop)
      (test : WellFormed node? .expression condition) (inner : WellFormed node? .statement body) :
      WellFormed node? .statement (.list span [.symbol place name, condition, body])
  | sequence {span place : Span} {name : String} {operands : List Term}
      (known : Operator.ofName? name = some .sequence) (nonempty : operands ≠ [])
      (parts : ∀ t ∈ operands, WellFormed node? .statement t) :
      WellFormed node? .statement (.list span (.symbol place name :: operands))
  | print {span place : Span} {name : String} {line : Term}
      (known : Operator.ofName? name = some .print)
      (text : WellFormed node? .expression line) :
      WellFormed node? .statement (.list span [.symbol place name, line])
  | call {span place : Span} {name : String} {operands : List Term}
      (unknown : Operator.ofName? name = none)
      (parts : ∀ t ∈ operands, WellFormed node? .expression t) :
      WellFormed node? .statement (.list span (.symbol place name :: operands))
  | choose {span place : Span} {name node : String} {operands : List Term}
      (known : Operator.ofName? name = some .choose) (inside : node? = some node)
      (nonempty : operands ≠ [])
      (shaped : ∀ t ∈ operands, ∃ whole text spot target,
        t = .list whole [text, .symbol spot target])
      (parts : ∀ whole text spot target, .list whole [text, .symbol spot target] ∈ operands →
        WellFormed node? .expression text) :
      WellFormed node? .statement (.list span (.symbol place name :: operands))
  | assembly {span place : Span} {name : String} {operands : List Term}
      (known : Operator.ofName? name = some .assembly) :
      WellFormed node? .statement (.list span (.symbol place name :: operands))

variable {node? : Option String} {s : Site} {f : Fragment}

theorem require_ok {wanted : Class} {span : Span} {code : Emit Class} {u : Unit}
    (run : require wanted span code s = (f, .ok u)) : code s = (f, .ok wanted) := by
  obtain ⟨g, found, h, first, check, rfl⟩ := bind_ok run
  have same : found = wanted ∧ h = .empty := by
    split at check
    · cases check; exact ⟨‹_›, rfl⟩
    · cases wanted <;> cases check
  rw [same.2, Fragment.append_empty, ← same.1]
  exact first

def Accepts (node? : Option String) (t : Term) : Prop :=
  ∀ {s f k}, walk node? t s = (f, .ok k) → WellFormed node? k t

theorem wellFormed_of_require {wanted : Class} {span : Span} {t : Term} {u : Unit}
    (sound : Accepts node? t) (run : require wanted span (walk node? t) s = (f, .ok u)) :
    WellFormed node? wanted t :=
  sound (require_ok run)

theorem wellFormed_of_inOrder {wanted : Class} {ts : List Term} {u : Unit}
    (sound : ∀ t ∈ ts, Accepts node? t) (run : inOrder node? wanted ts s = (f, .ok u)) :
    ∀ t ∈ ts, WellFormed node? wanted t := by
  induction ts generalizing s f with
  | nil => simp
  | cons t ts ih =>
    rw [inOrder] at run
    obtain ⟨_, _, _, first, rest, _⟩ := bind_ok run
    intro u mem
    rcases List.mem_cons.mp mem with same | mem
    · subst u; exact wellFormed_of_require (sound t List.mem_cons_self) first
    · exact ih (fun v mv => sound v (List.mem_cons_of_mem t mv)) rest u mem

theorem wellFormed_of_folded {i : Instruction} {further : Bool} {ts : List Term} {u : Unit}
    (sound : ∀ t ∈ ts, Accepts node? t) (run : folded node? i further ts s = (f, .ok u)) :
    ∀ t ∈ ts, WellFormed node? .expression t := by
  induction ts generalizing s f further with
  | nil => simp
  | cons t ts ih =>
    rw [folded] at run
    obtain ⟨_, _, _, first, rest, _⟩ := bind_ok run
    have tail : ∃ s f, folded node? i true ts s = (f, .ok u) := by
      cases further with
      | false => exact ⟨_, _, rest⟩
      | true =>
        obtain ⟨_, _, _, _, rest, _⟩ := bind_ok rest
        exact ⟨_, _, rest⟩
    obtain ⟨_, _, rest⟩ := tail
    intro u mem
    rcases List.mem_cons.mp mem with same | mem
    · subst u; exact wellFormed_of_require (sound t List.mem_cons_self) first
    · exact ih (fun v mv => sound v (List.mem_cons_of_mem t mv)) rest u mem

theorem wellFormed_of_options {ts : List Term} {u : Unit}
    (sound : ∀ t, sizeOf t < sizeOf ts → Accepts node? t)
    (run : options node? ts s = (f, .ok u)) :
    (∀ t ∈ ts, ∃ whole text spot target, t = .list whole [text, .symbol spot target]) ∧
      ∀ whole text spot target, .list whole [text, .symbol spot target] ∈ ts →
        WellFormed node? .expression text := by
  induction ts generalizing s f with
  | nil => simp
  | cons t ts ih =>
    match t, sound, run with
    | .symbol _ _, _, run | .literal _ _, _, run => rw [options] at run; cases run; all_goals simp
    | .list _ [], _, run | .list _ [_], _, run | .list _ (_ :: _ :: _ :: _), _, run =>
      rw [options] at run; cases run; all_goals simp
    | .list _ [_, .literal _ _], _, run | .list _ [_, .list _ _], _, run =>
      unfold options at run
      cases run
    | .list whole [text, .symbol spot target], sound, run =>
      rw [options] at run
      obtain ⟨_, _, _, first, rest, _⟩ := bind_ok run
      obtain ⟨_, _, _, _, rest, _⟩ := bind_ok rest
      have head := wellFormed_of_require (sound text (by
        simp only [List.cons.sizeOf_spec, Term.list.sizeOf_spec]; omega)) first
      have tail := ih (fun v small => sound v (by
        simp only [List.cons.sizeOf_spec]; omega)) rest
      refine ⟨?_, ?_⟩
      · intro v mem
        rcases List.mem_cons.mp mem with same | mem
        · exact ⟨whole, text, spot, target, same⟩
        · exact tail.1 v mem
      · intro whole' text' spot' target' mem
        rcases List.mem_cons.mp mem with same | mem
        · cases same; exact head
        · exact tail.2 _ _ _ _ mem

theorem wellFormed_of_shape {items : List Term} {e : Emit Class} {span : Span} {k : Class}
    (shape : Shape node? items e) (sound : ∀ t, sizeOf t < sizeOf items → Accepts node? t)
    (run : e s = (f, .ok k)) : WellFormed node? k (.list span items) := by
  have operand : ∀ {head : Term} {operands : List Term}, items = head :: operands →
      ∀ t ∈ operands, Accepts node? t := by
    rintro head operands rfl t mem
    exact sound t (List.sizeOf_lt_of_mem (List.mem_cons_of_mem head mem))
  cases shape with
  | refused => cases run
  | call unknown =>
    obtain ⟨_, _, _, first, rest, _⟩ := bind_ok run
    cases rest
    exact .call unknown (wellFormed_of_inOrder (operand rfl) first)
  | @assign _ _ _ _ value known =>
    obtain ⟨_, _, _, first, rest, _⟩ := bind_ok run
    cases rest
    exact .assign known (wellFormed_of_require (operand rfl value (by simp)) first)
  | @loop _ _ condition body known =>
    obtain ⟨_, _, _, first, rest, _⟩ := bind_ok run
    cases rest
    obtain ⟨_, _, test, inner⟩ := loop_ok first
    exact .loop known (wellFormed_of_require (operand rfl condition (by simp)) test)
      (wellFormed_of_require (operand rfl body (by simp)) inner)
  | @conditional _ _ condition consequence alternative known =>
    obtain ⟨_, _, _, first, rest, _⟩ := bind_ok run
    obtain ⟨_, _, left, right⟩ := branches_ok rest
    exact .conditional known (wellFormed_of_require (operand rfl condition (by simp)) first)
      (operand rfl consequence (by simp) left)
      (wellFormed_of_require (operand rfl alternative (by simp)) right)
  | sequence known nonempty =>
    obtain ⟨_, _, _, first, rest, _⟩ := bind_ok run
    cases rest
    exact .sequence known nonempty (wellFormed_of_inOrder (operand rfl) first)
  | @print _ _ line known =>
    obtain ⟨_, _, _, first, rest, _⟩ := bind_ok run
    cases rest
    exact .print known (wellFormed_of_require (operand rfl line (by simp)) first)
  | choose known inside nonempty =>
    obtain ⟨_, _, _, first, rest, _⟩ := bind_ok run
    cases rest
    subst inside
    obtain ⟨shaped, parts⟩ := wellFormed_of_options (fun t small => sound t (by
      simp only [List.cons.sizeOf_spec]; omega)) first
    exact .choose known rfl nonempty shaped parts
  | assembly known =>
    obtain ⟨_, _, _, first, rest, _⟩ := bind_ok run
    cases rest
    exact .assembly known
  | @unary _ _ o i value known operation counted =>
    obtain ⟨_, _, _, first, rest, _⟩ := bind_ok run
    have expression : k = .expression := by
      split at rest <;> cases rest <;> rfl
    subst expression
    refine .operation known operation counted fun t mem => ?_
    rw [List.mem_singleton.mp mem]
    exact wellFormed_of_require (operand rfl value (by simp)) first
  | folded known operation counted =>
    obtain ⟨_, _, _, first, rest, _⟩ := bind_ok run
    cases rest
    exact .operation known operation counted (wellFormed_of_folded (operand rfl) first)

theorem wellFormed_of_walk (node? : Option String) (t : Term) : Accepts node? t := by
  induction t using Term.induction_on_size with
  | step t ih =>
    intro s f k run
    cases t with
    | symbol => cases run; exact .symbol _ _
    | literal => cases run; exact .literal _ _
    | list span items =>
      rw [walk] at run
      refine wellFormed_of_shape (shape_form node? span items) (fun u small => ih u ?_) run
      simp only [Term.list.sizeOf_spec]
      omega

end Dialogue.Form
