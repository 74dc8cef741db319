import Dialogue.Proofs.Code.Building
import Dialogue.Proofs.Code.Forms

/-!
The plan of a term. It is read off the term alone; the node that is open matters only for the menus
the term shows. The emitter of every term follows its plan, wherever the code is to stand.
-/
namespace Dialogue

namespace Assembly

/-- What one line of assembly adds: a label, an instruction or a reference to a name. -/
def linePlan (span : Span) (head : String) (arguments : List Term) : Plan :=
  match operand? arguments with
  | none => .empty
  | some operand =>
    if head = "Label" then
      match operand with
      | some (.symbol name) => .label name span
      | _ => .empty
    else match Opcode.ofName? head with
      | none => .empty
      | some opcode =>
        match Instruction.ofAddress? 0 opcode, operand with
        | some i, some (.symbol target) => .reference .assembly i target (firstSpan span arguments)
        | some _, _ => .empty
        | none, _ =>
          match Instruction.build? opcode operand with
          | some i => .one .assembly i
          | none => .empty

def plan : List Term → Plan
  | [] => .empty
  | .list span (.symbol _ head :: arguments) :: ts => .both (linePlan span head arguments) (plan ts)
  | _ :: _ => .empty

theorem pointer_of_ofAddress? {address : Nat} {opcode : Opcode} {i : Instruction}
    (built : Instruction.ofAddress? address opcode = some i) : i.address?.isSome := by
  cases opcode <;> simp_all [Instruction.ofAddress?] <;> (subst built; rfl)

theorem builds_element (span : Span) (head : String) (arguments : List Term) :
    Emit.Builds (element span head arguments) (linePlan span head arguments) := by
  unfold element linePlan
  cases operand? arguments with
  | none => exact .fail _ _ _
  | some operand =>
    by_cases label : head = "Label"
    · simp only [label, if_true]
      rcases operand with _ | v
      · exact .fail _ _ _
      · cases v <;> first | exact .define _ _ | exact .fail _ _ _
    · simp only [label, if_false]
      cases Opcode.ofName? head with
      | none => exact .fail _ _ _
      | some opcode =>
        cases pointer : Instruction.ofAddress? 0 opcode with
        | none =>
          cases built : Instruction.build? opcode operand with
          | none => simp only [pointer, built]; exact .fail _ _ _
          | some i => simp only [pointer, built]; exact .emit _ _
        | some i =>
          simp only [pointer]
          rcases operand with _ | v
          · exact .fail _ _ _
          · cases v <;>
              first
              | exact .refer _ _ _ _ (pointer_of_ofAddress? pointer)
              | exact .fail _ _ _

theorem builds_elements (ts : List Term) : Emit.Builds (elements ts) (plan ts) := by
  induction ts with
  | nil => exact .silent (Emit.silent_pure _)
  | cons t ts ih =>
    rcases t with _ | _ | ⟨span, _ | ⟨head, arguments⟩⟩
    · exact .fail _ _ _
    · exact .fail _ _ _
    · exact .fail _ _ _
    · cases head with
      | symbol _ name => exact .both (builds_element span name arguments) fun _ => ih
      | literal => exact .fail _ _ _
      | list => exact .fail _ _ _

end Assembly

namespace Form

mutual

def plan (node? : Option String) : Term → Plan
  | .symbol _ name => .one .other (.loadVariable name)
  | .literal _ v => .one .other (push v)
  | .list _ items => formPlan node? items

/-- Nothing is planned for a list that is no form. -/
def formPlan (node? : Option String) : List Term → Plan
  | .symbol _ name :: operands =>
    match Operator.ofName? name with
    | none => .both (seriesPlan node? operands) (.one .other (.call name))
    | some o =>
      match o with
      | .assign =>
        match operands with
        | [.symbol _ target, value] =>
          .both (plan node? value) (.one .other (.storeVariable target))
        | _ => .empty
      | .whileLoop =>
        match operands with
        | [condition, body] => .loop (plan node? condition) (plan node? body)
        | _ => .empty
      | .conditional =>
        match operands with
        | [condition, consequence, alternative] =>
          .both (plan node? condition)
            (.branches (plan node? consequence) (plan node? alternative))
        | _ => .empty
      | .sequence => seriesPlan node? operands
      | .print =>
        match operands with
        | [line] => .both (plan node? line) (.one .other .showLine)
        | _ => .empty
      | .choose =>
        .both (optionsPlan node? operands) (.one .other (.showChoice (node?.getD "")))
      | .assembly => Assembly.plan operands
      | o =>
        match instruction? o with
        | none => .empty
        | some i =>
          match operands with
          | [operand] =>
            if o.isVariadic then plan node? operand
            else .both (plan node? operand) (.one .other i)
          | operands => foldedPlan node? i false operands
  | _ => .empty

def seriesPlan (node? : Option String) : List Term → Plan
  | [] => .empty
  | t :: ts => .both (plan node? t) (seriesPlan node? ts)

def foldedPlan (node? : Option String) (i : Instruction) (further : Bool) : List Term → Plan
  | [] => .empty
  | t :: ts =>
    if further then
      .both (plan node? t) (.both (.one .other i) (foldedPlan node? i true ts))
    else .both (plan node? t) (foldedPlan node? i true ts)

def optionsPlan (node? : Option String) : List Term → Plan
  | .list _ [text, .symbol span name] :: ts =>
    .both (plan node? text)
      (.both (.reference (.option name) (.pushChoice 0) name span) (optionsPlan node? ts))
  | _ => .empty

end

open Emit (Builds)

variable {node? : Option String}

section
variable {place spot : Span} {name target : String} {o : Operator} {i : Instruction}
variable {operands : List Term}

theorem formPlan_call (unknown : Operator.ofName? name = none) :
    formPlan node? (.symbol place name :: operands) =
      .both (seriesPlan node? operands) (.one .other (.call name)) := by
  unfold formPlan
  simp only [unknown]

theorem formPlan_head (known : Operator.ofName? name = some o) :
    formPlan node? (.symbol place name :: operands) =
      formPlan node? (.symbol place o.name :: operands) := by
  unfold formPlan
  rw [known, Operator.ofName?_name]

theorem formPlan_assign (known : Operator.ofName? name = some .assign) (value : Term) :
    formPlan node? [.symbol place name, .symbol spot target, value] =
      .both (plan node? value) (.one .other (.storeVariable target)) :=
  (formPlan_head known).trans rfl

theorem formPlan_loop (known : Operator.ofName? name = some .whileLoop) (condition body : Term) :
    formPlan node? [.symbol place name, condition, body] =
      .loop (plan node? condition) (plan node? body) :=
  (formPlan_head known).trans rfl

theorem formPlan_conditional (known : Operator.ofName? name = some .conditional)
    (condition consequence alternative : Term) :
    formPlan node? [.symbol place name, condition, consequence, alternative] =
      .both (plan node? condition)
        (.branches (plan node? consequence) (plan node? alternative)) :=
  (formPlan_head known).trans rfl

theorem formPlan_sequence (known : Operator.ofName? name = some .sequence) :
    formPlan node? (.symbol place name :: operands) = seriesPlan node? operands :=
  (formPlan_head known).trans rfl

theorem formPlan_print (known : Operator.ofName? name = some .print) (line : Term) :
    formPlan node? [.symbol place name, line] =
      .both (plan node? line) (.one .other .showLine) :=
  (formPlan_head known).trans rfl

theorem formPlan_choose (known : Operator.ofName? name = some .choose) :
    formPlan node? (.symbol place name :: operands) =
      .both (optionsPlan node? operands) (.one .other (.showChoice (node?.getD ""))) :=
  (formPlan_head known).trans rfl

theorem formPlan_assembly (known : Operator.ofName? name = some .assembly) :
    formPlan node? (.symbol place name :: operands) = Assembly.plan operands :=
  (formPlan_head known).trans rfl

theorem formPlan_unary (known : Operator.ofName? name = some o)
    (operation : instruction? o = some i) (operand : Term) :
    formPlan node? [.symbol place name, operand] =
      if o.isVariadic then plan node? operand
      else .both (plan node? operand) (.one .other i) := by
  rw [formPlan_head known]
  cases o <;> cases operation <;> rfl

theorem formPlan_folded (known : Operator.ofName? name = some o)
    (operation : instruction? o = some i) (several : operands.length ≠ 1) :
    formPlan node? (.symbol place name :: operands) = foldedPlan node? i false operands := by
  rw [formPlan_head known]
  match operands, several with
  | [_], several => exact absurd rfl several
  | [], _ | _ :: _ :: _, _ => cases o <;> cases operation <;> rfl

end

theorem silent_check (wanted : Class) (span : Span) (found : Class) :
    (if found = wanted then (pure () : Emit Unit)
      else match wanted with
        | .expression => Emit.fail .expectedExpression span
        | .statement => Emit.fail .expectedStatement span).Silent := by
  split
  · exact Emit.silent_pure ()
  · cases wanted <;> exact Emit.silent_fail _ _

theorem builds_require {wanted : Class} {span : Span} {code : Emit Class} {p : Plan}
    (builds : Builds code p) : Builds (require wanted span code) p :=
  .after builds (silent_check wanted span)

theorem builds_of_class {e : Emit Unit} {p : Plan} (k : Class) (builds : Builds e p) :
    Builds (e >>= fun _ => pure k) p :=
  .after builds fun _ => Emit.silent_pure k

theorem builds_inOrder (wanted : Class) {ts : List Term}
    (parts : ∀ t ∈ ts, Builds (walk node? t) (plan node? t)) :
    Builds (inOrder node? wanted ts) (seriesPlan node? ts) := by
  induction ts with
  | nil => exact .silent (Emit.silent_pure _)
  | cons t ts ih =>
    have head := parts t List.mem_cons_self
    have tail := ih fun u mem => parts u (List.mem_cons_of_mem t mem)
    rw [inOrder, seriesPlan]
    exact .both (builds_require head) fun _ => tail

theorem builds_folded (i : Instruction) (further : Bool) {ts : List Term}
    (parts : ∀ t ∈ ts, Builds (walk node? t) (plan node? t)) :
    Builds (folded node? i further ts) (foldedPlan node? i further ts) := by
  induction ts generalizing further with
  | nil => exact .silent (Emit.silent_pure _)
  | cons t ts ih =>
    have head := parts t List.mem_cons_self
    have tail := ih true fun u mem => parts u (List.mem_cons_of_mem t mem)
    rw [folded, foldedPlan]
    cases further with
    | false => exact .both (builds_require head) fun _ => tail
    | true => exact .both (builds_require head) fun _ => .both (.emit _ _) fun _ => tail

theorem builds_options {ts : List Term}
    (parts : ∀ u, sizeOf u < sizeOf ts → Builds (walk node? u) (plan node? u)) :
    Builds (options node? ts) (optionsPlan node? ts) := by
  induction ts with
  | nil => exact .silent (Emit.silent_pure _)
  | cons t ts ih =>
    have tail := ih fun u small => parts u (by simp only [List.cons.sizeOf_spec]; omega)
    match t, parts with
    | .symbol _ _, _ | .literal _ _, _ => rw [options]; exact .fail _ _ _; all_goals simp
    | .list _ [], _ | .list _ [_], _ | .list _ (_ :: _ :: _ :: _), _ =>
      rw [options]; exact .fail _ _ _; all_goals simp
    | .list _ [text, .symbol span name], parts =>
      have head := parts text (by
        simp only [List.cons.sizeOf_spec, Term.list.sizeOf_spec]; omega)
      rw [options, optionsPlan]
      exact .both (builds_require head) fun _ => .both (.refer _ _ _ _ rfl) fun _ => tail
    | .list _ [_, .literal _ _], _ | .list _ [_, .list _ _], _ =>
      unfold options
      exact .fail _ _ _

theorem builds_of_shape {items : List Term} {e : Emit Class} (shape : Shape node? items e)
    (parts : ∀ u, sizeOf u < sizeOf items → Builds (walk node? u) (plan node? u)) :
    Builds e (formPlan node? items) := by
  have operand : ∀ {head : Term} {operands : List Term}, items = head :: operands →
      ∀ u ∈ operands, Builds (walk node? u) (plan node? u) := by
    rintro head operands rfl u mem
    exact parts u (List.sizeOf_lt_of_mem (List.mem_cons_of_mem head mem))
  cases shape with
  | refused => exact .fail _ _ _
  | call unknown =>
    rw [formPlan_call unknown]
    exact .both (builds_inOrder _ (operand rfl)) fun _ => builds_of_class _ (.emit _ _)
  | @assign _ _ _ _ value known =>
    rw [formPlan_assign known]
    exact .both (builds_require (operand rfl value (by simp))) fun _ =>
      builds_of_class _ (.emit _ _)
  | @loop _ _ condition body known =>
    rw [formPlan_loop known]
    exact builds_of_class _ (.loop (builds_require (operand rfl condition (by simp)))
      (builds_require (operand rfl body (by simp))))
  | @conditional _ _ condition consequence alternative known =>
    rw [formPlan_conditional known]
    refine .both (builds_require (operand rfl condition (by simp))) fun _ => ?_
    exact .branches (operand rfl consequence (by simp)) fun _ =>
      builds_require (operand rfl alternative (by simp))
  | sequence known =>
    rw [formPlan_sequence known]
    exact builds_of_class _ (builds_inOrder _ (operand rfl))
  | @print _ _ line known =>
    rw [formPlan_print known]
    exact .both (builds_require (operand rfl line (by simp))) fun _ =>
      builds_of_class _ (.emit _ _)
  | choose known inside =>
    subst inside
    rw [formPlan_choose known]
    refine .both (builds_options fun u small => parts u ?_) fun _ => builds_of_class _ (.emit _ _)
    simp only [List.cons.sizeOf_spec]
    omega
  | assembly known =>
    rw [formPlan_assembly known]
    exact builds_of_class _ (Assembly.builds_elements _)
  | @unary _ _ o i operand' known operation =>
    rw [formPlan_unary known operation]
    have builds : Builds (require .expression operand'.span (walk node? operand'))
        (plan node? operand') := builds_require (operand rfl operand' (by simp))
    cases o.isVariadic with
    | true => exact builds_of_class _ builds
    | false => exact .both builds fun _ => builds_of_class _ (.emit _ _)
  | folded known operation _ several =>
    rw [formPlan_folded known operation several]
    exact builds_of_class _ (builds_folded _ _ (operand rfl))

theorem builds_walk (node? : Option String) (t : Term) : Builds (walk node? t) (plan node? t) := by
  induction t using Term.induction_on_size with
  | step t ih =>
    cases t with
    | symbol => rw [walk, plan]; exact builds_of_class _ (.emit _ _)
    | literal => rw [walk, plan]; exact builds_of_class _ (.emit _ _)
    | list span items =>
      rw [walk, plan]
      refine builds_of_shape (shape_form node? span items) fun u small => ih u ?_
      simp only [Term.list.sizeOf_spec]
      omega

theorem builds_expression (node? : Option String) (t : Term) :
    Builds (expression node? t) (plan node? t) :=
  builds_require (builds_walk node? t)

theorem builds_statement (node? : Option String) (t : Term) :
    Builds (statement node? t) (plan node? t) :=
  builds_require (builds_walk node? t)

end Form
end Dialogue
