import Dialogue.Proofs.Code.Elsewhere
import Dialogue.Proofs.Code.Language
import Dialogue.Proofs.Code.LinkedPlan
import Dialogue.Proofs.Code.Linking
import Dialogue.Proofs.Term.Printing

/-!
Writing code as assembly. Every instruction can be written as a line, once each address it points
to is named by a label before the instruction that stands there, or after the last. Compiled and
linked, the lines give the code back.
-/
namespace Dialogue.Assembly

def Pointed (code : List Instruction) (address : Nat) : Prop :=
  ∃ i ∈ code, i.address? = some address

instance (code : List Instruction) (address : Nat) : Decidable (Pointed code address) :=
  inferInstanceAs (Decidable (∃ i ∈ code, i.address? = some address))

/-- The operand of an instruction as it is written, an address as its label. -/
def operandOf (label : Nat → String) (i : Instruction) : Option Value :=
  match i.address? with
  | some a => some (.symbol (label a))
  | none => i.operand?

def operands : Option Value → List Term
  | none => []
  | some (.symbol name) => [.symbol default name]
  | some v => [.literal default v]

def mark (label : Nat → String) (code : List Instruction) (address : Nat) : List Term :=
  if Pointed code address then
    [.list default (.symbol default "Label" :: operands (some (.symbol (label address))))]
  else []

def lines (label : Nat → String) (code : List Instruction) : Nat → List Instruction → List Term
  | address, [] => mark label code address
  | address, i :: rest => mark label code address ++
    .list default (.symbol default i.opcode.name :: operands (operandOf label i)) ::
      lines label code (address + 1) rest

def writing (label : Nat → String) (code : List Instruction) : Term :=
  .list default (.symbol default "asm" :: lines label code 0 code)

/-! Reading a line. -/

section
variable {t : Term} {ts us : List Term} {place : Span} {name : String}

theorem operand?_operands (v : Option Value) : operand? (operands v) = some v := by
  rcases v with _ | v
  · rfl
  · cases v <;> rfl

theorem operand?_bareAll (ts : List Term) : operand? (Term.bare.bareAll ts) = operand? ts := by
  rcases ts with _ | ⟨t, _ | ⟨u, ts⟩⟩
  · rfl
  · cases t <;> rfl
  · cases t <;> rfl

theorem bareAll_cons (same : Term.bare.bareAll us = t :: ts) :
    ∃ u vs, us = u :: vs ∧ u.bare = t ∧ Term.bare.bareAll vs = ts := by
  cases us with
  | nil => cases same
  | cons u us =>
    cases same
    exact ⟨u, us, rfl, rfl, rfl⟩

theorem bare_form (same : t.bare = .list default (.symbol default name :: ts)) :
    ∃ span place us, t = .list span (.symbol place name :: us) ∧ Term.bare.bareAll us = ts := by
  cases t with
  | symbol | literal => cases same
  | list span items =>
    obtain ⟨head, us, rfl, first, rest⟩ := bareAll_cons (Term.list.inj same).2
    cases head with
    | symbol place other =>
      cases first
      exact ⟨span, place, us, rfl, rest⟩
    | literal | list => cases first

end

theorem ofAddress?_opcode (i : Instruction) (target : Nat) :
    Instruction.ofAddress? target i.opcode = i.address?.map fun _ => i.pointed target := by
  cases i <;> rfl

theorem name_ne_label (o : Opcode) : o.name ≠ "Label" := by
  cases o <;> decide

section
variable {label : Nat → String} {i : Instruction} {span : Span} {us : List Term}

theorem pointed_back {a : Nat} (points : i.address? = some a) : (i.pointed 0).pointed a = i := by
  cases i <;> cases points <;> rfl

/-- The emitter succeeds wherever the names of its plan are free. -/
def Fits (e : Emit Unit) (p : Plan) : Prop :=
  ∀ s : Site, s.Free p.names → p.names.Nodup → ∃ f, e s = (f, .ok ())

theorem fits_of_gives {e : Emit Unit} (gives : e.Gives ()) (p : Plan) : Fits e p :=
  fun s _ _ => gives s

theorem fits_define (name : String) (span : Span) : Fits (.define name span) (.label name span) :=
  fun _ free _ => ⟨_, (Emit.Builds.define name span).elsewhere (s := .origin) rfl free⟩

/-- What is planned for the line of an instruction: nothing but the instruction, pointed to its
label. -/
structure Line (label : Nat → String) (i : Instruction) (e : Emit Unit) (p : Plan) : Prop where
  accepted : Fits e p
  size : p.size = 1
  labels : ∀ start, p.labels start = []
  targets : p.targets = (i.address?.map label).toList
  code : ∀ resolve start, (∀ b, i.address? = some b → resolve (label b) = some b) →
    p.instructions resolve start = [i]

theorem line_instruction (written : operand? us = some (operandOf label i)) :
    Line label i (element span i.opcode.name us) (linePlan span i.opcode.name us) := by
  rw [element, linePlan, written]
  simp only [if_neg (name_ne_label _), Opcode.ofName?_name, ofAddress?_opcode, operandOf]
  cases points : i.address? with
  | none =>
    simp only [Option.map_none, Instruction.build?_operand? points]
    refine ⟨fits_of_gives (Emit.gives_emit i) _, rfl, fun _ => rfl, ?_, fun _ _ _ => rfl⟩
    rw [points]
    rfl
  | some a =>
    simp only [Option.map_some]
    refine ⟨fits_of_gives (Emit.gives_refer _ _ _) _, rfl, fun _ => rfl, ?_, ?_⟩
    · rw [points]
      rfl
    · intro resolve start resolved
      simp only [Plan.instructions, Plan.code, resolved a points, Option.map_some, Option.getD_some,
        pointed_back points, List.map_cons, List.map_nil]

/-! Reading all lines. -/

theorem fits_cons {head : String} {operands : List Term} {place : Span}
    (line : Fits (element span head operands) (linePlan span head operands))
    (rest : Fits (elements us) (plan us)) :
    Fits (elements (.list span (.symbol place head :: operands) :: us))
      (plan (.list span (.symbol place head :: operands) :: us)) := by
  intro s free distinct
  obtain ⟨f, first⟩ := line s free.left (List.nodup_append.mp distinct).1
  have made := (builds_element span head operands).fragment_eq first
  have beyond : (s.after f).Free (plan us).names := by
    rw [made]
    exact free.beyond distinct s.start rfl
  obtain ⟨g, later⟩ := rest (s.after f) beyond (List.nodup_append.mp distinct).2.1
  refine ⟨f ++ g, ?_⟩
  rw [elements, Emit.bind_apply, first]
  simp only [later]

/-- The lines `us` stand for the instructions `rest` from `address` on, and bind the labels of
`bound`. -/
structure Carries (label : Nat → String) (bound : List Nat) (address : Nat)
    (rest : List Instruction) (us : List Term) : Prop where
  accepted : Fits (elements us) (plan us)
  labels : ((plan us).labels address).map (fun l => (l.name, l.address)) =
    bound.map fun b => (label b, b)
  targets : ∀ name ∈ (plan us).targets, ∃ i ∈ rest, ∃ b, i.address? = some b ∧ name = label b
  code : ∀ resolve, (∀ i ∈ rest, ∀ b, i.address? = some b → resolve (label b) = some b) →
    ∀ start, (plan us).instructions resolve start = rest

variable {bound : List Nat} {address : Nat} {rest : List Instruction}

theorem carries_nothing (label : Nat → String) (address : Nat) :
    Carries label [] address [] [] where
  accepted _ _ _ := ⟨_, rfl⟩
  labels := rfl
  targets := nofun
  code _ _ _ := rfl

theorem Carries.mark {operands : List Term} {place : Span}
    (carries : Carries label bound address rest us)
    (written : operand? operands = some (some (.symbol (label address)))) :
    Carries label (address :: bound) address rest
      (.list span (.symbol place "Label" :: operands) :: us) := by
  have emitted : element span "Label" operands = .define (label address) span := by
    rw [element, written]
    rfl
  have planned : linePlan span "Label" operands = .label (label address) span := by
    rw [linePlan, written]
    rfl
  constructor
  · apply fits_cons _ carries.accepted
    rw [emitted, planned]
    exact fits_define _ _
  · rw [plan, planned]
    exact congrArg (List.cons _) carries.labels
  · rw [plan, planned]
    exact carries.targets
  · intro resolve resolved start
    rw [plan, planned, Plan.instructions_both]
    exact carries.code resolve resolved _

theorem Carries.instruction {operands : List Term} {place : Span}
    (carries : Carries label bound (address + 1) rest us)
    (written : operand? operands = some (operandOf label i)) :
    Carries label bound address (i :: rest)
      (.list span (.symbol place i.opcode.name :: operands) :: us) := by
  have line : Line label i (element span i.opcode.name operands) _ := line_instruction written
  constructor
  · exact fits_cons line.accepted carries.accepted
  · rw [plan, Plan.labels, line.labels, line.size]
    exact carries.labels
  · intro name mem
    rw [plan, Plan.targets, line.targets] at mem
    rcases List.mem_append.mp mem with here | later
    · obtain ⟨b, points, same⟩ := Option.map_eq_some_iff.mp (Option.mem_toList.mp here)
      exact ⟨i, List.mem_cons_self, b, points, same.symm⟩
    · obtain ⟨j, inside, found⟩ := carries.targets name later
      exact ⟨j, List.mem_cons_of_mem i inside, found⟩
  · intro resolve resolved start
    have here := line.code resolve start (resolved i List.mem_cons_self)
    have later := carries.code resolve (fun j inside => resolved j (List.mem_cons_of_mem i inside))
    rw [plan, Plan.instructions_both, here, later]
    rfl

theorem carries_marked {code : List Instruction} {ts : List Term}
    (same : Term.bare.bareAll us = mark label code address ++ ts)
    (carries : ∀ us, Term.bare.bareAll us = ts → Carries label bound address rest us) :
    Carries label (if Pointed code address then address :: bound else bound) address rest us := by
  unfold Assembly.mark at same
  split at same
  · obtain ⟨u, vs, rfl, head, tail⟩ := bareAll_cons same
    obtain ⟨span, place, named, rfl, written⟩ := bare_form head
    rw [if_pos (by assumption)]
    apply (carries vs tail).mark
    rw [← operand?_bareAll, written, operand?_operands]
  · rw [if_neg (by assumption)]
    exact carries us same

def pointedFrom (code : List Instruction) (address count : Nat) : List Nat :=
  (List.range' address count).filter fun a => Pointed code a

theorem carries_lines {code : List Instruction}
    (same : Term.bare.bareAll us = lines label code address rest) :
    Carries label (pointedFrom code address (rest.length + 1)) address rest us := by
  induction rest generalizing address us with
  | nil =>
    simp only [pointedFrom, List.length_nil, List.range'_succ, List.range'_zero, List.filter_cons,
      List.filter_nil, decide_eq_true_eq]
    rw [lines, ← List.append_nil (mark label code address)] at same
    apply carries_marked same
    intro vs nothing
    cases vs with
    | nil => exact carries_nothing label address
    | cons => cases nothing
  | cons i rest ih =>
    rw [pointedFrom, List.length_cons, List.range'_succ, List.filter_cons]
    simp only [decide_eq_true_eq]
    apply carries_marked same
    intro vs line
    obtain ⟨v, ws, rfl, head, tail⟩ := bareAll_cons line
    obtain ⟨span, place, named, rfl, written⟩ := bare_form head
    apply (ih tail).instruction
    rw [← operand?_bareAll, written, operand?_operands]

end

/-! Compiling and linking. -/

theorem statement_assembly {span place : Span} {us : List Term} {f : Fragment}
    (made : elements us .origin = (f, .ok ())) :
    Draft.empty.statement (.list span (.symbol place "asm" :: us)) = (.ok (), ⟨f, none⟩) := by
  have emitted : Form.statement none (.list span (.symbol place "asm" :: us)) .origin =
      (f, .ok ()) := by
    show Form.require .statement span (elements us >>= fun _ => pure .statement) .origin = _
    rw [Form.require, Emit.bind_apply, Emit.bind_apply, made]
    show (f ++ .empty ++ .empty, _) = _
    rw [Fragment.append_empty, Fragment.append_empty]
    rfl
  rw [Draft.statement, Draft.run, show Draft.empty.site = .origin from rfl,
    show Draft.empty.node? = none from rfl, emitted]
  rfl

theorem mem_pointedFrom {code : List Instruction} {b count : Nat} :
    b ∈ pointedFrom code 0 (count + 1) ↔ Pointed code b ∧ b ≤ count := by
  simp only [pointedFrom, List.mem_filter, List.mem_range'_1, decide_eq_true_eq]
  constructor
  · rintro ⟨range, pointed⟩
    exact ⟨pointed, by omega⟩
  · rintro ⟨pointed, within⟩
    exact ⟨by omega, pointed⟩

theorem Carries.names {label : Nat → String} {bound : List Nat} {address : Nat}
    {rest : List Instruction} {us : List Term} (carries : Carries label bound address rest us) :
    (plan us).names = bound.map label := by
  have firsts := congrArg (List.map Prod.fst) carries.labels
  rw [List.map_map, List.map_map] at firsts
  rw [← (plan us).names_of_labels address]
  exact firsts

theorem Carries.address?_label {label : Nat → String} {bound : List Nat} {rest : List Instruction}
    {us : List Term} (carries : Carries label bound 0 rest us) (distinct : (bound.map label).Nodup)
    {b : Nat} (mem : b ∈ bound) : Fragment.address? ((plan us).labels 0) (label b) = some b := by
  have paired : (label b, b) ∈ ((plan us).labels 0).map fun l => (l.name, l.address) := by
    rw [carries.labels]
    exact List.mem_map_of_mem mem
  obtain ⟨l, inside, same⟩ := List.mem_map.mp paired
  obtain ⟨named, placed⟩ := Prod.mk.inj same
  rw [← carries.names, ← (plan us).names_of_labels 0] at distinct
  rw [← named, ← placed]
  exact Fragment.address?_of_mem (List.pairwise_map.mp distinct) inside

theorem Carries.bound_references {label : Nat → String} {bound : List Nat} {rest : List Instruction}
    {us : List Term} (carries : Carries label bound 0 rest us)
    (resolved : ∀ i ∈ rest, ∀ b, i.address? = some b →
      Fragment.address? ((plan us).labels 0) (label b) = some b) :
    ∀ r ∈ (plan us).references 0, (Fragment.address? ((plan us).labels 0) r.target).isSome := by
  intro r mem
  have target : r.target ∈ (plan us).targets := by
    rw [← (plan us).targets_of_references 0]
    exact List.mem_map_of_mem mem
  obtain ⟨i, inside, b, points, named⟩ := carries.targets _ target
  rw [named]
  exact Option.isSome_of_eq_some (resolved i inside b points)

/-- Every code whose addresses are within it or just past it is written, compiled and linked to
itself, whatever different names are given to the addresses and wherever the lines are read
from. -/
theorem written_links_back {label : Nat → String} {code : List Instruction}
    (inside : ∀ a, Pointed code a → a ≤ code.length)
    (distinct : ∀ a b, Pointed code a → Pointed code b → label a = label b → a = b)
    {t : Term} (written : t.bare = writing label code) :
    ∃ d, Draft.empty.statement t = (.ok (), d) ∧ d.link = .ok ⟨0, code⟩ := by
  obtain ⟨span, place, us, rfl, same⟩ := bare_form written
  have carries := carries_lines same
  have nodup : ((pointedFrom code 0 (code.length + 1)).map label).Nodup := by
    apply List.Nodup.map_on
    · intro a ha b hb
      exact distinct a b (mem_pointedFrom.mp ha).1 (mem_pointedFrom.mp hb).1
    · exact List.Nodup.filter _ List.nodup_range'
  have resolved : ∀ i ∈ code, ∀ b, i.address? = some b →
      Fragment.address? ((plan us).labels 0) (label b) = some b := by
    intro i mem b points
    have pointed : Pointed code b := ⟨i, mem, points⟩
    exact carries.address?_label nodup (mem_pointedFrom.mpr ⟨pointed, inside b pointed⟩)
  have free : Site.origin.Free (plan us).names := nofun
  obtain ⟨f, made⟩ := carries.accepted .origin free (by rwa [carries.names])
  have built : f = (plan us).fragment 0 := (builds_elements us).fragment_eq made
  have tidy := (builds_elements us).tidy .origin
  rw [made, built] at tidy
  obtain ⟨linked, links, _⟩ := tidy.link_ok (carries.bound_references resolved)
  rw [built] at made
  rw [Plan.link_fragment links, carries.code _ resolved] at links
  exact ⟨_, statement_assembly made, links⟩

/-- A loop, left to the end of the code. -/
theorem written_links_back_loop :
    let code : List Instruction := [.loadVariable "x", .jumpIfFalse 4, .pushNumber 1, .jump 0]
    let label (a : Nat) : String := if a = 0 then "top" else "end"
    let line (items : List Term) : Term := .list ⟨default, 3, 4⟩ items
    let symbol (name : String) : Term := .symbol default name
    let t := line [symbol "asm", line [symbol "Label", symbol "top"],
      line [symbol "LoadVariable", symbol "x"], line [symbol "JumpIfFalse", symbol "end"],
      line [symbol "PushNumber", .literal default (.number 1)],
      line [symbol "Jump", symbol "top"], line [symbol "Label", symbol "end"]]
    (∀ a, Pointed code a → a ≤ code.length) ∧ t.bare = writing label code ∧
      ∃ d, Draft.empty.statement t = (.ok (), d) ∧ d.link = .ok ⟨0, code⟩ := by
  intro code label line symbol t
  have pointed : ∀ a, Pointed code a → a = 0 ∨ a = 4 := by
    rintro a ⟨i, mem, points⟩
    simp only [code, List.mem_cons, List.not_mem_nil, or_false] at mem
    rcases mem with rfl | rfl | rfl | rfl <;> cases points
    · exact .inr rfl
    · exact .inl rfl
  have inside : ∀ a, Pointed code a → a ≤ code.length := by
    intro a points
    rcases pointed a points with rfl | rfl <;> decide
  have distinct : ∀ a b, Pointed code a → Pointed code b → label a = label b → a = b := by
    intro a b first second
    rcases pointed a first with rfl | rfl <;> rcases pointed b second with rfl | rfl <;> decide
  have written : t.bare = writing label code := rfl
  exact ⟨inside, written, written_links_back inside distinct written⟩

end Dialogue.Assembly
