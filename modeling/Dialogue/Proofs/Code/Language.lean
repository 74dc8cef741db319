import Dialogue.Proofs.Code.Accepted

/-!
The language of terms, said by its words alone: what an expression is, and what a statement is.
Without assembly the code generator accepts these terms and no others, whatever has been compiled
before them and wherever their code is to stand.
-/
namespace Dialogue

namespace Term

/-- The operators that leave a value, with the numbers of operands they accept. -/
def Takes (name : String) (count : Nat) : Prop :=
  (name ∈ ["gt", "lt", "eq"] ∧ count = 2) ∨ (name ∈ ["not", "inc", "dec"] ∧ count = 1) ∨
    (name ∈ ["and", "or", "+", "-", "*", "/", "concat"] ∧ 1 ≤ count)

def reserved : List String :=
  ["gt", "lt", "eq", "not", "and", "or", "+", "-", "*", "/", "inc", "dec", "concat", "set!",
    "while", "if", "do", "asm", "print", "choose"]

inductive Expression : Term → Prop where
  | symbol (span : Span) (name : String) : Expression (.symbol span name)
  | literal (span : Span) (v : Value) : Expression (.literal span v)
  | operation {span place : Span} {name : String} {operands : List Term}
      (takes : Takes name operands.length) (parts : ∀ t ∈ operands, Expression t) :
      Expression (.list span (.symbol place name :: operands))
  | conditional {span place : Span} {condition consequence alternative : Term}
      (test : Expression condition) (left : Expression consequence)
      (right : Expression alternative) :
      Expression (.list span [.symbol place "if", condition, consequence, alternative])

/-- Statements, `inside` a node or before the first. -/
inductive Statement (inside : Bool) : Term → Prop where
  | conditional {span place : Span} {condition consequence alternative : Term}
      (test : Expression condition) (left : Statement inside consequence)
      (right : Statement inside alternative) :
      Statement inside (.list span [.symbol place "if", condition, consequence, alternative])
  | assign {span place spot : Span} {target : String} {value : Term} (source : Expression value) :
      Statement inside (.list span [.symbol place "set!", .symbol spot target, value])
  | print {span place : Span} {line : Term} (text : Expression line) :
      Statement inside (.list span [.symbol place "print", line])
  | loop {span place : Span} {condition body : Term}
      (test : Expression condition) (inner : Statement inside body) :
      Statement inside (.list span [.symbol place "while", condition, body])
  | sequence {span place : Span} {operands : List Term} (nonempty : operands ≠ [])
      (parts : ∀ t ∈ operands, Statement inside t) :
      Statement inside (.list span (.symbol place "do" :: operands))
  | call {span place : Span} {name : String} {operands : List Term} (free : name ∉ reserved)
      (parts : ∀ t ∈ operands, Expression t) :
      Statement inside (.list span (.symbol place name :: operands))
  | choose {span place : Span} {operands : List Term} (within : inside = true)
      (nonempty : operands ≠ [])
      (options : ∀ t ∈ operands, ∃ whole text spot destination,
        t = .list whole [text, .symbol spot destination] ∧ Expression text) :
      Statement inside (.list span (.symbol place "choose" :: operands))

end Term

namespace Operator
variable {name : String} {o : Operator}

theorem name_of_ofName? (known : ofName? name = some o) : name = o.name := by
  have same := List.find?_some known
  exact (eq_of_beq same).symm

theorem ofName?_eq_none_iff : ofName? name = none ↔ name ∉ Term.reserved := by
  have names : Term.reserved = all.map Operator.name := rfl
  rw [names, ofName?, List.find?_eq_none, List.mem_map]
  simp

theorem takes_iff {count : Nat} : Term.Takes name count ↔
    ∃ o i, ofName? name = some o ∧ Form.instruction? o = some i ∧ o.arity.accepts count := by
  constructor
  · rintro (⟨mem, rfl⟩ | ⟨mem, rfl⟩ | ⟨mem, several⟩)
    · simp only [List.mem_cons, List.not_mem_nil, or_false] at mem
      rcases mem with rfl | rfl | rfl
      · exact ⟨.greaterThan, _, ofName?_name .greaterThan, rfl, rfl⟩
      · exact ⟨.lessThan, _, ofName?_name .lessThan, rfl, rfl⟩
      · exact ⟨.equal, _, ofName?_name .equal, rfl, rfl⟩
    · simp only [List.mem_cons, List.not_mem_nil, or_false] at mem
      rcases mem with rfl | rfl | rfl
      · exact ⟨.not, _, ofName?_name .not, rfl, rfl⟩
      · exact ⟨.increment, _, ofName?_name .increment, rfl, rfl⟩
      · exact ⟨.decrement, _, ofName?_name .decrement, rfl, rfl⟩
    · have counted : (Arity.atLeast 1).accepts count := decide_eq_true several
      simp only [List.mem_cons, List.not_mem_nil, or_false] at mem
      rcases mem with rfl | rfl | rfl | rfl | rfl | rfl | rfl
      · exact ⟨.and, _, ofName?_name .and, rfl, counted⟩
      · exact ⟨.or, _, ofName?_name .or, rfl, counted⟩
      · exact ⟨.add, _, ofName?_name .add, rfl, counted⟩
      · exact ⟨.subtract, _, ofName?_name .subtract, rfl, counted⟩
      · exact ⟨.multiply, _, ofName?_name .multiply, rfl, counted⟩
      · exact ⟨.divide, _, ofName?_name .divide, rfl, counted⟩
      · exact ⟨.concat, _, ofName?_name .concat, rfl, counted⟩
  · rintro ⟨o, i, known, operation, counted⟩
    rw [name_of_ofName? known]
    cases o <;> first
      | cases operation; done
      | exact Or.inl ⟨by decide, eq_of_beq counted⟩
      | exact Or.inr (Or.inl ⟨by decide, eq_of_beq counted⟩)
      | exact Or.inr (Or.inr ⟨by decide, of_decide_eq_true counted⟩)

end Operator

namespace Form
open Emit Operator
variable {node? : Option String} {t : Term} {k : Class}

/-! What is accepted is of the language. -/

theorem expression_of_wellFormed (formed : WellFormed node? k t) (expression : k = .expression) :
    t.Expression := by
  induction formed with
  | symbol span name => exact .symbol span name
  | literal span v => exact .literal span v
  | operation known operation counted _ parts =>
    exact .operation (takes_iff.mpr ⟨_, _, known, operation, counted⟩) fun t mem => parts t mem rfl
  | conditional known _ _ _ test left right =>
    rw [name_of_ofName? known]
    exact .conditional (test rfl) (left expression) (right expression)
  | assign | loop | sequence | print | call | choose | assembly => cases expression

theorem statement_of_wellFormed (formed : WellFormed node? k t) (statement : k = .statement)
    (plain : t.WithoutAssembly) : t.Statement node?.isSome := by
  induction formed with
  | symbol | literal | operation => cases statement
  | conditional known test _ _ _ left right =>
    have operand {u : Term} mem := Term.WithoutAssembly.operand (t := u) plain (by simp [known]) mem
    rw [name_of_ofName? known]
    exact .conditional (expression_of_wellFormed test rfl) (left statement (operand (by simp)))
      (right statement (operand (by simp)))
  | assign known source =>
    rw [name_of_ofName? known]
    exact .assign (expression_of_wellFormed source rfl)
  | loop known test _ _ inner =>
    have operand {u : Term} mem := Term.WithoutAssembly.operand (t := u) plain (by simp [known]) mem
    rw [name_of_ofName? known]
    exact .loop (expression_of_wellFormed test rfl) (inner rfl (operand (by simp)))
  | sequence known nonempty _ parts =>
    rw [name_of_ofName? known]
    exact .sequence nonempty fun t mem =>
      parts t mem rfl (Term.WithoutAssembly.operand plain (by simp [known]) mem)
  | print known text =>
    rw [name_of_ofName? known]
    exact .print (expression_of_wellFormed text rfl)
  | call unknown parts =>
    exact .call (ofName?_eq_none_iff.mp unknown) fun t mem =>
      expression_of_wellFormed (parts t mem) rfl
  | choose known inside nonempty shaped parts =>
    rw [name_of_ofName? known]
    refine .choose (by rw [inside]; rfl) nonempty fun t mem => ?_
    obtain ⟨whole, text, spot, target, rfl⟩ := shaped t mem
    exact ⟨whole, text, spot, target, rfl, expression_of_wellFormed (parts _ _ _ _ mem) rfl⟩
  | assembly known => exact absurd known (plain _ Term.mem_applications_self)

theorem not_statement_of_expression (expression : t.Expression) (formed : WellFormed node? k t) :
    k = .expression := by
  induction expression with
  | symbol | literal => cases formed; rfl
  | operation takes =>
    obtain ⟨o, i, known, operation, _⟩ := takes_iff.mp takes
    cases formed with
    | operation => rfl
    | conditional known' | assign known' | loop known' | sequence known' | print known'
    | choose known' | assembly known' =>
      cases known.symm.trans known'
      cases operation
    | call unknown => cases known.symm.trans unknown
  | conditional _ _ _ _ left =>
    have known : ofName? "if" = some .conditional := ofName?_name .conditional
    cases formed with
    | operation => rfl
    | conditional _ _ formed => exact left formed
    | sequence known' | choose known' | assembly known' => cases known.symm.trans known'
    | call unknown => cases known.symm.trans unknown

end Form

namespace Emit
variable {α β : Type} {a : α} {b : β} {e : Emit α} {k : α → Emit β}

def Gives (e : Emit α) (a : α) : Prop :=
  ∀ s, ∃ f, e s = (f, .ok a)

theorem gives_pure (a : α) : (pure a : Emit α).Gives a :=
  fun _ => ⟨_, rfl⟩

theorem gives_emit (i : Instruction) : (emit i).Gives () :=
  fun _ => ⟨_, rfl⟩

theorem gives_refer (i : Instruction) (target : String) (span : Span) :
    (refer i target span).Gives () :=
  fun _ => ⟨_, rfl⟩

theorem Gives.bind (first : e.Gives a) (second : (k a).Gives b) : (e >>= k).Gives b := by
  intro s
  obtain ⟨f, front⟩ := first s
  obtain ⟨g, back⟩ := second (s.after f)
  refine ⟨f ++ g, ?_⟩
  rw [bind_apply, front]
  simp only [back]

theorem gives_loop {condition body : Emit Unit} (test : condition.Gives ())
    (inner : body.Gives ()) :
    (loop condition body).Gives () := by
  intro s
  obtain ⟨f, front⟩ := test s
  obtain ⟨g, back⟩ := inner ((s.after f).after (.one (.jumpIfFalse 0)))
  rw [loop_apply, front]
  simp only [back]
  exact ⟨_, rfl⟩

theorem gives_branches {alternative : α → Emit Unit} (left : e.Gives a)
    (right : (alternative a).Gives ()) :
    (branches e alternative).Gives a := by
  intro s
  obtain ⟨f, front⟩ := left (s.after (.one (.jumpIfFalse 0)))
  obtain ⟨g, back⟩ := right ((s.after (.one (.jumpIfFalse 0))).after (f ++ .one (.jump 0)))
  unfold branches
  simp only [front, back]
  exact ⟨_, rfl⟩

end Emit

namespace Form
open Emit Operator
variable {node? : Option String} {t : Term} {ts : List Term} {k : Class} {span place : Span}
  {name : String}

/-! What is of the language is accepted. -/

theorem gives_require {code : Emit Class} (gives : code.Gives k) :
    (require k span code).Gives () := by
  refine Gives.bind gives ?_
  rw [if_pos rfl]
  exact gives_pure ()

theorem gives_inOrder (parts : ∀ t ∈ ts, (walk node? t).Gives k) :
    (inOrder node? k ts).Gives () := by
  induction ts with
  | nil => exact gives_pure ()
  | cons t ts ih =>
    have first := parts t List.mem_cons_self
    exact (gives_require first).bind (ih fun u mem => parts u (List.mem_cons_of_mem t mem))

theorem gives_folded (i : Instruction) (further : Bool)
    (parts : ∀ t ∈ ts, (walk node? t).Gives .expression) :
    (folded node? i further ts).Gives () := by
  induction ts generalizing further with
  | nil => exact gives_pure ()
  | cons t ts ih =>
    have first := parts t List.mem_cons_self
    have later := ih true fun u mem => parts u (List.mem_cons_of_mem t mem)
    rw [folded]
    refine (gives_require first).bind ?_
    cases further with
    | false => exact later
    | true => exact (gives_emit i).bind later

theorem gives_options (parts : ∀ t ∈ ts, ∃ whole text spot destination,
      t = .list whole [text, .symbol spot destination] ∧ (walk node? text).Gives .expression) :
    (options node? ts).Gives () := by
  induction ts with
  | nil => exact gives_pure ()
  | cons t ts ih =>
    obtain ⟨whole, text, spot, destination, rfl, first⟩ := parts t List.mem_cons_self
    have later := ih fun u mem => parts u (List.mem_cons_of_mem _ mem)
    rw [options]
    exact (gives_require first).bind ((gives_refer _ _ _).bind later)

theorem form_unary {o : Operator} {i : Instruction} (known : ofName? name = some o)
    (operation : instruction? o = some i) (counted : o.arity.accepts 1) (operand : Term) :
    form node? span [.symbol place name, operand] = (do
      require .expression operand.span (walk node? operand)
      if o.isVariadic then pure () else emit i
      pure .expression) := by
  unfold form
  rw [known]
  cases o <;> cases operation <;> first | rfl | cases counted

theorem form_folded {o : Operator} {i : Instruction} (known : ofName? name = some o)
    (operation : instruction? o = some i) (counted : o.arity.accepts ts.length)
    (several : ts.length ≠ 1) :
    form node? span (.symbol place name :: ts) = (do
      folded node? i false ts
      pure .expression) := by
  unfold form
  rw [known]
  simp only [counted, Bool.not_true, Bool.false_eq_true, if_false]
  rcases ts with _ | ⟨t, _ | ⟨u, ts⟩⟩
  · cases o <;> cases operation <;> rfl
  · exact absurd rfl several
  · cases o <;> cases operation <;> rfl

theorem gives_operation {o : Operator} {i : Instruction} (known : ofName? name = some o)
    (operation : instruction? o = some i) (counted : o.arity.accepts ts.length)
    (parts : ∀ t ∈ ts, (walk node? t).Gives .expression) :
    (form node? span (.symbol place name :: ts)).Gives .expression := by
  by_cases single : ts.length = 1
  · obtain ⟨operand, rfl⟩ := List.length_eq_one_iff.mp single
    have first := parts operand (List.mem_singleton.mpr rfl)
    rw [form_unary known operation counted]
    refine (gives_require first).bind ?_
    cases o.isVariadic with
    | true => exact gives_pure _
    | false => exact (gives_emit i).bind (gives_pure _)
  · rw [form_folded known operation counted single]
    exact (gives_folded i false parts).bind (gives_pure _)

theorem form_call (unknown : ofName? name = none) : form node? span (.symbol place name :: ts) = (do
    inOrder node? .expression ts
    emit (.call name)
    pure .statement) := by
  unfold form
  rw [unknown, arguments_eq]

theorem form_assign {spot : Span} {target : String} {value : Term} :
    form node? span [.symbol place "set!", .symbol spot target, value] = (do
      require .expression value.span (walk node? value)
      emit (.storeVariable target)
      pure .statement) := rfl

theorem form_print {line : Term} : form node? span [.symbol place "print", line] = (do
    require .expression line.span (walk node? line)
    emit .showLine
    pure .statement) := rfl

theorem form_loop {condition body : Term} :
    form node? span [.symbol place "while", condition, body] = (do
    Emit.loop (require .expression condition.span (walk node? condition))
      (require .statement body.span (walk node? body))
    pure .statement) := rfl

theorem form_conditional {condition consequence alternative : Term} :
    form node? span [.symbol place "if", condition, consequence, alternative] = (do
      require .expression condition.span (walk node? condition)
      branches (walk node? consequence) fun wanted =>
        require wanted alternative.span (walk node? alternative)) := rfl

theorem form_sequence (nonempty : ts ≠ []) : form node? span (.symbol place "do" :: ts) = (do
    inOrder node? .statement ts
    pure .statement) := by
  cases ts with
  | nil => exact absurd rfl nonempty
  | cons t ts =>
    rw [← statements_eq]
    rfl

theorem form_choose {node : String} (nonempty : ts ≠ []) :
    form (some node) span (.symbol place "choose" :: ts) = (do
      options (some node) ts
      emit (.showChoice node)
      pure .statement) := by
  cases ts with
  | nil => exact absurd rfl nonempty
  | cons => rfl

theorem gives_conditional {condition consequence alternative : Term}
    (test : (walk node? condition).Gives .expression) (left : (walk node? consequence).Gives k)
    (right : (walk node? alternative).Gives k) :
    (form node? span [.symbol place "if", condition, consequence, alternative]).Gives k := by
  rw [form_conditional]
  exact (gives_require test).bind (gives_branches left (gives_require right))

theorem gives_of_expression (node? : Option String) (expression : t.Expression) :
    (walk node? t).Gives .expression := by
  induction expression with
  | symbol => exact (gives_emit _).bind (gives_pure _)
  | literal => exact (gives_emit _).bind (gives_pure _)
  | operation takes _ parts =>
    obtain ⟨o, i, known, operation, counted⟩ := takes_iff.mp takes
    rw [walk]
    exact gives_operation known operation counted parts
  | conditional _ _ _ test left right =>
    rw [walk]
    exact gives_conditional test left right

theorem gives_of_statement (statement : t.Statement node?.isSome) :
    (walk node? t).Gives .statement := by
  induction statement with
  | conditional test _ _ left right =>
    rw [walk]
    exact gives_conditional (gives_of_expression node? test) left right
  | assign source =>
    rw [walk, form_assign]
    exact (gives_require (gives_of_expression node? source)).bind
      ((gives_emit _).bind (gives_pure _))
  | print text =>
    rw [walk, form_print]
    exact (gives_require (gives_of_expression node? text)).bind ((gives_emit _).bind (gives_pure _))
  | loop test _ inner =>
    rw [walk, form_loop]
    have condition := gives_of_expression node? test
    exact (gives_loop (gives_require condition) (gives_require inner)).bind (gives_pure _)
  | sequence nonempty _ parts =>
    rw [walk, form_sequence nonempty]
    exact (gives_inOrder parts).bind (gives_pure _)
  | call free parts =>
    rw [walk, form_call (ofName?_eq_none_iff.mpr free)]
    have arguments := gives_inOrder fun t mem => gives_of_expression node? (parts t mem)
    exact arguments.bind ((gives_emit _).bind (gives_pure _))
  | choose within nonempty shaped =>
    obtain ⟨node, rfl⟩ := Option.isSome_iff_exists.mp within
    rw [walk, form_choose nonempty]
    have texts := gives_options fun t mem => by
      obtain ⟨whole, text, spot, destination, same, expression⟩ := shaped t mem
      exact ⟨whole, text, spot, destination, same, gives_of_expression (some node) expression⟩
    exact texts.bind ((gives_emit _).bind (gives_pure _))

end Form

namespace Draft
open Form
variable {d : Draft} {t : Term}

theorem wellFormed_of_run {wanted : Class}
    (accepted : (d.run (require wanted t.span (walk d.node? t))).1 = .ok ()) :
    WellFormed d.node? wanted t :=
  wellFormed_of_require (wellFormed_of_walk d.node? t) (Prod.ext rfl accepted)

theorem run_of_gives {wanted : Class} (gives : (walk d.node? t).Gives wanted) :
    (d.run (require wanted t.span (walk d.node? t))).1 = .ok () := by
  obtain ⟨f, made⟩ := gives_require gives d.site
  unfold run
  rw [made]

/-- A term is accepted as an expression when it is one and, where it lists no instructions, as a
statement when it is one, whatever draft it is added to. Nothing is accepted as both. -/
theorem accepts_exactly (d : Draft) (t : Term) :
    ((d.expression t).1 = .ok () ↔ t.Expression) ∧
    (t.WithoutAssembly → ((d.statement t).1 = .ok () ↔ t.Statement d.node?.isSome)) ∧
    ∀ d' : Draft, ¬ ((d.expression t).1 = .ok () ∧ (d'.statement t).1 = .ok ()) := by
  refine ⟨⟨?_, ?_⟩, fun plain => ⟨?_, ?_⟩, ?_⟩
  · intro accepted
    exact expression_of_wellFormed (wellFormed_of_run accepted) rfl
  · intro expression
    exact run_of_gives (gives_of_expression d.node? expression)
  · intro accepted
    exact statement_of_wellFormed (wellFormed_of_run accepted) rfl plain
  · intro statement
    exact run_of_gives (gives_of_statement statement)
  · rintro d' ⟨first, second⟩
    have expression := expression_of_wellFormed (wellFormed_of_run first) rfl
    cases not_statement_of_expression expression (wellFormed_of_run second)

/-- A menu in one branch of a conditional and a call in the other: a statement, but only inside a
node. -/
theorem accepts_exactly_menu :
    let symbol (name : String) : Term := .symbol default name
    let list (items : List Term) : Term := .list default items
    let option := list [.literal default (.string "Stay"), symbol "A"]
    let t := list [symbol "if", list [symbol "not", symbol "a"], list [symbol "choose", option],
      list [symbol "leave", symbol "a"]]
    t.WithoutAssembly ∧ t.Statement true ∧ ¬ t.Statement false ∧ ¬ t.Expression := by
  intro symbol list option t
  have plain : t.WithoutAssembly := by decide
  have within := accepts_exactly { empty with node? := some "A" } t
  have before := accepts_exactly empty t
  refine ⟨plain, (within.2.1 plain).mp rfl, fun statement => ?_, fun expression => ?_⟩
  · cases (before.2.1 plain).mpr statement
  · cases within.1.mpr expression

end Draft
end Dialogue
