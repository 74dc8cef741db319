import Dialogue.Code.Assembly

/-!
Code for terms. An expression leaves exactly one value on the stack, a statement leaves the stack as
it found it; a conditional is whichever its consequence is. Operands are compiled in the order in
which they are written.
-/
namespace Dialogue.Form
open Emit

/-- The instruction that pushes a literal. A literal symbol is a variable. -/
def push : Value → Instruction
  | .string s => .pushString s
  | .number x => .pushNumber x
  | .boolean b => .pushBool b
  | .nil => .pushNull
  | .symbol name => .loadVariable name

def instruction? (o : Operator) : Option Instruction :=
  o.opcode?.bind Instruction.ofOpcode?

def require (wanted : Class) (span : Span) (code : Emit Class) : Emit Unit := do
  let found ← code
  if found = wanted then pure ()
  else match wanted with
    | .expression => fail .expectedExpression span
    | .statement => fail .expectedStatement span

mutual

/-- The code of a term inside the node `node?`, if any, and its class. -/
def walk (node? : Option String) : Term → Emit Class
  | .symbol _ name => do
    emit (.loadVariable name)
    pure .expression
  | .literal _ v => do
    emit (push v)
    pure .expression
  | .list span items => form node? span items

def form (node? : Option String) (span : Span) : List Term → Emit Class
  | [] => fail .emptyForm span
  | .symbol _ name :: operands =>
    match Operator.ofName? name with
    | none => do
      arguments node? operands
      emit (.call name)
      pure .statement
    | some o =>
      let miscounted := fail (.operandCount o operands.length) span
      if !o.arity.accepts operands.length then miscounted
      else match o with
        | .assign =>
          match operands with
          | [.symbol _ target, value] => do
            require .expression value.span (walk node? value)
            emit (.storeVariable target)
            pure o.formClass
          | target :: _ => fail .assignTarget target.span
          | [] => miscounted
        | .whileLoop =>
          match operands with
          | [condition, body] => do
            loop (require .expression condition.span (walk node? condition))
              (require .statement body.span (walk node? body))
            pure o.formClass
          | _ => miscounted
        | .conditional =>
          match operands with
          | [condition, consequence, alternative] => do
            require .expression condition.span (walk node? condition)
            branches (walk node? consequence) fun wanted =>
              require wanted alternative.span (walk node? alternative)
          | _ => miscounted
        | .sequence => do
          statements node? operands
          pure o.formClass
        | .print =>
          match operands with
          | [line] => do
            require .expression line.span (walk node? line)
            emit .showLine
            pure o.formClass
          | _ => miscounted
        | .choose =>
          match node? with
          | none => fail .chooseOutsideNode span
          | some node => do
            options node? operands
            emit (.showChoice node)
            pure o.formClass
        | .assembly => do
          Assembly.elements operands
          pure o.formClass
        | o =>
          match instruction? o with
          | none => miscounted
          | some i =>
            match operands with
            | [operand] => do
              require .expression operand.span (walk node? operand)
              if o.isVariadic then pure () else emit i
              pure o.formClass
            | operands => do
              folded node? i false operands
              pure o.formClass
  | head :: _ => fail .headNotName head.span

/-- Every operand in order, `i` after each but the first. -/
def folded (node? : Option String) (i : Instruction) (further : Bool) : List Term → Emit Unit
  | [] => pure ()
  | t :: ts => do
    require .expression t.span (walk node? t)
    if further then emit i
    folded node? i true ts

def arguments (node? : Option String) : List Term → Emit Unit
  | [] => pure ()
  | t :: ts => do
    require .expression t.span (walk node? t)
    arguments node? ts

def statements (node? : Option String) : List Term → Emit Unit
  | [] => pure ()
  | t :: ts => do
    require .statement t.span (walk node? t)
    statements node? ts

def options (node? : Option String) : List Term → Emit Unit
  | [] => pure ()
  | .list _ [text, destination] :: ts =>
    match destination with
    | .symbol span name => do
      require .expression text.span (walk node? text)
      refer (.pushChoice 0) name span
      options node? ts
    | _ => fail .optionDestination destination.span
  | t :: _ => fail .optionShape t.span

end

/-- Code for a term that must leave exactly one value. -/
def expression (node? : Option String) (t : Term) : Emit Unit :=
  require .expression t.span (walk node? t)

/-- Code for a term that must leave the stack as it found it. -/
def statement (node? : Option String) (t : Term) : Emit Unit :=
  require .statement t.span (walk node? t)

end Dialogue.Form
