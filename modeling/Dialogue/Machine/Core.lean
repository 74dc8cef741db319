import Dialogue.Machine.Fault

/-!
What an instruction does to a machine's memory, and what it asks of the world outside. Memory is
changed before the host is asked, so that no answer can change what an instruction did. Operands are
taken off the stack one by one, the topmost first, and what was taken off before a fault stays off.
-/
namespace Dialogue.Machine

/-- Variables with the value stored last, in the order in which they were first stored. -/
structure Variables where
  entries : List (String × Value)
deriving DecidableEq, Repr, Inhabited

namespace Variables

def empty : Variables :=
  ⟨[]⟩

def get? (vs : Variables) (name : String) : Option Value :=
  vs.entries.lookup name

def insert (name : String) (v : Value) : List (String × Value) → List (String × Value)
  | [] => [(name, v)]
  | e :: es => if e.1 = name then (name, v) :: es else e :: insert name v es

def set (vs : Variables) (name : String) (v : Value) : Variables :=
  ⟨insert name v vs.entries⟩

theorem get?_set (vs : Variables) (name other : String) (v : Value) :
    (vs.set name v).get? other = if other = name then some v else vs.get? other := by
  obtain ⟨es⟩ := vs
  simp only [get?, set]
  induction es with
  | nil => grind [insert]
  | cons e es ih => grind [insert]

end Variables

/-- An option of the menu being put together, with the address it leads to. -/
structure Choice where
  text : String
  target : Nat
deriving DecidableEq, Repr

structure Core where
  /-- Address of the next instruction. -/
  pc : Nat
  /-- The topmost value first. -/
  stack : List Value
  store : Variables
  choices : List Choice
  /-- The node entered last. -/
  node? : Option String
deriving DecidableEq, Repr

inductive Request where
  | nothing
  | enter (node : String)
  | leave (node : String)
  | line (text : String)
  | menu (texts : List String)
  | finish
  | call (name : String) (arguments : List Value)
deriving DecidableEq, Repr

abbrev Signatures :=
  String → Option (List Kind)

abbrev Effect :=
  Except Fault Request × Core

namespace Core

def start (address : Nat) : Core :=
  ⟨address, [], .empty, [], none⟩

def proceed (c : Core) : Effect :=
  (.ok .nothing, c)

def push (c : Core) (v : Value) : Effect :=
  ({ c with stack := v :: c.stack } : Core).proceed

def fault (c : Core) (f : Fault) : Effect :=
  (.error f, c)

def pop (c : Core) (k : Value → Core → Effect) : Effect :=
  match c.stack with
  | [] => c.fault (.stackUnderflow 1 0)
  | v :: rest => k v { c with stack := rest }

def popAs {α : Type} (kind : Kind) (as? : Value → Option α) (c : Core)
    (k : α → Core → Effect) : Effect :=
  c.pop fun v c => match as? v with
    | some a => k a c
    | none => c.fault (.typeMismatch kind v.kind)

/-- Takes the two topmost values off, the later one first, and pushes what comes of them. -/
def popTwo {α : Type} (kind : Kind) (as? : Value → Option α) (c : Core) (f : α → α → Value) :
    Effect :=
  c.popAs kind as? fun y c => c.popAs kind as? fun x c => c.push (f x y)

def mismatch? (index : Nat) : List Value → List Kind → Option (Nat × Kind × Kind)
  | v :: vs, k :: ks =>
    if v.kind = k then mismatch? (index + 1) vs ks else some (index, k, v.kind)
  | _, _ => none

/-- Arguments are checked, the deepest first, before any is taken off. -/
def call (signatures : Signatures) (name : String) (c : Core) : Effect :=
  match signatures name with
  | none => c.fault (.unknownFunction name)
  | some kinds =>
    if c.stack.length < kinds.length then c.fault (.arity name kinds.length c.stack.length)
    else
      let arguments := (c.stack.take kinds.length).reverse
      match mismatch? 0 arguments kinds with
      | some (index, expected, found) => c.fault (.argumentType name index expected found)
      | none => (.ok (.call name arguments), { c with stack := c.stack.drop kinds.length })

def perform (signatures : Signatures) (c : Core) : Instruction → Effect
  | .pushString s => c.push (.string s)
  | .pushNumber x => c.push (.number x)
  | .pushBool b => c.push (.boolean b)
  | .pushNull => c.push .nil
  | .popValue => c.pop fun _ c => c.proceed
  | .concat => c.pop fun top c => c.pop fun below c => c.push (.string (top.text ++ below.text))
  | .and => c.popTwo .boolean Value.boolean? fun x y => .boolean (x && y)
  | .or => c.popTwo .boolean Value.boolean? fun x y => .boolean (x || y)
  | .not => c.popAs .boolean Value.boolean? fun b c => c.push (.boolean !b)
  | .equal => c.pop fun y c => c.pop fun x c => c.push (.boolean (x.equal y))
  | .greaterThan => c.popTwo .number Value.number? fun x y => .boolean (y < x)
  | .lessThan => c.popTwo .number Value.number? fun x y => .boolean (x < y)
  | .add => c.popTwo .number Value.number? fun x y => .number (x + y)
  | .subtract => c.popTwo .number Value.number? fun x y => .number (x - y)
  | .multiply => c.popTwo .number Value.number? fun x y => .number (x * y)
  | .divide => c.popTwo .number Value.number? fun x y => .number (x / y)
  | .increment => c.popAs .number Value.number? fun x c => c.push (.number (x + 1))
  | .decrement => c.popAs .number Value.number? fun x c => c.push (.number (x + -1))
  | .loadVariable name => c.push ((c.store.get? name).getD .nil)
  | .storeVariable name => c.pop fun v c =>
    ({ c with store := c.store.set name v } : Core).proceed
  | .showLine => c.popAs .string Value.string? fun s c => (.ok (.line s), c)
  | .jump address => ({ c with pc := address } : Core).proceed
  | .jumpIfFalse address => c.popAs .boolean Value.boolean? fun b c =>
    (if b then c else { c with pc := address }).proceed
  | .pushChoice address => c.popAs .string Value.string? fun s c =>
    ({ c with choices := c.choices ++ [⟨s, address⟩] } : Core).proceed
  | .showChoice _ => (.ok (.menu (c.choices.map Choice.text)), c)
  | .enterNode node => (.ok (.enter node), { c with node? := some node })
  | .exitNode node => (.ok (.leave node), c)
  | .endDialogue => (.ok .finish, c)
  | .call name => c.call signatures name

/-- The effect of an instruction; too shallow a stack is left alone. -/
def execute (signatures : Signatures) (c : Core) (i : Instruction) : Effect :=
  let needed := i.opcode.stackNeeded
  if c.stack.length < needed then c.fault (.stackUnderflow needed c.stack.length)
  else c.perform signatures i

theorem execute_of_shallow {c : Core} {i : Instruction} {signatures : Signatures}
    (shallow : c.stack.length < i.opcode.stackNeeded) : c.execute signatures i =
      (.error (.stackUnderflow i.opcode.stackNeeded c.stack.length), c) :=
  if_pos shallow

theorem execute_of_deep {c : Core} {i : Instruction} {signatures : Signatures}
    (deep : i.opcode.stackNeeded ≤ c.stack.length) :
    c.execute signatures i = c.perform signatures i :=
  if_neg (Nat.not_lt.mpr deep)

end Core
end Dialogue.Machine
