import Dialogue.Code.Form

/-!
A draft gathers the code of a dialogue while it is being compiled, with the node that is open. Terms
and single instructions are added at its end; jumps already in it can be pointed elsewhere.
-/
namespace Dialogue

structure Draft extends Fragment where
  node? : Option String
deriving DecidableEq, Repr

namespace Draft

def empty : Draft :=
  { Fragment.empty with node? := none }

def size (d : Draft) : Nat :=
  d.code.length

def site (d : Draft) : Site :=
  ⟨d.size, d.labels⟩

/-- Adds what an emitter makes for the end of the draft, also when it then fails. -/
def run {α : Type} (d : Draft) (e : Emit α) : Except Problem α × Draft :=
  let (f, r) := e d.site
  (r, { d with toFragment := d.toFragment ++ f })

def expression (d : Draft) (t : Term) : Except Problem Unit × Draft :=
  d.run (Form.expression d.node? t)

def statement (d : Draft) (t : Term) : Except Problem Unit × Draft :=
  d.run (Form.statement d.node? t)

def define (d : Draft) (name : String) (span : Span) : Except Problem Unit × Draft :=
  d.run (Emit.define name span)

def emit (d : Draft) (i : Instruction) : Draft :=
  (d.run (Emit.emit i)).2

def refer (d : Draft) (i : Instruction) (target : String) (span : Span) : Draft :=
  (d.run (Emit.refer i target span)).2

/-- Points the jump or choice at `address` to `target`; nothing happens where there is none. -/
def patch (d : Draft) (address target : Nat) : Draft :=
  { d with code := d.code.modify address fun i => (i.retarget? target).getD i }

end Draft
end Dialogue
