import Dialogue.Markdown.Event
import Dialogue.Markdown.Line

/-!
Emphasis. The text of a paragraph is first cut into runs of markers and everything else; then each
run that can close emphasis is matched with the nearest run before it that can open it, strong
emphasis first.
-/
namespace Dialogue.Markdown

/-- A run of markers. Runs are matched by the lengths they had at first. -/
structure Run where
  mark : Char
  count : Nat
  length : Nat
  canOpen : Bool
  canClose : Bool
  start : Nat
deriving DecidableEq, Repr

inductive Inline where
  | leaf (e : Event) (start stop : Nat)
  | run (r : Run)
  /-- The opening bracket of a link or an image, and what follows it. -/
  | bracket (image active : Bool) (start stop : Nat) (after : List Glyph)
  | wrap (t : Tag) (start stop : Nat) (inner : List Inline)
deriving Inhabited

namespace Inline

def text (cs : List Char) (start stop : Nat) : Inline :=
  .leaf (.text cs) start stop

/-- Runs and brackets that found no partner are text. -/
def settle : Inline → Inline
  | .run r => text (List.replicate r.count r.mark) r.start (r.start + r.count)
  | .bracket image _ start stop _ => text (if image then ['!', '['] else ['[']) start stop
  | i => i

def weight : Inline → Nat
  | .run r => r.count + 1
  | _ => 1

end Inline

namespace Run

/-- Runs that can both open and close match only if their lengths do not add up to a multiple of
three, or both are one. -/
def matching (opener closer : Run) : Bool :=
  opener.mark == closer.mark && opener.canOpen &&
    ((!(opener.canOpen && opener.canClose) && !(closer.canOpen && closer.canClose)) ||
      (opener.length + closer.length) % 3 != 0 || closer.length % 3 == 0)

end Run

/-- The nearest part of `before`, which is reversed, that matches `closer`: the run, what stands
between in order, and what stands before it. -/
def opener? (closer : Run) (between : List Inline) :
    List Inline → Option (Run × List Inline × List Inline)
  | [] => none
  | .run r :: before =>
    if r.matching closer then some (r, between, before)
    else opener? closer (.run r :: between) before
  | i :: before => opener? closer (i :: between) before

/-- Matches the runs of a list of parts; `before` is reversed. A match uses up markers, so the
weight of what is left falls. -/
def emphasizeFrom : Nat → List Inline → List Inline → List Inline
  | 0, before, rest => (before.reverse ++ rest).map Inline.settle
  | _, before, [] => before.reverse.map Inline.settle
  | fuel + 1, before, .run r :: rest =>
    if !r.canClose then emphasizeFrom fuel (.run r :: before) rest
    else match opener? r [] before with
      | none =>
        let i := if r.canOpen then .run r else Inline.settle (.run r)
        emphasizeFrom fuel (i :: before) rest
      | some (o, between, before) =>
        let n := if 2 ≤ o.count ∧ 2 ≤ r.count then 2 else 1
        let tag := if n = 2 then Tag.strong else .emphasis
        let whole :=
          .wrap tag (o.start + o.count - n) (r.start + n) (between.map Inline.settle)
        let before :=
          if o.count = n then before else .run { o with count := o.count - n } :: before
        if r.count = n then emphasizeFrom fuel (whole :: before) rest
        else emphasizeFrom fuel (whole :: before)
          (.run { r with count := r.count - n, start := r.start + n } :: rest)
  | fuel + 1, before, i :: rest => emphasizeFrom fuel (i :: before) rest

def emphasize (is : List Inline) : List Inline :=
  emphasizeFrom (is.foldl (fun n i => n + i.weight) 1) [] is

end Dialogue.Markdown
