import Dialogue.Term.Basic
import Dialogue.Term.Lexer

/-!
Nesting tokens into terms. Tokens are taken one by one; each opening bracket starts a group and each
closing bracket must match the innermost group still open, which then becomes a list.
-/
namespace Dialogue

namespace Reader

/-- A group still open, its terms so far in reverse. -/
structure Group where
  delimiter : Delimiter
  span : Span
  items : List Term

/-- The groups still open, innermost first, and the terms outside all groups, in reverse. -/
structure Nesting where
  groups : List Group
  items : List Term

def Nesting.empty : Nesting :=
  ⟨[], []⟩

def Nesting.put (n : Nesting) (t : Term) : Nesting :=
  match n.groups with
  | [] => { n with items := t :: n.items }
  | g :: gs => { n with groups := { g with items := t :: g.items } :: gs }

def Nesting.close (n : Nesting) (d : Delimiter) (span : Span) : Except Problem Nesting :=
  match n.groups with
  | [] => .error { cause := .unexpectedClosing d, span }
  | g :: gs =>
    if g.delimiter = d then
      .ok (Nesting.put ⟨gs, n.items⟩ (.list (g.span.cover span) g.items.reverse))
    else .error { cause := .mismatched g.delimiter d, span := g.span, second? := some span }

def Nesting.take (n : Nesting) (l : Lexeme) : Except Problem Nesting :=
  match l.token with
  | .opening d => .ok ⟨⟨d, l.span, []⟩ :: n.groups, n.items⟩
  | .closing d => n.close d l.span
  | .symbol name => .ok (n.put (.symbol l.span name))
  | .literal v => .ok (n.put (.literal l.span v))

def Nesting.finish (n : Nesting) : Except Problem (List Term) :=
  match n.groups with
  | [] => .ok n.items.reverse
  | g :: _ => .error { cause := .unclosed g.delimiter, span := g.span }

def readAll (ls : List Lexeme) : Except Problem (List Term) := do
  let n ← ls.foldlM Nesting.take Nesting.empty
  n.finish

def single (snippet : Span) : List Term → Except Problem Term
  | [] => .error { cause := .noTerm, span := snippet }
  | [t] => .ok t
  | _ :: t :: ts =>
    .error { cause := .severalTerms, span := (ts.map Term.span).foldl Span.cover t.span }

end Reader

def Term.readAll (s : Span) : Except Problem (List Term) := do
  let ls ← Lexer.lex s
  Reader.readAll ls

def Term.read (s : Span) : Except Problem Term := do
  let ts ← Term.readAll s
  Reader.single s ts

end Dialogue
