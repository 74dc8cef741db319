import Dialogue.Markdown.Line

/-!
Tags, comments and the other HTML constructs, in lines and at the start of blocks. The functions on
characters answer with the number of characters that the construct takes.
-/
namespace Dialogue.Markdown.Html

def isNameStart (c : Char) : Bool :=
  c.isAlpha

def isNameChar (c : Char) : Bool :=
  c.isAlphanum || c == '-'

def isSpace (c : Char) : Bool :=
  isGap c || isLineEnd c

/-- What follows the first `mark`, if it occurs. -/
def after? (mark : List Char) : List Char → Option (List Char)
  | [] => if mark = [] then some [] else none
  | c :: cs =>
    if mark.isPrefixOf (c :: cs) then some ((c :: cs).drop mark.length) else after? mark cs

def isAttributeStart (c : Char) : Bool :=
  c.isAlpha || c == '_' || c == ':'

def isAttributeChar (c : Char) : Bool :=
  c.isAlphanum || c == '_' || c == ':' || c == '.' || c == '-'

def isUnquoted (c : Char) : Bool :=
  !isSpace c && !(['"', '\x27', '=', '<', '>', '\x60'].contains c)

def value? : List Char → Option (List Char)
  | '"' :: cs => after? ['"'] cs
  | '\x27' :: cs => after? ['\x27'] cs
  | cs =>
    let rest := cs.dropWhile isUnquoted
    if rest.length < cs.length then some rest else none

def attributes? : Nat → List Char → Option (List Char)
  | 0, _ => none
  | fuel + 1, cs =>
    let here := cs.dropWhile isSpace
    match here with
    | [] => none
    | c :: rest =>
      if c = '>' ∨ c = '/' then some here
      else if here.length = cs.length ∨ !isAttributeStart c then none
      else
        let rest := rest.dropWhile isAttributeChar
        match rest.dropWhile isSpace with
        | '=' :: v =>
          match value? (v.dropWhile isSpace) with
          | some rest => attributes? fuel rest
          | none => none
        | _ => attributes? fuel rest

def tag? : List Char → Option (List Char)
  | '<' :: '/' :: c :: cs =>
    if isNameStart c then
      match (cs.dropWhile isNameChar).dropWhile isSpace with
      | '>' :: rest => some rest
      | _ => none
    else none
  | '<' :: c :: cs =>
    if isNameStart c then
      match attributes? (cs.length + 1) (cs.dropWhile isNameChar) with
      | some ('>' :: rest) => some rest
      | some ('/' :: '>' :: rest) => some rest
      | _ => none
    else none
  | _ => none

/-- What follows a construct within a line of text. -/
def inline? : List Char → Option (List Char)
  | '<' :: '!' :: '-' :: '-' :: '>' :: rest => some rest
  | '<' :: '!' :: '-' :: '-' :: '-' :: '>' :: rest => some rest
  | '<' :: '!' :: '-' :: '-' :: cs => after? ['-', '-', '>'] cs
  | '<' :: '!' :: '[' :: 'C' :: 'D' :: 'A' :: 'T' :: 'A' :: '[' :: cs => after? [']', ']', '>'] cs
  | '<' :: '!' :: c :: cs => if c.isAlpha then after? ['>'] cs else none
  | '<' :: '?' :: cs => after? ['?', '>'] cs
  | cs => tag? cs

/-- How a block of HTML ends: after a line with a mark in it, or before a blank line. -/
inductive Ending where
  | after (mark : List Char)
  | blank
deriving DecidableEq, Repr

def rawNames : List String :=
  ["pre", "style", "script", "textarea"]

def blockNames : List String :=
  ["address", "article", "aside", "base", "basefont", "blockquote", "body", "caption", "center",
    "col", "colgroup", "dd", "details", "dialog", "dir", "div", "dl", "dt", "fieldset",
    "figcaption", "figure", "footer", "form", "frame", "frameset", "h1", "h2", "h3", "h4", "h5",
    "h6", "head", "header", "hr", "html", "iframe", "legend", "li", "link", "main", "menu",
    "menuitem", "nav", "noframes", "ol", "optgroup", "option", "p", "param", "search", "section",
    "summary", "table", "tbody", "td", "tfoot", "th", "thead", "title", "tr", "track", "ul"]

def lowerName (cs : List Char) : String :=
  String.ofList ((cs.takeWhile Char.isAlphanum).map Char.toLower)

def marked? (cs : List Char) : Option Ending :=
  let name := lowerName cs
  let next := (cs.dropWhile Char.isAlphanum).head?
  if rawNames.contains name && next.all (fun c => isSpace c || c == '>') then
    some (.after (['<', '/'] ++ name.toList ++ ['>']))
  else match cs with
    | '!' :: '-' :: '-' :: _ => some (.after ['-', '-', '>'])
    | '?' :: _ => some (.after ['?', '>'])
    | '!' :: '[' :: 'C' :: 'D' :: 'A' :: 'T' :: 'A' :: '[' :: _ => some (.after [']', ']', '>'])
    | '!' :: c :: _ => if c.isAlpha then some (.after ['>']) else none
    | _ => none

def isBlockTag (cs : List Char) : Bool :=
  let cs := match cs with
    | '/' :: cs => cs
    | cs => cs
  blockNames.contains (lowerName cs) &&
    match cs.dropWhile Char.isAlphanum with
    | [] => true
    | '/' :: '>' :: _ => true
    | c :: _ => isSpace c || c == '>'

/-- How a block that starts with the line `cs` ends, if the line starts one. A tag of any other
element starts a block when it stands alone on its line, but not within a paragraph. -/
def block? (inParagraph : Bool) : List Char → Option Ending
  | '<' :: cs =>
    match marked? cs with
    | some e => some e
    | none =>
      if isBlockTag cs then some .blank
      else if inParagraph then none
      else match tag? ('<' :: cs) with
        | some rest => if rest.all isGap then some .blank else none
        | none => none
  | _ => none

end Dialogue.Markdown.Html
