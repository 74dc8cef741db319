import Dialogue.Markdown.Emphasis
import Dialogue.Markdown.Html
import Dialogue.Markdown.Reference
import Dialogue.Text.Blank
import Dialogue.Text.Bytes

/-!
The text of paragraphs and headings: code, links, images, HTML, escapes, line breaks and emphasis.
Code and HTML are found first from left to right; a closing bracket makes a link of everything since
its opening bracket when a destination follows or its label is defined.
-/
namespace Dialogue.Markdown

structure Context where
  text : List Char
  definitions : Definitions

def glyphsFor (gs : List Glyph) (cs : List Char) : List Glyph :=
  gs.drop (gs.length - cs.length)

def stopOf (start : Nat) (gs rest : List Glyph) : Nat :=
  match (gs.take (gs.length - rest.length)).getLast? with
  | some g => g.stop
  | none => start

def codeSpan? (width : Nat) : Nat → List Glyph → Option (List Glyph × List Glyph)
  | 0, _ => none
  | _, [] => none
  | fuel + 1, g :: gs =>
    if g.char = '\x60' then
      let rest := (g :: gs).dropWhile (·.char == '\x60')
      let run := (g :: gs).takeWhile (·.char == '\x60')
      if run.length = width then some ([], rest)
      else (codeSpan? width fuel rest).map fun (c, r) => (run ++ c, r)
    else (codeSpan? width fuel gs).map fun (c, r) => (g :: c, r)

/-- Line endings in code are blanks; one blank on each side is dropped if code stands between. -/
def codeText (gs : List Glyph) : List Char :=
  let cs := (chars gs).map fun c => if isLineEnd c then ' ' else c
  if cs.head? = some ' ' ∧ cs.getLast? = some ' ' ∧ cs.any (· != ' ') then (cs.drop 1).dropLast
  else cs

def isSchemeChar (c : Char) : Bool :=
  c.isAlphanum || c == '+' || c == '.' || c == '-'

/-- An absolute address between angle brackets. -/
def address? (cs : List Char) : Option (List Char × List Char) :=
  let scheme := cs.takeWhile isSchemeChar
  match cs.drop scheme.length with
  | ':' :: rest =>
    let tail := rest.takeWhile fun c => 0x20 < c.toNat && c != '<' && c != '>'
    match rest.drop tail.length with
    | '>' :: after =>
      if cs.head?.any Char.isAlpha ∧ 2 ≤ scheme.length ∧ scheme.length ≤ 32 then
        some (scheme ++ ':' :: tail, after)
      else none
    | _ => none
  | _ => none

def isMailChar (c : Char) : Bool :=
  c.isAlphanum || ".!#$%&'*+/=?^_-~|".toList.contains c || c == '\x60' || c == '\x7b' || c == '\x7d'

/-- Labels of a mail host: letters, digits and inner hyphens, at most 63 characters. -/
def isHostLabel (cs : List Char) : Bool :=
  cs != [] && cs.length ≤ 63 && cs.all (fun c => c.isAlphanum || c == '-') &&
    cs.head? != some '-' && cs.getLast? != some '-'

def splitDots : List Char → List (List Char)
  | [] => [[]]
  | c :: cs =>
    if c = '.' then [] :: splitDots cs
    else match splitDots cs with
      | [] => [[c]]
      | l :: ls => (c :: l) :: ls

def mail? (cs : List Char) : Option (List Char × List Char) :=
  let name := cs.takeWhile isMailChar
  match cs.drop name.length with
  | '@' :: rest =>
    let host := rest.takeWhile fun c => c.isAlphanum || c == '-' || c == '.'
    match rest.drop host.length with
    | '>' :: after =>
      if name ≠ [] ∧ (splitDots host).all isHostLabel then some (name ++ '@' :: host, after)
      else none
    | _ => none
  | _ => none

/-- Where a link leads, the text after what it covers, and the text that is still to be read. -/
structure Target where
  destination : List Char
  covered : List Char
  rest : List Char

def linkTail? : List Char → Option Target
  | '(' :: cs => do
    let (destination, rest) ← destination? (separator cs)
    let gap := separator rest
    let rest := match title? gap with
      | some after => separator after
      | none => gap
    match rest with
    | ')' :: rest => some ⟨resolved destination, rest, rest⟩
    | _ => none
  | _ => none

/-- What a closing bracket refers to by label. The label is written after the text, or the text is
the label itself; an empty label after it is passed over and not covered. -/
def labelTail? (ds : Definitions) (inner rest : List Char) : Option Target :=
  let own (after : List Char) : Option Target :=
    match label? 1000 (inner ++ [']']) with
    | some (label, []) => (ds.find? label).map (⟨·, rest, after⟩)
    | _ => none
  match rest with
  | '[' :: ']' :: after => own after
  | '[' :: cs =>
    match label? 1000 cs with
    | some (label, after) =>
      if normalLabel label = [] then own rest else (ds.find? label).map (⟨·, after, after⟩)
    | none => own rest
  | _ => own rest

/-- The parts since the nearest opening bracket, in order, the bracket, and the parts before it. -/
def bracket? (between : List Inline) : List Inline →
    Option (List Inline × (Bool × Bool × Nat × Nat × List Glyph) × List Inline)
  | [] => none
  | .bracket image active start stop after :: before =>
    some (between, (image, active, start, stop, after), before)
  | i :: before => bracket? (i :: between) before

/-- No link may hold another one. -/
def deactivate : Inline → Inline
  | .bracket false _ start stop after => .bracket false false start stop after
  | i => i

/-- A run of markers between `previous` and `next` can open emphasis if it stands before a word, and
close it if it stands after one. Underscores do neither within a word. -/
def flanks (mark previous next : Char) : Bool × Bool :=
  let open? := !Text.isBlank next &&
    ((mark == '*' && !Text.isPunctuation next) || Text.isBlank previous ||
      Text.isPunctuation previous)
  let close? := !Text.isBlank previous &&
    ((mark == '*' && !Text.isPunctuation previous) || Text.isBlank next || Text.isPunctuation next)
  (open?, close?)

def isGapText : Inline → Bool
  | .leaf (.text [c]) _ _ => isGap c
  | _ => false

def startOf (default : Nat) : Inline → Nat
  | .leaf _ start _ => start
  | _ => default

/-- A line ending after `before`, which is reversed. Two blanks before it make it a hard break, one
is dropped. -/
def lineBreak (g : Glyph) (before : List Inline) : List Inline :=
  let gaps := before.takeWhile isGapText
  let kept := before.dropWhile isGapText
  match gaps.getLast? with
  | some first =>
    if 2 ≤ gaps.length then .leaf .hardBreak (startOf g.start first) g.stop :: kept
    else .leaf .softBreak g.start g.stop :: kept
  | none => .leaf .softBreak g.start g.stop :: kept

/-- The parts of a text whose first part is `gs`, after the character `previous`; `before` is
reversed. Every step takes at least one character. -/
def inlinesFrom (ctx : Context) : Nat → Char → List Inline → List Glyph → List Inline
  | 0, _, before, _ => emphasize before.reverse
  | _, _, before, [] => emphasize before.reverse
  | fuel + 1, previous, before, g :: gs =>
    let plain := fun (_ : Unit) =>
      inlinesFrom ctx fuel g.char (.text [g.char] g.start g.stop :: before) gs
    if isLineEnd g.char then inlinesFrom ctx fuel g.char (lineBreak g before) gs
    else if g.char = '\\' then
      match gs with
      | h :: rest =>
        if isLineEnd h.char then
          inlinesFrom ctx fuel h.char (.leaf .hardBreak g.start h.stop :: before) rest
        else if Text.isAsciiPunctuation h.char then
          inlinesFrom ctx fuel h.char (.text [h.char] h.start h.stop :: before) rest
        else plain ()
      | [] => plain ()
    else if g.char = '\x60' then
      let run := (g :: gs).takeWhile (·.char == '\x60')
      let rest := (g :: gs).dropWhile (·.char == '\x60')
      match codeSpan? run.length (rest.length + 1) rest with
      | some (content, after) =>
        let stop := stopOf g.stop rest after
        inlinesFrom ctx fuel g.char (.leaf (.code (codeText content)) g.start stop :: before) after
      | none =>
        inlinesFrom ctx fuel g.char
          (.text (chars run) g.start (g.start + run.length) :: before) rest
    else if g.char = '*' ∨ g.char = '_' then
      let run := (g :: gs).takeWhile (·.char == g.char)
      let rest := (g :: gs).dropWhile (·.char == g.char)
      let next := (rest.head?.map Glyph.char).getD '\n'
      let (canOpen, canClose) := flanks g.char previous next
      let r : Run := ⟨g.char, run.length, run.length, canOpen, canClose, g.start⟩
      inlinesFrom ctx fuel g.char (.run r :: before) rest
    else if g.char = '&' then
      match characterReference? (chars (g :: gs)) with
      | some (text, rest) =>
        let after := glyphsFor gs rest
        inlinesFrom ctx fuel ';' (.text text g.start (stopOf g.stop gs after) :: before) after
      | none => plain ()
    else if g.char = '<' then
      match (address? (chars gs)).or (mail? (chars gs)) with
      | some (target, rest) =>
        let after := glyphsFor gs rest
        let stop := stopOf g.stop gs after
        let inner := [Inline.text target g.stop (stop - 1)]
        inlinesFrom ctx fuel '>' (.wrap (.link target) g.start stop inner :: before) after
      | none =>
        match Html.inline? (chars (g :: gs)) with
        | some rest =>
          let after := glyphsFor gs rest
          let stop := stopOf g.stop gs after
          let source := Text.takeBytes (stop - g.start) (Text.dropBytes g.start ctx.text)
          inlinesFrom ctx fuel '>' (.leaf (.inlineHtml source) g.start stop :: before) after
        | none => plain ()
    else if g.char = '[' then
      inlinesFrom ctx fuel g.char (.bracket false true g.start g.stop gs :: before) gs
    else if g.char = '!' ∧ gs.head?.any (·.char == '[') then
      let rest := gs.drop 1
      inlinesFrom ctx fuel '[' (.bracket true true g.start (g.start + 2) rest :: before) rest
    else if g.char = ']' then
      match bracket? [] before with
      | none => plain ()
      | some (between, (image, active, start, stop, content), earlier) =>
        let literal := fun (_ : Unit) =>
          let opening := Inline.settle (.bracket image active start stop content)
          inlinesFrom ctx fuel g.char
            (.text [']'] g.start g.stop :: (between.reverse ++ opening :: earlier)) gs
        if !active then literal ()
        else
          let inner := chars (content.take (content.length - (gs.length + 1)))
          match (linkTail? (chars gs)).or (labelTail? ctx.definitions inner (chars gs)) with
          | none => literal ()
          | some target =>
            let after := glyphsFor gs target.rest
            let tag := if image then Tag.image else .link target.destination
            let stop := stopOf g.stop gs (glyphsFor gs target.covered)
            let whole := .wrap tag start stop (emphasize between)
            let earlier := if image then earlier else earlier.map deactivate
            let last := (gs.take (gs.length - after.length)).getLast?
            let previous := (last.map Glyph.char).getD ']'
            inlinesFrom ctx fuel previous (whole :: earlier) after
    else plain ()

def inlines (ctx : Context) (gs : List Glyph) : List Inline :=
  inlinesFrom ctx gs.length '\n' [] gs

mutual

def Inline.events : Inline → List Located
  | .leaf e start stop => [⟨e, start, stop⟩]
  | .run r => [⟨.text (List.replicate r.count r.mark), r.start, r.start + r.count⟩]
  | .bracket image _ start stop _ => [⟨.text (if image then ['!', '['] else ['[']), start, stop⟩]
  | .wrap t start stop inner =>
    ⟨.opens t, start, stop⟩ :: (Inline.allEvents inner ++ [⟨.closes t, start, stop⟩])

def Inline.allEvents : List Inline → List Located
  | [] => []
  | i :: is => i.events ++ Inline.allEvents is

end

end Dialogue.Markdown
