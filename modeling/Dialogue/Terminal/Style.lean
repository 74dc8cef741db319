/-!
Bold and italic text on a terminal. Lines carry four markers; the text between two markers is shown
with the styles in force, and the markers themselves are not shown. What a styled text looks like is
up to the terminal, which takes escape sequences or no styles at all.
-/
namespace Dialogue.Terminal

inductive Marker where
  | boldOn
  | boldOff
  | italicOn
  | italicOff
deriving DecidableEq, Repr

namespace Marker

def all : List Marker :=
  [boldOn, boldOff, italicOn, italicOff]

def chars : Marker → List Char
  | boldOn => ['<', 'b', '>']
  | boldOff => ['<', '/', 'b', '>']
  | italicOn => ['<', 'i', '>']
  | italicOff => ['<', '/', 'i', '>']

def position? (m : Marker) : List Char → Option Nat
  | [] => none
  | c :: cs => if m.chars.isPrefixOf (c :: cs) then some 0 else (m.position? cs).map (· + 1)

end Marker

structure Style where
  bold : Bool
  italic : Bool
deriving DecidableEq, Repr

namespace Style

def plain : Style :=
  ⟨false, false⟩

def switch (s : Style) : Marker → Style
  | .boldOn => { s with bold := true }
  | .boldOff => { s with bold := false }
  | .italicOn => { s with italic := true }
  | .italicOff => { s with italic := false }

def onlyBold : Style :=
  ⟨true, false⟩

end Style

inductive Tag where
  | info
  | success
  | fatal
deriving DecidableEq, Repr

def Tag.name : Tag → String
  | .info => "Info"
  | .success => "Success"
  | .fatal => "Fatal"

/-- How a terminal shows a text with styles, and a tag set to the right in some columns. -/
structure Styling where
  run : Style → List Char → List Char
  tag : Tag → Nat → List Char

/-- Escape sequences around a text with these styling codes. An end of styling inside the text is
followed by the codes again, so that it does not end the styling of the rest. -/
def wrap (codes : List Char) (text : List Char) : List Char :=
  let opening := ['\x1b', '['] ++ codes ++ ['m']
  opening ++ restyle opening text ++ ['\x1b', '[', '0', 'm']
where
  restyle (opening : List Char) : List Char → List Char
    | '\x1b' :: '[' :: '0' :: 'm' :: cs => ['\x1b', '[', '0', 'm'] ++ opening ++ restyle opening cs
    | [] => []
    | c :: cs => c :: restyle opening cs

namespace Styling

def padded (width : Nat) (name : String) : List Char :=
  List.replicate (width - name.length) ' ' ++ name.toList

def off : Styling where
  run _ text := text
  tag t width := padded width t.name

def tagCodes : Tag → List Char
  | .info => ['1', ';', '3', '4']
  | .success => ['1', ';', '3', '2']
  | .fatal => ['1', ';', '3', '1']

def escapes : Styling where
  run
    | ⟨false, false⟩, text => text
    | ⟨true, false⟩, text => wrap ['1'] text
    | ⟨false, true⟩, text => wrap ['3'] text
    | ⟨true, true⟩, text => wrap ['1', ';', '3'] text
  tag t width := wrap (tagCodes t) (padded width t.name)

/-- By whether the terminal shows colors. -/
instance : Coe Bool Styling :=
  ⟨fun color => if color then escapes else off⟩

end Styling

def firstMarker? (cs : List Char) : Option (Nat × Marker) :=
  (Marker.all.filterMap fun m => (m.position? cs).map (·, m)).foldl earlier none
where
  earlier : Option (Nat × Marker) → Nat × Marker → Option (Nat × Marker)
    | none, b => some b
    | some a, b => if b.1 < a.1 then some b else some a

theorem firstMarker?_nil : firstMarker? [] = none := rfl

theorem Marker.chars_length_pos (m : Marker) : 0 < m.chars.length := by
  cases m <;> decide

def renderFrom (styling : Styling) (s : Style) (cs : List Char) : List Char :=
  match _h : firstMarker? cs with
  | none => styling.run s cs
  | some (n, m) =>
    styling.run s (cs.take n) ++ renderFrom styling (s.switch m) (cs.drop (n + m.chars.length))
termination_by cs.length
decreasing_by
  have := m.chars_length_pos
  cases cs with
  | nil => simp [firstMarker?_nil] at _h
  | cons c cs => simp only [List.length_drop, List.length_cons]; omega

def renderChars (styling : Styling) (cs : List Char) : List Char :=
  renderFrom styling .plain cs

def render (styling : Styling) (line : String) : String :=
  String.ofList (renderChars styling line.toList)

end Dialogue.Terminal
