import Dialogue.Decimal.Shortest

/-!
How the shortest digits of a number are laid out. Three layouts are in use: the plain one of
dialogue lines and listings, the marked one of value inspection, which always shows that a number
is a number, and the one of exported programs.
-/
namespace Dialogue.Decimal

structure Layout where
  /-- Whether a number whose leading digit counts `10 ^ e` is written in place, by `e`. -/
  inPlace : Int → Bool
  /-- Whole numbers keep a point and a zero. -/
  pointZero : Bool
  /-- Positive exponents carry a sign. -/
  plusSign : Bool
  tie : Tie

def Layout.plain : Layout :=
  ⟨fun _ => true, false, false, .up⟩

def Layout.marked : Layout :=
  ⟨fun e => -4 ≤ e && e < 16, true, false, .up⟩

def Layout.exported : Layout :=
  ⟨fun e => -5 ≤ e && e < 16, true, true, .toEven⟩

/-- The digits `ds` with the point after `point` of them, counted from the first. -/
def positional (pointZero : Bool) (ds : List Char) (point : Int) : List Char :=
  if point ≤ 0 then ['0', '.'] ++ List.replicate (-point).toNat '0' ++ ds
  else if (ds.length : Int) ≤ point then
    ds ++ List.replicate (point - ds.length).toNat '0' ++ if pointZero then ['.', '0'] else []
  else ds.take point.toNat ++ '.' :: ds.drop point.toNat

def scientific (plusSign : Bool) (ds : List Char) (e : Int) : List Char :=
  let fraction := match ds.drop 1 with
    | [] => []
    | rest => '.' :: rest
  let sign := if e < 0 then ['-'] else if plusSign then ['+'] else []
  ds.take 1 ++ fraction ++ 'e' :: sign ++ Nat.toDigits 10 e.natAbs

def layOut (layout : Layout) (d : Decimal) : List Char :=
  let all := Nat.toDigits 10 d.digits
  let point := (all.length : Int) + d.exponent
  let ds := (all.reverse.dropWhile (· == '0')).reverse
  if layout.inPlace (point - 1) then positional layout.pointZero ds point
  else scientific layout.plusSign ds (point - 1)

def magnitudeText (layout : Layout) (b : Nat) : List Char :=
  if b = 0 then if layout.pointZero then ['0', '.', '0'] else ['0']
  else if b = infinityBits then ['i', 'n', 'f']
  else layOut layout (shortest layout.tie b)

/-- The text of a number. A number that is none carries no sign. -/
def textChars (layout : Layout) (x : Float) : List Char :=
  let b := x.toBits.toNat
  let magnitude := b % signBit
  if infinityBits < magnitude then ['N', 'a', 'N']
  else (if b < signBit then [] else ['-']) ++ magnitudeText layout magnitude

def text (layout : Layout) (x : Float) : String :=
  String.ofList (textChars layout x)

def isFinite (x : Float) : Bool :=
  x.toBits.toNat % signBit < infinityBits

end Dialogue.Decimal
