import Dialogue.Terminal.Style
import Mathlib.Data.List.Basic

/-!
Markup in one pass. A scan goes over a line from left to right with the styles in force and the
text it has read under them. Where a marker begins, that text is a run, the marker is passed over
and one style is switched; any other character is added to the text. To look for the first of four
markers in what is left, and again in what is left behind it, comes to the same runs.
-/
namespace Dialogue.Terminal

/-- Text between two markers with the styles in force there, and the marker behind it, if it is
not the last. -/
structure Run where
  style : Style
  text : List Char
  ending? : Option Marker
deriving DecidableEq, Repr

namespace Run

def source (r : Run) : List Char :=
  r.text ++ (r.ending?.map Marker.chars).getD []

def shown (styling : Styling) (r : Run) : List Char :=
  styling.run r.style r.text

end Run

/-- The scan of what is left of a line, with the styles in force and the text read under them. -/
def scanFrom (s : Style) (text : List Char) : List Char → List Run
  | '<' :: 'b' :: '>' :: cs => ⟨s, text, some .boldOn⟩ :: scanFrom { s with bold := true } [] cs
  | '<' :: '/' :: 'b' :: '>' :: cs =>
    ⟨s, text, some .boldOff⟩ :: scanFrom { s with bold := false } [] cs
  | '<' :: 'i' :: '>' :: cs => ⟨s, text, some .italicOn⟩ :: scanFrom { s with italic := true } [] cs
  | '<' :: '/' :: 'i' :: '>' :: cs =>
    ⟨s, text, some .italicOff⟩ :: scanFrom { s with italic := false } [] cs
  | c :: cs => scanFrom s (text ++ [c]) cs
  | [] => [⟨s, text, none⟩]

def scan (line : List Char) : List Run :=
  scanFrom .plain [] line

variable {s : Style} {m m' : Marker} {c : Char} {text rest cs : List Char} {styling : Styling}
  {n : Nat}

/-! Where markers begin. -/

theorem Marker.mem_all (m : Marker) : m ∈ Marker.all := by
  cases m <;> decide

theorem Marker.eq_of_prefix (begins : m.chars <+: cs) (begins' : m'.chars <+: cs) : m = m' := by
  rcases List.prefix_or_prefix_of_prefix begins begins' with short | long
  · revert short
    cases m <;> cases m' <;> decide
  · revert long
    cases m <;> cases m' <;> decide

/-- A line is read in three ways: it is at its end, a marker begins, or a character that begins
none. -/
theorem line_induction {motive : List Char → Prop} (ended : motive [])
    (marker : ∀ (m : Marker) cs, motive cs → motive (m.chars ++ cs))
    (other : ∀ c cs, (∀ m : Marker, ¬ m.chars <+: c :: cs) → motive cs → motive (c :: cs))
    (cs : List Char) :
    motive cs := by
  induction h : cs.length using Nat.strongRecOn generalizing cs with
  | ind k ih =>
    cases cs with
    | nil => exact ended
    | cons c cs =>
      by_cases begins : ∃ m : Marker, m.chars <+: c :: cs
      · obtain ⟨m, rest, same⟩ := begins
        have pos := m.chars_length_pos
        have length := congrArg List.length same
        rw [List.length_append] at length
        rw [← same]
        exact marker m rest (ih rest.length (by omega) rest rfl)
      · refine other c cs (not_exists.mp begins) (ih cs.length ?_ cs rfl)
        rw [List.length_cons] at h
        omega

theorem scanFrom_marker (s : Style) (text : List Char) (m : Marker) (cs : List Char) :
    scanFrom s text (m.chars ++ cs) = ⟨s, text, some m⟩ :: scanFrom (s.switch m) [] cs := by
  cases m <;> simp [Marker.chars, scanFrom, Style.switch]

theorem scanFrom_other (other : ∀ m : Marker, ¬ m.chars <+: c :: cs) :
    scanFrom s text (c :: cs) = scanFrom s (text ++ [c]) cs := by
  rw [scanFrom]
  · rintro rest rfl rfl
    exact other .boldOn ⟨rest, rfl⟩
  · rintro rest rfl rfl
    exact other .boldOff ⟨rest, rfl⟩
  · rintro rest rfl rfl
    exact other .italicOn ⟨rest, rfl⟩
  · rintro rest rfl rfl
    exact other .italicOff ⟨rest, rfl⟩

/-! The marker that occurs first. -/

theorem Marker.position?_of_prefix (begins : m.chars <+: c :: cs) :
    m.position? (c :: cs) = some 0 :=
  if_pos (List.isPrefixOf_iff_prefix.mpr begins)

theorem Marker.position?_of_other (other : ¬ m.chars <+: c :: cs) :
    m.position? (c :: cs) = (m.position? cs).map (· + 1) :=
  if_neg (mt List.isPrefixOf_iff_prefix.mp other)

theorem Marker.prefix_of_position? (found : m.position? cs = some 0) : m.chars <+: cs := by
  cases cs with
  | nil => cases found
  | cons c cs =>
    by_contra other
    rw [position?_of_other other] at found
    simp at found

/-- A marker that begins at once stays the first; all others come later. -/
theorem earliest_kept {ps : List (Nat × Marker)} :
    ps.foldl firstMarker?.earlier (some (0, m)) = some (0, m) := by
  induction ps with
  | nil => rfl
  | cons p ps ih => rwa [List.foldl_cons, firstMarker?.earlier, if_neg (Nat.not_lt_zero _)]

theorem earliest_of_mem {ps : List (Nat × Marker)} {before : Option (Nat × Marker)}
    (behind : ∀ p, before = some p → 0 < p.1) (later : ∀ p ∈ ps, p = (0, m) ∨ 0 < p.1)
    (there : (0, m) ∈ ps) :
    ps.foldl firstMarker?.earlier before = some (0, m) := by
  induction ps generalizing before with
  | nil => cases there
  | cons p ps ih =>
    rw [List.foldl_cons]
    rcases later p List.mem_cons_self with rfl | after
    · have next : firstMarker?.earlier before (0, m) = some (0, m) := by
        cases before with
        | none => rfl
        | some q => exact if_pos (behind q rfl)
      rw [next, earliest_kept]
    · have among : (0, m) ∈ ps := by
        rcases List.mem_cons.mp there with rfl | among
        · exact absurd after (Nat.lt_irrefl 0)
        · exact among
      refine ih ?_ (fun q mem => later q (List.mem_cons_of_mem p mem)) among
      intro q next
      cases before with
      | none =>
        cases next
        exact after
      | some r =>
        rw [firstMarker?.earlier] at next
        split at next <;> cases next
        · exact after
        · exact behind q rfl

theorem earliest_shifted (ps : List (Nat × Marker)) (before : Option (Nat × Marker)) :
    (ps.map fun p => (p.1 + 1, p.2)).foldl firstMarker?.earlier
        (before.map fun p => (p.1 + 1, p.2)) =
      (ps.foldl firstMarker?.earlier before).map fun p => (p.1 + 1, p.2) := by
  induction ps generalizing before with
  | nil => rfl
  | cons p ps ih =>
    have next : firstMarker?.earlier (before.map fun p => (p.1 + 1, p.2)) (p.1 + 1, p.2) =
        (firstMarker?.earlier before p).map fun p => (p.1 + 1, p.2) := by
      cases before with
      | none => rfl
      | some q =>
        simp only [Option.map_some, firstMarker?.earlier, Nat.add_lt_add_iff_right]
        split <;> rfl
    rw [List.map_cons, List.foldl_cons, List.foldl_cons, next, ih]

theorem firstMarker?_marker (m : Marker) (cs : List Char) :
    firstMarker? (m.chars ++ cs) = some (0, m) := by
  have begins := List.prefix_append m.chars cs
  obtain ⟨c, rest, text⟩ := List.exists_cons_of_length_pos
    (Nat.lt_of_lt_of_le m.chars_length_pos (List.IsPrefix.length_le begins))
  rw [text] at begins ⊢
  apply earliest_of_mem (fun _ none => by cases none)
  · intro p mem
    obtain ⟨m', _, found⟩ := List.mem_filterMap.mp mem
    obtain ⟨n, position, rfl⟩ := Option.map_eq_some_iff.mp found
    cases n with
    | zero =>
      left
      rw [Marker.eq_of_prefix begins (Marker.prefix_of_position? position)]
    | succ n => exact Or.inr (Nat.succ_pos n)
  · refine List.mem_filterMap.mpr ⟨m, m.mem_all, ?_⟩
    rw [Marker.position?_of_prefix begins]
    rfl

theorem firstMarker?_other (other : ∀ m : Marker, ¬ m.chars <+: c :: cs) :
    firstMarker? (c :: cs) = (firstMarker? cs).map fun p => (p.1 + 1, p.2) := by
  have further : ∀ m : Marker, (m.position? (c :: cs)).map (·, m) =
      ((m.position? cs).map (·, m)).map fun p => (p.1 + 1, p.2) := by
    intro m
    rw [Marker.position?_of_other (other m), Option.map_map, Option.map_map]
    rfl
  unfold firstMarker?
  rw [← earliest_shifted, List.map_filterMap]
  simp only [further]
  rfl

/-! Rendering. -/

/-- What is shown of the rest of a line when `text` was read before it under the styles in force. -/
def renderRest (styling : Styling) (s : Style) (text cs : List Char) : List Char :=
  match firstMarker? cs with
  | none => styling.run s (text ++ cs)
  | some (n, m) =>
    styling.run s (text ++ cs.take n) ++
      renderFrom styling (s.switch m) (cs.drop (n + m.chars.length))

theorem renderFrom_eq (styling : Styling) (s : Style) (cs : List Char) :
    renderFrom styling s cs = renderRest styling s [] cs := by
  rw [renderFrom, renderRest]
  split <;> simp_all

theorem renderRest_eq (styling : Styling) (s : Style) (text cs : List Char) :
    renderRest styling s text cs = (scanFrom s text cs).flatMap (Run.shown styling) := by
  induction cs using line_induction generalizing s text with
  | ended => simp [renderRest, firstMarker?_nil, scanFrom, Run.shown]
  | marker m cs ih =>
    rw [renderRest, firstMarker?_marker, scanFrom_marker]
    simp [renderFrom_eq, ih, Run.shown]
  | other c cs other ih =>
    rw [scanFrom_other other, ← ih, renderRest, renderRest, firstMarker?_other other]
    cases firstMarker? cs with
    | none => simp
    | some p => simp only [Option.map_some, Nat.add_right_comm p.1 1, List.drop_succ_cons,
        List.take_succ_cons, List.append_assoc, List.singleton_append]

/-! Nothing is lost. -/

theorem source_scanFrom (s : Style) (text cs : List Char) :
    (scanFrom s text cs).flatMap Run.source = text ++ cs := by
  induction cs using line_induction generalizing s text with
  | ended => simp [scanFrom, Run.source]
  | marker m cs ih =>
    rw [scanFrom_marker, List.flatMap_cons, ih]
    simp [Run.source]
  | other c cs other ih => rw [scanFrom_other other, ih, List.append_assoc, List.singleton_append]

/-- No marker begins in the text as it stands before the rest. -/
def Unmarked (text rest : List Char) : Prop :=
  ∀ front c back, text = front ++ c :: back → ∀ m : Marker, ¬ m.chars <+: c :: back ++ rest

theorem Unmarked.not_infix (unmarked : Unmarked text rest) (m : Marker) : ¬ m.chars <:+: text := by
  rintro ⟨front, behind, same⟩
  obtain ⟨c, more, chars⟩ := List.exists_cons_of_length_pos m.chars_length_pos
  refine unmarked front c (more ++ behind) ?_ m ⟨behind ++ rest, ?_⟩
  · rw [← same, chars]
    simp
  · rw [chars]
    simp

theorem Unmarked.next (unmarked : Unmarked text (c :: cs))
    (other : ∀ m : Marker, ¬ m.chars <+: c :: cs) :
    Unmarked (text ++ [c]) cs := by
  intro front d back same m
  rcases List.eq_nil_or_concat back with rfl | ⟨back, last, rfl⟩
  · obtain ⟨_, last⟩ := List.append_inj' same rfl
    cases last
    exact other m
  · have split : text ++ [c] = (front ++ d :: back) ++ [last] := by simpa using same
    obtain ⟨before, ends⟩ := List.append_inj' split rfl
    cases ends
    simpa using unmarked front d back before m

theorem unmarked_of_mem {r : Run} (unmarked : Unmarked text cs) (mem : r ∈ scanFrom s text cs)
    (m : Marker) :
    ¬ m.chars <:+: r.text := by
  induction cs using line_induction generalizing s text with
  | ended =>
    rw [scanFrom, List.mem_singleton] at mem
    rw [mem]
    exact unmarked.not_infix m
  | marker n cs ih =>
    rw [scanFrom_marker] at mem
    rcases List.mem_cons.mp mem with rfl | later
    · exact unmarked.not_infix m
    · exact ih (by simp [Unmarked]) later
  | other c cs other ih =>
    rw [scanFrom_other other] at mem
    exact ih (unmarked.next other) mem

/-- A line is rendered as the runs that one pass over it finds, each shown with the styles in
force. The runs with the markers between them are the line, and no marker is left in the text of a
run. -/
theorem rendered_in_one_pass (styling : Styling) (line : String) :
    render styling line = String.ofList ((scan line.toList).flatMap (Run.shown styling)) ∧
    (scan line.toList).flatMap Run.source = line.toList ∧
    ∀ r ∈ scan line.toList, ∀ m : Marker, ¬ m.chars <:+: r.text := by
  refine ⟨?_, source_scanFrom .plain [] _, ?_⟩
  · rw [render, renderChars, renderFrom_eq, renderRest_eq, scan]
  · intro r mem m
    exact unmarked_of_mem (by simp [Unmarked]) mem m

/-- A marker inside what would be another one, and one that ends what never began. -/
theorem rendered_in_one_pass_inside :
    let line := "<<b>b></i>é"
    let last : Run := ⟨⟨true, false⟩, ['é'], none⟩
    scan line.toList =
      [⟨.plain, ['<'], some .boldOn⟩, ⟨⟨true, false⟩, ['b', '>'], some .italicOff⟩, last] ∧
      render .escapes line = String.ofList (['<'] ++ wrap ['1'] ['b', '>'] ++ wrap ['1'] ['é']) ∧
      last ∈ scan line.toList ∧ ¬ Marker.boldOn.chars <:+: last.text := by
  intro line last
  have runs : scan line.toList =
      [⟨.plain, ['<'], some .boldOn⟩, ⟨⟨true, false⟩, ['b', '>'], some .italicOff⟩, last] := by
    decide +kernel
  obtain ⟨rendered, _, unmarked⟩ := rendered_in_one_pass .escapes line
  have mem : last ∈ scan line.toList := by simp [runs]
  rw [runs] at rendered
  exact ⟨runs, rendered, mem, unmarked last mem .boldOn⟩

end Dialogue.Terminal
