/-!
Positions in a text are byte offsets of its UTF-8 form. Cutting at an offset keeps whole
characters, and at a character boundary the two parts have the expected sizes.
-/
namespace Dialogue.Text

def byteLength : List Char → Nat
  | [] => 0
  | c :: cs => c.utf8Size + byteLength cs

def takeBytes : Nat → List Char → List Char
  | _, [] => []
  | n, c :: cs => if n = 0 then [] else c :: takeBytes (n - c.utf8Size) cs

def dropBytes : Nat → List Char → List Char
  | _, [] => []
  | n, c :: cs => if n = 0 then c :: cs else dropBytes (n - c.utf8Size) cs

/-- An offset is a boundary when some run of leading characters ends there. -/
def Boundary (n : Nat) (cs : List Char) : Prop :=
  ∃ front, front <+: cs ∧ byteLength front = n

def isBoundary : Nat → List Char → Bool
  | 0, _ => true
  | _ + 1, [] => false
  | n + 1, c :: cs => c.utf8Size ≤ n + 1 && isBoundary (n + 1 - c.utf8Size) cs

@[simp] theorem byteLength_append (a b : List Char) :
    byteLength (a ++ b) = byteLength a + byteLength b := by
  induction a with
  | nil => simp [byteLength]
  | cons c cs ih => simp [byteLength, ih, Nat.add_assoc]

theorem byteLength_pos (c : Char) (cs : List Char) : 0 < byteLength (c :: cs) :=
  Nat.add_pos_left c.utf8Size_pos _

theorem eq_nil_of_byteLength {cs : List Char} (h : byteLength cs = 0) : cs = [] := by
  cases cs with
  | nil => rfl
  | cons c cs => exact absurd h (Nat.ne_of_gt (byteLength_pos c cs))

theorem takeBytes_append_dropBytes (n : Nat) (cs : List Char) :
    takeBytes n cs ++ dropBytes n cs = cs := by
  induction cs generalizing n with
  | nil => simp [takeBytes, dropBytes]
  | cons c cs ih => by_cases h : n = 0 <;> simp [takeBytes, dropBytes, h, ih]

@[simp] theorem takeBytes_zero (cs : List Char) : takeBytes 0 cs = [] := by
  cases cs <;> simp [takeBytes]

@[simp] theorem dropBytes_zero (cs : List Char) : dropBytes 0 cs = cs := by
  cases cs <;> simp [dropBytes]

theorem takeBytes_byteLength_append (a b : List Char) :
    takeBytes (byteLength a) (a ++ b) = a := by
  induction a with
  | nil => simp [byteLength]
  | cons c cs ih =>
    have : c.utf8Size + byteLength cs ≠ 0 := by
      have := Char.utf8Size_pos c
      omega
    rw [List.cons_append, takeBytes, byteLength, if_neg this, Nat.add_sub_cancel_left, ih]

theorem dropBytes_byteLength_append (a b : List Char) :
    dropBytes (byteLength a) (a ++ b) = b := by
  have h := takeBytes_append_dropBytes (byteLength a) (a ++ b)
  rw [takeBytes_byteLength_append] at h
  exact List.append_cancel_left h

theorem isBoundary_iff {n : Nat} {cs : List Char} : isBoundary n cs = true ↔ Boundary n cs := by
  induction cs generalizing n with
  | nil =>
    cases n with
    | zero => exact ⟨fun _ => ⟨[], List.nil_prefix, rfl⟩, fun _ => rfl⟩
    | succ n =>
      refine ⟨fun h => by simp [isBoundary] at h, ?_⟩
      rintro ⟨front, hf, h⟩
      obtain rfl := List.prefix_nil.1 hf
      simp [byteLength] at h
  | cons c cs ih =>
    cases n with
    | zero => exact ⟨fun _ => ⟨[], List.nil_prefix, rfl⟩, fun _ => rfl⟩
    | succ n =>
      simp only [isBoundary, Bool.and_eq_true, decide_eq_true_eq]
      constructor
      · rintro ⟨hc, h⟩
        obtain ⟨front, hf, hl⟩ := ih.1 h
        refine ⟨c :: front, List.cons_prefix_cons.2 ⟨rfl, hf⟩, ?_⟩
        simp only [byteLength, hl]
        omega
      · rintro ⟨front, hf, hl⟩
        cases front with
        | nil => simp [byteLength] at hl
        | cons d front =>
          obtain ⟨rfl, tail⟩ := List.cons_prefix_cons.1 hf
          simp only [byteLength] at hl
          exact ⟨by omega, ih.2 ⟨front, tail, by omega⟩⟩

end Dialogue.Text
