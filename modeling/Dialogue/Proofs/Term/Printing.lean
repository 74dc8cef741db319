import Dialogue.Proofs.Code.Forms
import Dialogue.Proofs.Term.Literals
import Dialogue.Proofs.Term.Subterms

/-!
Printing a term that was read and reading its text. Between blanks and round brackets each symbol
and each literal is read from its own text, so the term comes back just when all of its literals
do.
-/
namespace Dialogue

def Term.bare : Term → Term
  | symbol _ name => symbol default name
  | literal _ v => literal default v
  | list _ items => list default (bareAll items)
where
  bareAll : List Term → List Term
    | [] => []
    | t :: ts => t.bare :: bareAll ts

def Term.literals : Term → List Value
  | symbol _ _ => []
  | literal _ v => [v]
  | list _ items => literalsOf items
where
  literalsOf : List Term → List Value
    | [] => []
    | t :: ts => t.literals ++ literalsOf ts

namespace Lexer

variable {source : Source} {stop : Nat} {rest : List Char} {ls : List Lexeme} {t : Term}

def RegularTerm (t : Term) : Prop :=
  (∀ span name, (Term.symbol span name).Within t → Regular (.symbol name)) ∧
  ∀ span v, (Term.literal span v).Within t → Regular (.literal v)

def FaithfulTerm (t : Term) : Prop :=
  ∀ span v, (Term.literal span v).Within t → Faithful v

theorem RegularTerm.item {span : Span} {items : List Term}
    (regular : RegularTerm (.list span items)) (mem : t ∈ items) : RegularTerm t := by
  constructor
  · intro s name within
    exact regular.1 s name (.item mem within)
  · intro s v within
    exact regular.2 s v (.item mem within)

theorem FaithfulTerm.item {span : Span} {items : List Term}
    (faithful : FaithfulTerm (.list span items)) (mem : t ∈ items) : FaithfulTerm t := by
  intro s v within
  exact faithful s v (.item mem within)

theorem regularTerm_of_spells (regular : ∀ l ∈ ls, Regular l.token)
    (spells : Reader.Spells ls [t]) :
    RegularTerm t := by
  constructor
  · intro span name within
    obtain ⟨front, own, back, rfl, spelled⟩ := spells_within spells within
    cases spelled with
    | symbol => exact regular ⟨.symbol name, span⟩ (by simp)
  · intro span v within
    obtain ⟨front, own, back, rfl, spelled⟩ := spells_within spells within
    cases spelled with
    | literal => exact regular ⟨.literal v, span⟩ (by simp)

theorem faithfulTerm_list {span : Span} {items : List Term} (each : ∀ t ∈ items, FaithfulTerm t) :
    FaithfulTerm (.list span items) := by
  intro s v within
  cases within with
  | item mem inner => exact each _ mem s v inner

theorem mem_literals {span : Span} {v : Value} (within : (Term.literal span v).Within t) :
    v ∈ t.literals := by
  induction within with
  | self => exact List.mem_singleton.mpr rfl
  | @item _ items t mem _ ih =>
    rw [Term.literals]
    induction items with
    | nil => cases mem
    | cons u items later =>
      rw [Term.literals.literalsOf, List.mem_append]
      rcases List.mem_cons.mp mem with rfl | mem
      · exact Or.inl ih
      · exact Or.inr (later mem)

theorem faithfulTerm_of_literals (faithful : ∀ v ∈ t.literals, Faithful v) : FaithfulTerm t :=
  fun _ v within => faithful v (mem_literals within)

theorem ends_of_blank (cs : List Char) : Ends (' ' :: cs) := by
  intro c head
  cases head
  decide

theorem ends_of_closing (cs : List Char) : Ends (')' :: cs) := by
  intro c head
  cases head
  decide

theorem skip_blank (cs : List Char) : skip false (' ' :: cs) = skip false cs := rfl

theorem itemsText_cons (t u : Term) (ts : List Term) (rest : List Char) :
    (Term.itemsText (t :: u :: ts)).toList ++ rest =
      t.text.toList ++ ' ' :: ((Term.itemsText (u :: ts)).toList ++ rest) := by
  simp [Term.itemsText]

theorem text_list (span : Span) (items : List Term) (rest : List Char) :
    (Term.list span items).text.toList ++ rest =
      '(' :: ((Term.itemsText items).toList ++ ')' :: rest) := by
  simp [Term.text]

/-- Before anything that ends a run, the text of the term is read as the term. -/
def Printed (source : Source) (stop : Nat) (t : Term) : Prop :=
  ∀ rest ls, Ends rest → Lexes source stop rest ls →
    ∃ own t', Lexes source stop (t.text.toList ++ rest) (own ++ ls) ∧ Reader.Spells own [t'] ∧
      t'.bare = t.bare

theorem items_printed {items : List Term} (each : ∀ t ∈ items, Printed source stop t)
    (ends : Ends rest) (lexes : Lexes source stop rest ls) :
    ∃ own items', Lexes source stop ((Term.itemsText items).toList ++ rest) (own ++ ls) ∧
      Reader.Spells own items' ∧ Term.bare.bareAll items' = Term.bare.bareAll items := by
  induction items with
  | nil => exact ⟨[], [], lexes, .nil, rfl⟩
  | cons t items ih =>
    have first := each t List.mem_cons_self
    have later := ih fun u mem => each u (List.mem_cons_of_mem t mem)
    cases items with
    | nil =>
      obtain ⟨own, t', lexed, spells, same⟩ := first rest ls ends lexes
      exact ⟨own, [t'], lexed, spells, by simp [Term.bare.bareAll, same]⟩
    | cons u items =>
      obtain ⟨back, items', lexed, spells, same⟩ := later
      obtain ⟨own, t', lexed, spells', same'⟩ :=
        first _ _ (ends_of_blank _) (lexed.congr (skip_blank _).symm)
      refine ⟨own ++ back, t' :: items', ?_, spells'.append spells, ?_⟩
      · rw [itemsText_cons, List.append_assoc]
        exact lexed
      · rw [Term.bare.bareAll, same, same']
        rfl

theorem printed (regular : RegularTerm t) (faithful : FaithfulTerm t) : Printed source stop t := by
  induction t using Term.induction_on_size with
  | step t ih =>
    intro rest ls ends lexes
    cases t with
    | symbol span name =>
      have scans := scans_symbol (regular.1 span name .self) ends
      exact ⟨[_], _, .cons scans.skip scans lexes, .symbol .nil, rfl⟩
    | literal span v =>
      have scans := scans_literal (regular.2 span v .self) (faithful span v .self) ends
      exact ⟨[_], _, .cons scans.skip scans lexes, .literal .nil, rfl⟩
    | list span items =>
      have each : ∀ u ∈ items, Printed source stop u := by
        intro u mem
        have smaller := List.sizeOf_lt_of_mem mem
        apply ih u _ (regular.item mem) (faithful.item mem)
        simp only [Term.list.sizeOf_spec]
        omega
      have closing := Scans.closing .round rest
      obtain ⟨inner, items', lexed, spells, same⟩ :=
        items_printed each (ends_of_closing rest) (.cons closing.skip closing lexes)
      have opening := Scans.opening .round ((Term.itemsText items).toList ++ ')' :: rest)
      have whole := Lexes.cons opening.skip opening lexed
      rw [List.append_cons inner] at whole
      rw [text_list]
      exact ⟨_ :: (inner ++ [_]), _, whole, .list spells .nil, by rw [Term.bare, same, Term.bare]⟩

/-- Whatever the text of the term is read as, it is the term only if each literal is printed
faithfully. -/
def Reprinted (source : Source) (stop : Nat) (t : Term) : Prop :=
  ∀ rest ls, Ends rest → Lexes source stop (t.text.toList ++ rest) ls →
    ∃ own later t', ls = own ++ later ∧ Lexes source stop rest later ∧ Reader.Spells own [t'] ∧
      (t'.bare = t.bare → FaithfulTerm t)

theorem items_reprinted {items : List Term} (each : ∀ t ∈ items, Reprinted source stop t)
    (ends : Ends rest) (lexes : Lexes source stop ((Term.itemsText items).toList ++ rest) ls) :
    ∃ own later items', ls = own ++ later ∧ Lexes source stop rest later ∧
    Reader.Spells own items' ∧
      (Term.bare.bareAll items' = Term.bare.bareAll items → ∀ t ∈ items, FaithfulTerm t) := by
  induction items generalizing ls with
  | nil => exact ⟨[], ls, [], rfl, lexes, .nil, by simp⟩
  | cons t items ih =>
    have first := each t List.mem_cons_self
    have others : ∀ u ∈ items, Reprinted source stop u := fun u mem =>
      each u (List.mem_cons_of_mem t mem)
    cases items with
    | nil =>
      obtain ⟨own, behind, t', rfl, lexed, spells, faithful⟩ := first rest ls ends lexes
      refine ⟨own, behind, [t'], rfl, lexed, spells, ?_⟩
      intro same u mem
      cases List.mem_singleton.mp mem
      exact faithful (List.cons.inj same).1
    | cons u items =>
      rw [itemsText_cons] at lexes
      obtain ⟨own, behind, t', rfl, lexed, spells, faithful⟩ := first _ _ (ends_of_blank _) lexes
      obtain ⟨back, behind, items', rfl, lexed, spells', faithful'⟩ :=
        ih others (lexed.congr (skip_blank _))
      refine ⟨own ++ back, behind, t' :: items', by simp, lexed, spells.append spells', ?_⟩
      intro same v mem
      obtain ⟨head, tail⟩ := List.cons.inj same
      rcases List.mem_cons.mp mem with rfl | mem
      · exact faithful head
      · exact faithful' tail v mem

theorem faithfulTerm_symbol (span : Span) (name : String) : FaithfulTerm (.symbol span name) := by
  intro s v within
  cases within

theorem faithfulTerm_literal {v : Value} (span : Span) (faithful : Faithful v) :
    FaithfulTerm (.literal span v) := by
  intro s w within
  cases within
  exact faithful

theorem reprinted (regular : RegularTerm t) : Reprinted source stop t := by
  induction t using Term.induction_on_size with
  | step t ih =>
    intro rest ls ends lexes
    cases t with
    | symbol span name =>
      obtain ⟨later, rfl, lexed⟩ := lexes.first (scans_symbol (regular.1 span name .self) ends)
      exact ⟨[_], later, _, rfl, lexed, .symbol .nil, fun _ => faithfulTerm_symbol span name⟩
    | literal span v =>
      rcases literal_cases (regular.2 span v .self) ends with
        ⟨faithful, scans⟩ | ⟨_, name, scans⟩ | unread
      · obtain ⟨later, rfl, lexed⟩ := lexes.first scans
        exact ⟨[_], later, _, rfl, lexed, .literal .nil, fun _ =>
          faithfulTerm_literal span faithful⟩
      · obtain ⟨later, rfl, lexed⟩ := lexes.first scans
        exact ⟨[_], later, _, rfl, lexed, .symbol .nil, fun same => by cases same⟩
      · exact absurd ⟨ls, lexes⟩ unread
    | list span items =>
      have each : ∀ u ∈ items, Reprinted source stop u := by
        intro u mem
        have smaller := List.sizeOf_lt_of_mem mem
        apply ih u _ (regular.item mem)
        simp only [Term.list.sizeOf_spec]
        omega
      rw [text_list] at lexes
      obtain ⟨tail, rfl, lexed⟩ := lexes.first (.opening .round _)
      obtain ⟨inner, behind, items', rfl, lexed, spells, faithful⟩ :=
        items_reprinted each (ends_of_closing rest) lexed
      obtain ⟨later, rfl, last⟩ := lexed.first (.closing .round rest)
      rw [List.append_cons inner, ← List.cons_append]
      refine ⟨_, later, _, rfl, last, .list spells .nil, ?_⟩
      intro same
      exact faithfulTerm_list (faithful (Term.list.inj same).2)

end Lexer

namespace Term
open Lexer

theorem regular_of_read {s : Span} {t : Term} (read : Term.read s = .ok t) : RegularTerm t := by
  obtain ⟨ls, lexed, nested⟩ := read_ok read
  exact regularTerm_of_spells (lexFrom_iff.mp lexed).regular (Reader.readAll_iff.mp nested)

theorem faithfulTerm_iff {t : Term} : FaithfulTerm t ↔
    (∀ span x, (literal span (.number x)).Within t → x.isInf = false) ∧
    ∀ span s, (literal span (.string s)).Within t → ∀ c ∈ s.toList, ¬ Text.ByNumber c := by
  constructor
  · intro faithful
    exact ⟨fun span x => faithful span (.number x), fun span s => faithful span (.string s)⟩
  · rintro ⟨numbers, strings⟩ span v within
    cases v with
    | boolean | nil | symbol => trivial
    | number x => exact numbers span x within
    | string s => exact strings span s within

/-- The text of a term that was read is read as the same term, places aside, if and only if no
number in it is infinite and no string in it has a character that is written by its number. -/
theorem printed_reads_back {s : Span} {t : Term} (path : String) (read : Term.read s = .ok t) :
    (∃ t', Term.read (Source.whole ⟨t.text.toList, path⟩) = .ok t' ∧ t'.bare = t.bare) ↔
      (∀ span x, (literal span (.number x)).Within t → x.isInf = false) ∧
      ∀ span v, (literal span (.string v)).Within t → ∀ c ∈ v.toList, ¬ Text.ByNumber c := by
  have regular := regular_of_read read
  rw [← faithfulTerm_iff]
  constructor
  · rintro ⟨t', again, same⟩
    obtain ⟨ls, lexed, nested⟩ := read_ok again
    have lexes := lexFrom_iff.mp lexed
    rw [Span.contents_whole] at lexes
    obtain ⟨own, later, u, rfl, nothing, spells, faithful⟩ :=
      reprinted regular [] ls ends_nil (by rwa [List.append_nil])
    cases nothing with
    | cons found scans =>
      obtain ⟨c, cs, rfl, _⟩ := scanToken_of_scans scans
      cases found
    | nil =>
      rw [List.append_nil, Reader.readAll_iff.mpr spells] at nested
      cases nested
      exact faithful same
  · intro faithful
    obtain ⟨own, t', lexes, spells, same⟩ := printed regular faithful [] [] ends_nil (.nil rfl)
    rw [List.append_nil, List.append_nil] at lexes
    refine ⟨t', read_of_spells ?_ spells, same⟩
    rw [Span.contents_whole]
    exact lexes

/-- A list in square brackets that is printed in round ones, with escapes in its string and a zero
that is dropped from its number. -/
theorem printed_reads_back_call :
    let s : Span := Source.whole ⟨"[concat \"a\\n\\\"\" -2.50 ; b\n]".toList, "./source"⟩
    ∃ t, Term.read s = .ok t ∧ t.text = "(concat \"a\\n\\\"\" -2.5)" ∧
      ∃ t', Term.read (Source.whole ⟨t.text.toList, "./printed"⟩) = .ok t' ∧ t'.bare = t.bare := by
  intro s
  have found : ((Term.read s).toOption.map fun t =>
    (t.text, decide (∀ v ∈ t.literals, Faithful v))) =
      some ("(concat \"a\\n\\\"\" -2.5)", true) := by
    decide +kernel
  obtain ⟨t, result, same⟩ := Option.map_eq_some_iff.mp found
  obtain ⟨text, checked⟩ := Prod.mk.inj same
  have read : Term.read s = .ok t := by
    cases outcome : Term.read s with
    | error => rw [outcome] at result; cases result
    | ok => rw [outcome] at result; cases result; rfl
  have faithful := faithfulTerm_of_literals (of_decide_eq_true checked)
  exact ⟨t, read, text, (printed_reads_back "./printed" read).mpr (faithfulTerm_iff.mp faithful)⟩

end Term
end Dialogue
