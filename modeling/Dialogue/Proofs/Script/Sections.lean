import Dialogue.Proofs.Code.Plan
import Dialogue.Script.Compile

/-!
A dialogue is what stands before its first heading and, after that, one node for each heading. The
compiler closes a node only when it comes to the next heading or to the end. What it emits is what
would come of compiling node after node, each with its end.
-/
namespace Dialogue

namespace Emit
variable {α β γ : Type}

theorem bind_of_ok {e : Emit α} {k : α → Emit β} {s : Site} {g h : Fragment} {a : α} {b : β}
    (first : e s = (g, .ok a)) (second : k a (s.after g) = (h, .ok b)) :
    (e >>= k) s = (g ++ h, .ok b) := by
  rw [bind_apply, first]
  simp only [second]

theorem bind_ok_iff {e : Emit α} {k : α → Emit β} {s : Site} {f : Fragment} {b : β} :
    (e >>= k) s = (f, .ok b) ↔
      ∃ g a h, e s = (g, .ok a) ∧ k a (s.after g) = (h, .ok b) ∧ f = g ++ h := by
  constructor
  · exact bind_ok
  · rintro ⟨g, a, h, first, second, rfl⟩
    exact bind_of_ok first second

theorem emit_bind_assoc (e : Emit α) (k : α → Emit β) (l : β → Emit γ) :
    e >>= k >>= l = e >>= fun a => k a >>= l := by
  funext s
  simp only [bind_apply]
  cases first : e s with
  | mk f r =>
    cases r with
    | error p => rfl
    | ok a =>
      cases second : k a (s.after f) with
      | mk g r =>
        cases r with
        | error p => simp only [second]
        | ok b => simp only [second, Site.after_append, Fragment.append_assoc]

theorem emit_pure_bind (a : α) (k : α → Emit β) : pure a >>= k = k a := by
  funext s
  rw [bind_apply]
  show ((Fragment.empty ++ (k a (s.after .empty)).1 : Fragment), (k a (s.after .empty)).2) = k a s
  rw [Site.after_empty, Fragment.empty_append]

theorem emit_bind_pure (e : Emit Unit) : (e >>= fun _ => pure ()) = e := by
  funext s
  rw [bind_apply]
  cases e s with
  | mk f r =>
    cases r with
    | error p => rfl
    | ok a => exact Prod.ext (Fragment.append_empty f) rfl

end Emit

namespace Script
open Emit

/-- A heading with the elements up to the next one. -/
structure Node where
  level : Nat
  title : List Char
  span : Span
  body : List Element
deriving DecidableEq, Repr

namespace Node

def name (n : Node) : String :=
  String.ofList n.title

def elements (n : Node) : List Element :=
  ⟨.heading n.level n.title, n.span⟩ :: n.body

end Node

/-- The elements before the first heading, and the nodes in their order. -/
def sections : List Element → List Element × List Node
  | [] => ([], [])
  | e :: es =>
    match e.block with
    | .heading level title => ([], ⟨level, title, e.span, (sections es).1⟩ :: (sections es).2)
    | _ => (e :: (sections es).1, (sections es).2)

def Element.isHeading (e : Element) : Bool :=
  match e.block with
  | .heading _ _ => true
  | _ => false

theorem sections_join (es : List Element) :
    (sections es).1 ++ (sections es).2.flatMap Node.elements = es := by
  induction es with
  | nil => rfl
  | cons e es ih =>
    obtain ⟨block, span⟩ := e
    cases block with
    | heading level title =>
      simp only [sections, List.nil_append, List.flatMap_cons, Node.elements, List.cons_append, ih]
    | _ => simp only [sections, List.cons_append, ih]

theorem mem_of_prelude {es : List Element} {e : Element} (mem : e ∈ (sections es).1) : e ∈ es := by
  rw [← sections_join es]
  exact List.mem_append_left _ mem

theorem mem_of_body {es : List Element} {n : Node} {e : Element} (node : n ∈ (sections es).2)
    (mem : e ∈ n.body) :
    e ∈ es := by
  rw [← sections_join es]
  refine List.mem_append_right _ (List.mem_flatMap.mpr ⟨n, node, ?_⟩)
  exact List.mem_cons_of_mem _ mem

theorem sections_plain (es : List Element) :
    (∀ e ∈ (sections es).1, e.isHeading = false) ∧
      ∀ n ∈ (sections es).2, ∀ e ∈ n.body, e.isHeading = false := by
  induction es with
  | nil => simp [sections]
  | cons e es ih =>
    obtain ⟨block, span⟩ := e
    cases block with
    | heading level title =>
      refine ⟨by simp [sections], fun n mem => ?_⟩
      rcases List.mem_cons.mp mem with same | later
      · subst n; exact ih.1
      · exact ih.2 n later
    | _ =>
      refine ⟨fun u mem => ?_, ih.2⟩
      rcases List.mem_cons.mp mem with same | later
      · subst u; rfl
      · exact ih.1 u later

theorem sections_front {front : List Element} (plain : ∀ e ∈ front, e.isHeading = false)
    (rest : List Element) :
    sections (front ++ rest) = (front ++ (sections rest).1, (sections rest).2) := by
  induction front with
  | nil => rfl
  | cons e front ih =>
    have first := plain e List.mem_cons_self
    have later := ih fun u mem => plain u (List.mem_cons_of_mem e mem)
    obtain ⟨block, span⟩ := e
    cases block with
    | heading => cases first
    | _ => simp only [List.cons_append, sections, later]

theorem sections_nodes {ns : List Node} (plain : ∀ n ∈ ns, ∀ e ∈ n.body, e.isHeading = false) :
    sections (ns.flatMap Node.elements) = ([], ns) := by
  induction ns with
  | nil => rfl
  | cons n ns ih =>
    have later := ih fun k mem => plain k (List.mem_cons_of_mem n mem)
    have body := sections_front (plain n List.mem_cons_self) (ns.flatMap Node.elements)
    rw [later, List.append_nil] at body
    simp only [List.flatMap_cons, Node.elements, List.cons_append, sections, body]

theorem sections_of_parts {front : List Element} {ns : List Node}
    (plain : ∀ e ∈ front, e.isHeading = false)
    (bodies : ∀ n ∈ ns, ∀ e ∈ n.body, e.isHeading = false) :
    sections (front ++ ns.flatMap Node.elements) = (front, ns) := by
  rw [sections_front plain, sections_nodes bodies, List.append_nil]

/-- Elements none of which is a heading, in the node `node?`. -/
def stretch (node? : Option String) : List Element → Emit Unit
  | [] => pure ()
  | e :: es => do
    let _ ← element node? e
    stretch node? es

def Node.emit (n : Node) : Emit Unit := do
  heading none n.level n.name n.span
  stretch (some n.name) n.body
  close (some n.name)

def nodes : List Node → Emit Unit
  | [] => pure ()
  | n :: ns => do
    n.emit
    nodes ns

variable {node? next : Option String} {e : Element} {s : Site} {f : Fragment}

theorem element_next (plain : e.isHeading = false) (run : element node? e s = (f, .ok next)) :
    next = node? := by
  obtain ⟨block, span⟩ := e
  cases block with
  | heading => cases plain
  | paragraph | list =>
    obtain ⟨_, _, _, _, rest, _⟩ := bind_ok run
    cases rest
    rfl
  | fence =>
    obtain ⟨_, _, _, _, rest, _⟩ := bind_ok run
    obtain ⟨_, _, _, _, rest, _⟩ := bind_ok rest
    cases rest
    rfl
  | unsupported => cases run

/-- A heading is accepted when it would be with no node open; before it, it ends the open node. -/
theorem heading_ok_iff {level : Nat} {title : String} {span : Span} :
    heading node? level title span s = (f, .ok ()) ↔
      (close node? >>= fun _ => heading none level title span) s = (f, .ok ()) := by
  have refused : ∀ cause, (fail cause span : Emit Unit) s = (f, .ok ()) ↔
      (close node? >>= fun _ => (fail cause span : Emit Unit)) s = (f, .ok ()) := by
    intro cause
    rw [bind_ok_iff]
    constructor
    · intro run
      cases run
    · rintro ⟨_, _, _, _, run, _⟩
      cases run
  unfold heading
  by_cases first : level ≠ 1
  · rw [if_pos first, if_pos first]
    exact refused _
  · rw [if_neg first, if_neg first]
    by_cases nameless : title = ""
    · rw [if_pos nameless, if_pos nameless]
      exact refused _
    · rw [if_neg nameless, if_neg nameless, close, emit_pure_bind]

theorem elements_ok_iff {es : List Element} :
    elements node? es s = (f, .ok ()) ↔
      (do stretch node? (sections es).1; close node?; nodes (sections es).2) s = (f, .ok ()) := by
  induction es generalizing node? s f with
  | nil =>
    have whole : (close node? >>= fun _ => nodes []) = close node? := emit_bind_pure _
    rw [elements, sections, stretch, emit_pure_bind, whole]
  | cons e es ih =>
    rw [elements]
    cases kind : e.block with
    | heading level title =>
      have opening : element node? e = heading node? level (String.ofList title) e.span >>= fun _ =>
          pure (some (String.ofList title)) := by
        rw [element, kind]
      -- The end of the node before this one is emitted here, so it moves in front of the heading.
      simp only [sections, kind, stretch, nodes, Node.emit, opening, emit_pure_bind,
        emit_bind_assoc]
      rw [← emit_bind_assoc, bind_ok_iff, bind_ok_iff]
      refine exists_congr fun g => exists_congr fun _ => exists_congr fun h => ?_
      exact and_congr heading_ok_iff (and_congr_left fun _ => ih)
    | paragraph | list | fence | unsupported =>
      have plain : e.isHeading = false := by simp only [Element.isHeading, kind]
      simp only [sections, kind, stretch, emit_bind_assoc]
      rw [bind_ok_iff, bind_ok_iff]
      refine exists_congr fun g => exists_congr fun next => exists_congr fun h =>
        and_congr_right fun first => ?_
      rw [element_next plain first, ih]

end Script
end Dialogue
