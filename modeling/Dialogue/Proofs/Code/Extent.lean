import Dialogue.Proofs.Code.Heredity

/-!
How far a plan reaches. Its loops and branches lead at most to the address after its code, and so do
the names it binds; everything else that it leads to is found by name.
-/
namespace Dialogue

namespace Instruction
variable {opcode : Opcode} {i : Instruction}

theorem address?_of_ofAddress? {address : Nat} (built : ofAddress? address opcode = some i) :
    i.address? = some address := by
  cases opcode <;> cases built <;> rfl

theorem address?_of_ofOpcode? (built : ofOpcode? opcode = some i) : i.address? = none := by
  cases opcode <;> cases built <;> rfl

theorem address?_of_ofSymbol? {name : String} (built : ofSymbol? name opcode = some i) :
    i.address? = none := by
  cases opcode <;> cases built <;> rfl

theorem ofAddress?_eq_none (other : ofAddress? 0 opcode = none) (address : Nat) :
    ofAddress? address opcode = none := by
  cases opcode <;> first | rfl | cases other

theorem address?_of_build? {operand? : Option Value} (built : build? opcode operand? = some i)
    (other : ofAddress? 0 opcode = none) : i.address? = none := by
  unfold build? at built
  split at built
  · exact address?_of_ofOpcode? built
  · split at built <;> cases built
    rfl
  · split at built <;> cases built
    rfl
  · split at built
    · cases built
      rfl
    · obtain ⟨_, _, built⟩ := Option.bind_eq_some_iff.mp built
      rw [ofAddress?_eq_none other] at built
      cases built
  · exact address?_of_ofSymbol? built
  · cases built

end Instruction

namespace Plan

/-- Apart from loops and branches only references lead anywhere, and these are open. -/
def Open : Plan → Prop
  | empty | label _ _ => True
  | one _ i => i.address? = none
  | reference _ i _ _ => i.address? = some 0
  | both p q | loop p q | branches p q => p.Open ∧ q.Open

def Loopless : Plan → Prop
  | empty | label _ _ | one _ _ | reference _ _ _ _ => True
  | both p q | branches p q => p.Loopless ∧ q.Loopless
  | loop _ _ => False

end Plan

theorem Assembly.open_linePlan (span : Span) (head : String) (arguments : List Term) :
    (linePlan span head arguments).Open := by
  unfold linePlan
  cases operand? arguments with
  | none => trivial
  | some operand =>
    by_cases label : head = "Label"
    · simp only [label, if_true]
      split <;> trivial
    · simp only [label, if_false]
      cases Opcode.ofName? head with
      | none => trivial
      | some opcode =>
        cases pointer : Instruction.ofAddress? 0 opcode with
        | some i =>
          have unset := Instruction.address?_of_ofAddress? pointer
          simp only [pointer]
          rcases operand with _ | v
          · trivial
          · cases v <;> first | exact unset | trivial
        | none =>
          cases built : Instruction.build? opcode operand with
          | none => simp only [pointer, built]; trivial
          | some i =>
            simp only [pointer, built]
            exact Instruction.address?_of_build? built pointer

theorem Assembly.open_plan (ts : List Term) : (Assembly.plan ts).Open := by
  induction ts with
  | nil => trivial
  | cons t ts ih =>
    rcases t with _ | _ | ⟨span, _ | ⟨head, arguments⟩⟩
    · trivial
    · trivial
    · trivial
    · cases head with
      | symbol _ name => exact ⟨open_linePlan span name arguments, ih⟩
      | literal | list => trivial

theorem Assembly.loopless_plan (ts : List Term) : (Assembly.plan ts).Loopless := by
  induction ts with
  | nil => trivial
  | cons t ts ih =>
    rcases t with _ | _ | ⟨span, _ | ⟨head, arguments⟩⟩
    · trivial
    · trivial
    · trivial
    · cases head with
      | symbol _ name =>
        refine ⟨?_, ih⟩
        unfold linePlan
        repeat' split
        all_goals trivial
      | literal | list => trivial

theorem Instruction.address?_of_isPlain {i : Instruction} (plain : i.isPlain) :
    i.address? = none := by
  cases i <;> first | rfl | cases plain

namespace Plan
variable {resolve : String → Option Nat} {start bound : Nat} {p q : Plan}

theorem hereditary_open (title : String) : Hereditary title Open where
  empty := trivial
  both first second := ⟨first, second⟩
  loop condition body := ⟨condition, body⟩
  branches consequence alternative := ⟨consequence, alternative⟩
  plain plain := Instruction.address?_of_isPlain plain
  menu := rfl
  leave := rfl
  link _ _ := rfl
  item _ _ := rfl
  option _ _ := rfl
  assembly := Assembly.open_plan

theorem straight_loopless (title : String) : Straight title Loopless where
  empty := trivial
  both first second := ⟨first, second⟩
  branches consequence alternative := ⟨consequence, alternative⟩
  plain _ := trivial
  menu := trivial
  leave := trivial
  link _ _ := trivial
  item _ _ := trivial
  option _ _ := trivial
  assembly := Assembly.loopless_plan

/-- Every address in code that stands at `start` is allowed where it is. -/
def Leads (allowed : Nat → Nat → Prop) (start : Nat) (code : List Instruction) : Prop :=
  ∀ k i a, code[k]? = some i → i.address? = some a → allowed (start + k) a

section
variable {allowed : Nat → Nat → Prop} {front back : List Instruction} {i : Instruction}

theorem Leads.append (first : Leads allowed start front)
    (second : Leads allowed (start + front.length) back) :
    Leads allowed start (front ++ back) := by
  intro k i a here leads
  by_cases inside : k < front.length
  · rw [List.getElem?_append_left inside] at here
    exact first k i a here leads
  · rw [List.getElem?_append_right (by omega)] at here
    have later := second _ i a here leads
    rwa [Nat.add_assoc, Nat.add_sub_cancel' (by omega)] at later

theorem leads_one (within : ∀ a, i.address? = some a → allowed start a) :
    Leads allowed start [i] := by
  intro k j a here leads
  obtain ⟨rfl, same⟩ : k = 0 ∧ i = j := by
    cases k with
    | zero => exact ⟨rfl, Option.some.inj here⟩
    | succ => cases here
  subst same
  exact within a leads

theorem Leads.cons (first : ∀ a, i.address? = some a → allowed start a)
    (second : Leads allowed (start + 1) back) : Leads allowed start (i :: back) :=
  (leads_one first).append second

/-- A plan that is open leads forward inside its own code, back only in loops, and by its references
wherever the names do. -/
theorem leads_instructions (opened : p.Open)
    (forward : ∀ k a, start ≤ k → k < a → a ≤ start + p.size → allowed k a)
    (backward : p.Loopless ∨ ∀ k a, start ≤ a → a ≤ k → k < start + p.size → allowed k a)
    (named : ∀ r ∈ p.references start, allowed r.address ((resolve r.target).getD 0)) :
    Leads allowed start (p.instructions resolve start) := by
  induction p generalizing start with
  | empty | label =>
    intro k i a here
    cases here
  | one origin i => exact leads_one fun a leads => by cases opened.symm.trans leads
  | reference origin i target span =>
    refine leads_one fun a leads => ?_
    have last := named _ (List.mem_singleton.mpr rfl)
    cases found : resolve target with
    | none =>
      simp only [found, Option.map_none, Option.getD_none] at leads last
      cases opened.symm.trans leads
      exact last
    | some b =>
      have pointed := Instruction.address?_pointed (i := i) (by rw [opened]; rfl) b
      simp only [found, Option.map_some, Option.getD_some] at leads last
      cases pointed.symm.trans leads
      exact last
  | both p q first second =>
    rw [size] at forward backward
    rw [instructions_both]
    refine (first opened.1 ?_ ?_ ?_).append ?_
    · exact fun k a low less high => forward k a low less (by omega)
    · exact backward.imp And.left fun back k a low le high => back k a low le (by omega)
    · exact fun r mem => named r (List.mem_append_left _ mem)
    · rw [length_instructions]
      refine second opened.2 ?_ ?_ ?_
      · exact fun k a low less high => forward k a (by omega) less (by omega)
      · exact backward.imp And.right fun back k a low le high => back k a (by omega) le (by omega)
      · exact fun r mem => named r (List.mem_append_right _ mem)
  | loop c b condition body =>
    have back := backward.resolve_left id
    rw [size] at forward back
    rw [instructions_loop]
    refine (condition opened.1 ?_ (Or.inr ?_) ?_).append ?_
    · exact fun k a low less high => forward k a low less (by omega)
    · exact fun k a low le high => back k a low le (by omega)
    · exact fun r mem => named r (List.mem_append_left _ mem)
    · rw [length_instructions]
      refine .cons (fun a leads => ?_) (.append (body opened.2 ?_ (Or.inr ?_) ?_) ?_)
      · cases leads
        exact forward _ _ (by omega) (by omega) (by omega)
      · exact fun k a low less high => forward k a (by omega) less (by omega)
      · exact fun k a low le high => back k a (by omega) le (by omega)
      · exact fun r mem => named r (List.mem_append_right _ mem)
      · rw [length_instructions]
        refine leads_one fun a leads => ?_
        cases leads
        exact back _ _ (by omega) (by omega) (by omega)
  | branches p q consequence alternative =>
    rw [size] at forward backward
    rw [instructions_branches]
    refine .cons (fun a leads => ?_) (.append (consequence opened.1 ?_ ?_ ?_) ?_)
    · cases leads
      exact forward _ _ (by omega) (by omega) (by omega)
    · exact fun k a low less high => forward k a (by omega) less (by omega)
    · exact backward.imp And.left fun back k a low le high => back k a (by omega) le (by omega)
    · exact fun r mem => named r (List.mem_append_left _ mem)
    · rw [length_instructions]
      refine .cons (fun a leads => ?_) (alternative opened.2 ?_ ?_ ?_)
      · cases leads
        exact forward _ _ (by omega) (by omega) (by omega)
      · exact fun k a low less high => forward k a (by omega) less (by omega)
      · exact backward.imp And.right fun back k a low le high => back k a (by omega) le (by omega)
      · exact fun r mem => named r (List.mem_append_right _ mem)

end

/-- What the plan leads to is below `bound` or found by name, and what it names is below `bound`. -/
structure Below (resolve : String → Option Nat) (start bound : Nat) (p : Plan) : Prop where
  leads : ∀ x ∈ p.code resolve start, ∀ a, x.instruction.address? = some a →
    a < bound ∨ ∃ name, resolve name = some a
  names : ∀ l ∈ p.labels start, l.address < bound

theorem Below.both (first : Below resolve start bound p)
    (second : Below resolve (start + p.size) bound q) :
    Below resolve start bound (.both p q) := by
  constructor
  · intro x mem
    rcases List.mem_append.mp mem with front | back
    · exact first.leads x front
    · exact second.leads x back
  · intro l mem
    rcases List.mem_append.mp mem with front | back
    · exact first.names l front
    · exact second.names l back

theorem below_one {origin : Origin} {i : Instruction} (nowhere : i.address? = none) :
    Below resolve start bound (.one origin i) := by
  constructor
  · intro x mem a leads
    rw [List.mem_singleton.mp mem, nowhere] at leads
    cases leads
  · intro l mem
    cases mem

theorem address_le_of_mem {l : Label} (mem : l ∈ p.labels start) : l.address ≤ start + p.size := by
  induction p generalizing start with
  | empty | one | reference => cases mem
  | label => rw [List.mem_singleton.mp mem]; exact Nat.le_refl _
  | both _ _ first second | loop _ _ first second | branches _ _ first second =>
    rw [size]
    rcases List.mem_append.mp mem with front | back
    · have := first front
      omega
    · have := second back
      omega

theorem below_of_open (opened : p.Open) (room : start + p.size < bound) :
    Below resolve start bound p := by
  let allowed (_ a : Nat) := a < bound ∨ ∃ name, resolve name = some a
  have leads : Leads allowed start (p.instructions resolve start) := by
    refine leads_instructions opened ?_ (Or.inr ?_) fun r _ => ?_
    · exact fun k a _ _ high => Or.inl (by omega)
    · exact fun k a _ le high => Or.inl (by omega)
    · cases found : resolve r.target with
      | none => exact Or.inl (Nat.zero_lt_of_lt room)
      | some b => exact Or.inr ⟨r.target, found⟩
  constructor
  · intro x mem a address
    obtain ⟨k, here⟩ := List.getElem?_of_mem (List.mem_map_of_mem (f := Placed.instruction) mem)
    exact leads k _ a here address
  · exact fun l mem => Nat.lt_of_le_of_lt (address_le_of_mem mem) room

end Plan
end Dialogue
