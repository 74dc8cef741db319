import Dialogue.Proofs.Conduct.Stack

/-!
Menus are never mixed. The options of a menu are put together one by one, each with a text that may
have to be worked out; nothing that was put together earlier is left when this begins, so a menu is
shown as it is written, and each choice leads where its option says.
-/
namespace Dialogue.Conduct
open Machine (Event Host Natives)
open Meaning (values)
open Script

variable {g : Setting} {snug : Prop} {At : Nat → Point → Prop} {log : List Event} {σ : Type}
variable {m : Machine σ}

theorem unchosen_at_entrance {name : String} (charted : Charted g At)
    (program : m.program = g.program) (on : On g snug At log m) (running : m.status = .running)
    (here : m.program.code[m.core.pc]? = some (.enterNode name)) : m.core.choices = [] := by
  -- The host is told of the node, so no value is being worked out.
  have told : m.events ≠ [] := by
    rw [Machine.events_of_request (Machine.effect?_of_code here) nofun]
    exact nofun
  cases on.running running with
  | silent _ quiet => exact absurd quiet told
  | fails _ quiet => exact absurd quiet told
  | here at_point agrees =>
    cases charted.way _ _ at_point with
    | value formed holds next =>
      exact absurd (step_to_value running program formed holds next agrees).1 told
    | act act =>
      rw [program] at here
      cases act with
      | enter => exact agrees.unchosen
      | store found | line found | blank _ found | call _ found | test found | jump found
        | choice _ found | menu _ found | leave found | finish found | off found =>
        cases found.symm.trans here

/-- The texts that are shown are those of one menu of the node that was entered last. -/
def Shows (es : List Element) (before : List Event) (store : Machine.Variables)
    (texts : List String) (title : String) (offers : List Offer) : Prop :=
  openNode before = some title ∧ Offers es title offers ∧
    values store (offers.map Offer.text) = .ok (texts.map Value.string)

variable {es : List Element} {p : Program} {host : Host σ} {natives : Natives σ} {memory : σ}

/-- In a dialogue without assembly, none of whose menus is empty, the host is only ever shown the
whole of one menu of the node that was entered last, as it is written. While the machine waits,
these are its choices; each leads out of the node and to the entrance of the node its own option
names. No option is left over when a node is entered. -/
theorem menus_unmixed (compiled : compile es = .ok p) (plain : WithoutAssembly es)
    (listed : ∀ e ∈ es, e.block ≠ .list true [])
    (reached : (Machine.new p host natives memory).Reached log m) :
    (∀ before e after texts, log = before ++ e :: after → e.request = .menu texts →
      texts ≠ [] ∧ ∃ title offers, Shows es before e.view.store texts title offers) ∧
    (m.status = .waiting → ∃ before title offers,
      log = before ++ [⟨m.core.view, .menu m.choices⟩] ∧
      Shows es before m.core.store m.choices title offers ∧
      ∀ i, i < m.choices.length → ∃ offer address, offers[i]? = some offer ∧
        p.code[address]? = some (.enterNode offer.destination) ∧
        ∀ fuel, m.choose fuel i =
          let (signal, memory) := host.leave m.core.view title m.memory
          ({ m with
            core := { m.core with pc := address, choices := [] }
            memory
            status := signal.outcome.status } : Machine σ).proceed fuel) ∧
    (m.status = .running → ∀ name, p.code[m.core.pc]? = some (.enterNode name) →
      m.core.choices = []) := by
  obtain ⟨kept, on⟩ := kept_of_compile compiled plain reached
  have charted := charted_of_compile compiled plain
  obtain ⟨program, known, _⟩ := reached.fixed
  refine ⟨fun before e after texts split request => ?_, fun waiting => ?_,
    fun running name here => ?_⟩
  · have proper := (kept.fits split).proper
    rw [request] at proper
    obtain ⟨title, offers, opened, _, ⟨written, bare⟩, shown⟩ := proper
    refine ⟨?_, title, offers, opened, written, shown⟩
    rintro rfl
    have none : offers = [] := by
      have length := Meaning.length_values shown
      rw [List.length_map, List.length_map] at length
      exact List.length_eq_zero_iff.mp length.symm
    obtain ⟨e, mem, empty⟩ := bare none
    exact listed e mem empty
  · obtain ⟨before, title, offers, last, ⟨written, _⟩, agrees⟩ := on.waiting waiting
    have opened : openNode before = some title := by
      have opened := agrees.opened
      rw [last, openNode_next] at opened
      exact opened
    refine ⟨before, title, offers, last, ⟨opened, written, values_of_offered agrees.choices⟩, ?_⟩
    intro i inside
    have current : m.core.node? = some title := agrees.current title rfl
    obtain ⟨choice, there⟩ : ∃ choice, m.core.choices[i]? = some choice := by
      rw [Machine.choices, List.length_map] at inside
      exact ⟨_, List.getElem?_eq_getElem inside⟩
    obtain ⟨offer, here, _, bound⟩ := offered_at agrees.choices there
    refine ⟨offer, choice.target, here, (charted.door _ _ bound).1, fun fuel => ?_⟩
    rw [Machine.choose_eq waiting there, Machine.answered, current, known]
    rfl
  · exact unchosen_at_entrance charted program on running (by rw [program]; exact here)

/-- A menu that leads back to its node and whose one text is a conditional. -/
theorem menus_unmixed_conditional :
    let text := "(choose ((if true \"on\" \"off\") A))".toList
    let es : List Element := [⟨.heading 1 ['A'], default⟩,
      ⟨.fence ⟨text, (⟨text, ""⟩ : Source).whole⟩, default⟩]
    let p : Program :=
      ⟨0, [.enterNode "A", .pushBool true, .jumpIfFalse 5, .pushString "on", .jump 6,
      .pushString "off", .pushChoice 0, .showChoice "A", .exitNode "A", .endDialogue]⟩
    compile es = .ok p ∧ ∃ r m, (Machine.new p .patient [] ()).run 9 = some (r, m) ∧
      m.choices = ["on"] ∧
      ∃ before title offers, Shows es before m.core.store ["on"] title offers := by
  intro text es p
  have compiled : compile es = .ok p := compile_of_toOption (by decide +kernel)
  have ended : ((Machine.new p .patient [] ()).run 9).map
      (fun r => (r.2.status, r.2.choices)) = some (.waiting, ["on"]) := by decide +kernel
  obtain ⟨⟨r, m⟩, run, same⟩ := Option.map_eq_some_iff.mp ended
  obtain ⟨waiting, choices⟩ := Prod.mk.inj same
  obtain ⟨log, reached⟩ := (Machine.Reached.new.ran run).reached
  have unmixed := menus_unmixed compiled (by decide +kernel) (by decide) reached
  obtain ⟨before, title, offers, _, shows, _⟩ := unmixed.2.1 waiting
  change m.choices = ["on"] at choices
  rw [choices] at shows
  exact ⟨compiled, r, m, run, choices, before, title, offers, shows⟩

end Dialogue.Conduct
