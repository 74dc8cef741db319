import Dialogue.Proofs.Machine.Patience
import Dialogue.Proofs.Terminal.Answering
import Dialogue.Terminal.Command

/-!
Playing a game to its end. The machine is run once and then answered at every menu it comes to, by
the first of the lines still unread that names an option. Lines that name none cost the player a
hint and the machine nothing. So the machine is never asked for what it would refuse, and a game
ends only where the machine stops or fails, or at a menu when nothing more is typed.
-/
namespace Dialogue.Terminal
open Machine (Operation Reply Returns Trace Status)
open Session (prompted settle)

variable {styling : Styling} {p : Program} {lines unread typed rest : List (List Char)}
  {m m' menu : Machine Screen}
  {op : Operation} {fuel n count : Nat} {s s' : Session} {line : List Char}

/-- The screen when the player is asked once more, after these lines that named none of `count`
options. -/
def Screen.asked (styling : Styling) (count : Nat) (s : Screen) : List (List Char) → Screen
  | [] => s.write (promptText styling)
  | _ :: ls =>
    ((s.write (promptText styling)).report (hintText styling count)).asked styling count ls

def asked (styling : Styling) (menu : Machine Screen) (typed : List (List Char)) : Machine Screen :=
  { menu with memory := menu.memory.asked styling menu.core.choices.length typed }

/-- In the game the machine, as `m`, is asked for `op`, and the lines `rest` are not read yet. -/
inductive Turn (styling : Styling) (p : Program) (lines : List (List Char)) :
    Machine Screen → Operation → List (List Char) → Prop where
  | run : Turn styling p lines (.new p (host styling) [] Screen.blank) .run lines
  | choose {m menu : Machine Screen} {op : Operation} {unread typed rest : List (List Char)}
      {fuel n : Nat} (turn : Turn styling p lines m op unread)
      (waits : m.operate fuel op = some (.ok (.status .waiting), menu))
      (chosen : Chosen menu.core.choices.length unread typed rest n) :
      Turn styling p lines (asked styling menu typed) (.choose (n - 1)) rest

/-- The ways in which a game comes to its end. -/
inductive Closes (styling : Styling) (p : Program) (lines : List (List Char)) : Session → Prop where
  | stopped {m m' : Machine Screen} {op : Operation} {rest : List (List Char)} {fuel : Nat}
      (turn : Turn styling p lines m op rest)
      (stops : m.operate fuel op = some (.ok (.status .stopped), m')) :
      Closes styling p lines ⟨styling, m', .over⟩
  | failed {m m' : Machine Screen} {op : Operation} {rest : List (List Char)} {fuel : Nat}
      {t : Trace} (turn : Turn styling p lines m op rest)
      (fails : m.operate fuel op = some (.error t, m')) :
      Closes styling p lines ⟨styling, m', .failed t⟩
  | left {m menu : Machine Screen} {op : Operation} {rest : List (List Char)} {fuel : Nat}
      (turn : Turn styling p lines m op rest)
      (waits : m.operate fuel op = some (.ok (.status .waiting), menu))
      (unchosen : Unchosen menu.core.choices.length rest) :
      Closes styling p lines ⟨styling, asked styling menu rest, .asking⟩

/-! What the machine is asked. -/

theorem patient_host (styling : Styling) : Machine.Patient (host styling) [] :=
  ⟨fun _ _ _ => rfl, fun _ _ _ => rfl, fun _ _ _ => rfl, nofun⟩

theorem Turn.patient (turn : Turn styling p lines m op rest) :
    Machine.Patient m.host m.natives := by
  induction turn with
  | run => exact patient_host styling
  | choose _ waits _ patient =>
    obtain ⟨log, reached⟩ := (Machine.Reached.new.operated waits).reached
    obtain ⟨_, host, natives⟩ := reached.fixed
    rw [← host, ← natives] at patient
    exact patient

structure Due (m : Machine Screen) (op : Operation) : Prop where
  status : ∀ a, op.action? = some a → m.status = a.due
  offered : ∀ index, op = .choose index → index < m.core.choices.length

theorem Turn.begins (turn : Turn styling p lines m op rest) (due : Due m op) :
    ∃ begun, m.Begins op begun ∧ begun.status = .running := by
  have patient := turn.patient
  cases turn with
  | run => exact ⟨_, .run, rfl⟩
  | @choose _ menu _ _ typed _ _ n _ _ _ =>
    have there := List.getElem?_eq_getElem (due.offered _ rfl)
    refine ⟨_, .choose there, ?_⟩
    exact congrArg (fun s => s.outcome.status) (patient.leave _ _ _)

theorem Turn.returns_of_due (turn : Turn styling p lines m op rest) (due : Due m op)
    {r : Except Trace Reply} (done : m.operate fuel op = some (r, m')) : Returns m' r := by
  obtain ⟨begun, begins, running⟩ := turn.begins due
  exact turn.patient.operate begins due.status running done

theorem Turn.due (turn : Turn styling p lines m op rest) : Due m op := by
  induction turn with
  | run =>
    refine ⟨fun a asks => ?_, nofun⟩
    cases asks
    rfl
  | choose turn waits chosen due =>
    obtain ⟨_, _, _, picks⟩ := chosen
    constructor
    · intro a asks
      cases asks
      cases turn.returns_of_due due waits with
      | waiting status => exact status
    · intro index same
      cases same
      have first := picks.first
      have last := picks.last
      change _ < List.length _
      dsimp only [asked]
      omega

theorem Turn.returns (turn : Turn styling p lines m op rest) {r : Except Trace Reply}
    (done : m.operate fuel op = some (r, m')) : Returns m' r :=
  turn.returns_of_due turn.due done

theorem Turn.operate_mono (turn : Turn styling p lines m op rest)
    {r : Except Trace Reply × Machine Screen} (done : m.operate fuel op = some r) {more : Nat}
    (le : fuel ≤ more) : m.operate more op = some r := by
  obtain ⟨begun, begins, _⟩ := turn.begins turn.due
  exact begins.operate_mono turn.due.status done le

/-! What is done with an answer of the machine's and with a line of the player's. -/

def came (styling : Styling) : Except Trace Reply × Machine Screen → Session
  | (.ok (.status .waiting), m) => prompted styling m
  | (.ok _, m) => ⟨styling, m, .over⟩
  | (.error t, m) => ⟨styling, m, .failed t⟩

theorem settle_eq {x : Option (Except Trace Status × Machine Screen)}
    (returns : ∀ r m, (x.map fun r => (r.1.map Reply.status, r.2)) = some (r, m) → Returns m r) :
    settle styling fuel x = (x.map fun r => (r.1.map .status, r.2)).map (came styling) := by
  match x, returns with
  | none, _ => cases fuel <;> rfl
  | some (.error t, m), _ => cases fuel <;> rfl
  -- The terminal does not pause the machine, so nothing is resumed.
  | some (.ok .suspended, m), returns => cases returns _ m rfl
  | some (.ok .waiting, m), _ | some (.ok .stopped, m), _ | some (.ok .running, m), _
  | some (.ok .faulted, m), _ => cases fuel <;> rfl

theorem begin_eq (fuel : Nat) (styling : Styling) (p : Program) : Session.begin fuel styling p =
    ((Machine.new p (host styling) [] Screen.blank).operate fuel .run).map (came styling) := by
  have turn : Turn styling p [] _ .run [] := .run
  exact settle_eq fun _ _ done => turn.returns done

theorem answer_chosen {index : Nat} (turn : Turn styling p lines m (.choose index) rest)
    (found : option? m.core.choices.length line = some index) :
    Session.answer fuel ⟨styling, m, .asking⟩ line =
      (m.operate fuel (.choose index)).map (came styling) := by
  rw [Session.answer]
  dsimp only
  rw [found]
  exact settle_eq fun _ _ done => turn.returns done

theorem Screen.asked_append_singleton (s : Screen) (ls : List (List Char)) (l : List Char) :
    s.asked styling count (ls ++ [l]) =
      ((s.asked styling count ls).report (hintText styling count)).write (promptText styling) := by
  induction ls generalizing s with
  | nil => rfl
  | cons _ ls ih => exact ih _

/-- A line that names no option leaves the machine as it is. -/
theorem answer_unchosen (missing : option? menu.core.choices.length line = none) :
    Session.answer fuel ⟨styling, asked styling menu typed, .asking⟩ line =
      some ⟨styling, asked styling menu (typed ++ [line]), .asking⟩ := by
  rw [Session.answer]
  dsimp only [asked]
  rw [missing, Screen.asked_append_singleton]
  rfl

/-! From the lines to the turns. -/

inductive Stage (styling : Styling) (p : Program) (lines : List (List Char)) :
    Session → List (List Char) → Prop where
  | asking {m menu : Machine Screen} {op : Operation} {typed rest : List (List Char)} {fuel : Nat}
      (turn : Turn styling p lines m op (typed ++ rest))
      (waits : m.operate fuel op = some (.ok (.status .waiting), menu))
      (unchosen : Unchosen menu.core.choices.length typed) :
      Stage styling p lines ⟨styling, asked styling menu typed, .asking⟩ rest
  | closed {s : Session} {rest : List (List Char)} (closes : Closes styling p lines s)
      (ended : s.standing ≠ .asking) :
      Stage styling p lines s rest

theorem Turn.stage (turn : Turn styling p lines m op rest)
    (left : (m.operate fuel op).map (came styling) = some s) : Stage styling p lines s rest := by
  obtain ⟨⟨r, m'⟩, done, rfl⟩ := Option.map_eq_some_iff.mp left
  cases turn.returns done with
  | waiting =>
    have turn : Turn styling p lines m op ([] ++ rest) := turn
    exact .asking turn done (unchosen_nil _)
  | stopped => exact .closed (.stopped turn done) nofun
  | failed => exact .closed (.failed turn done) nofun

theorem Stage.answer (stage : Stage styling p lines s (line :: rest))
    (asking : s.standing = .asking) (answered : s.answer fuel line = some s') :
    Stage styling p lines s' rest := by
  cases stage with
  | closed _ ended => exact absurd asking ended
  | @asking _ menu _ typed _ _ turn waits unchosen =>
    cases found : option? menu.core.choices.length line with
    | none =>
      rw [answer_unchosen found] at answered
      cases answered
      rw [List.append_cons] at turn
      exact .asking turn waits (unchosen_append_singleton unchosen found)
    | some index =>
      have chosen :
          Chosen menu.core.choices.length (typed ++ line :: rest) typed rest (index + 1) :=
        ⟨line, rfl, unchosen, picks_of_option? found⟩
      have next := turn.choose waits chosen
      rw [answer_chosen next found] at answered
      exact next.stage answered

theorem Stage.closes (stage : Stage styling p lines s rest)
    (answered : s.answerAll fuel rest = some s') :
    Closes styling p lines s' := by
  induction rest generalizing s with
  | nil =>
    cases answered
    cases stage with
    | closed closes _ => exact closes
    | asking turn waits unchosen => exact .left (by simpa using turn) waits unchosen
  | cons line rest ih =>
    rw [Session.answerAll] at answered
    split at answered
    · rename_i asking
      obtain ⟨next, one, others⟩ := Option.bind_eq_some_iff.mp answered
      exact ih (stage.answer asking one) others
    · rename_i ended
      cases answered
      cases stage with
      | closed closes _ => exact closes
      | asking => exact absurd rfl ended

/-! From the turns to the lines. -/

theorem answerAll_ended (ended : s.standing ≠ .asking) (fuel : Nat) (lines : List (List Char)) :
    s.answerAll fuel lines = some s := by
  cases lines with
  | nil => rfl
  | cons line rest =>
    rw [Session.answerAll]
    split
    · rename_i asking
      exact absurd asking ended
    · rfl

theorem answerAll_unchosen (unchosen : Unchosen menu.core.choices.length unread) (fuel : Nat) :
    Session.answerAll fuel ⟨styling, asked styling menu typed, .asking⟩ (unread ++ rest) =
      Session.answerAll fuel ⟨styling, asked styling menu (typed ++ unread), .asking⟩ rest := by
  induction unread generalizing typed with
  | nil => rw [List.append_nil, List.nil_append]
  | cons line unread ih =>
    have missing := option?_of_unchosen unchosen List.mem_cons_self
    rw [List.cons_append, Session.answerAll]
    dsimp only
    rw [answer_unchosen missing, List.append_cons typed line unread]
    exact ih fun l mem => unchosen l (List.mem_cons_of_mem line mem)

/-- With every bound that is great enough the game comes to this turn, and goes on from here. -/
def Played (styling : Styling) (p : Program) (lines : List (List Char)) (m : Machine Screen)
    (op : Operation) (rest : List (List Char)) : Prop :=
  ∃ enough, ∀ fuel, enough ≤ fuel →
    play fuel styling p lines =
      ((m.operate fuel op).map (came styling)).bind fun s => s.answerAll fuel rest

theorem Played.done (played : Played styling p lines m op rest)
    (turn : Turn styling p lines m op rest) {r : Except Trace Reply}
    (done : m.operate fuel op = some (r, m')) :
    ∃ enough, ∀ fuel, enough ≤ fuel → play fuel styling p lines =
      (came styling (r, m')).answerAll fuel rest := by
  obtain ⟨enough, goes⟩ := played
  refine ⟨max enough fuel, fun more le => ?_⟩
  have same := turn.operate_mono done ((Nat.le_max_right enough fuel).trans le)
  rw [goes more ((Nat.le_max_left enough fuel).trans le), same]
  rfl

theorem Turn.played (turn : Turn styling p lines m op rest) : Played styling p lines m op rest := by
  induction turn with
  | run => exact ⟨0, fun fuel _ => by rw [← begin_eq]; rfl⟩
  | @choose m menu op unread typed rest bound n turn waits chosen played =>
    have next := turn.choose waits chosen
    obtain ⟨enough, goes⟩ := played.done turn waits
    obtain ⟨line, rfl, unchosen, picks⟩ := chosen
    have found := option?_of_picks picks
    refine ⟨enough, fun fuel le => ?_⟩
    calc play fuel styling p lines
      _ = Session.answerAll fuel ⟨styling, asked styling menu [], .asking⟩
          (typed ++ line :: rest) := goes fuel le
      _ = Session.answerAll fuel ⟨styling, asked styling menu typed, .asking⟩ (line :: rest) :=
        answerAll_unchosen unchosen fuel
      _ = (Session.answer fuel ⟨styling, asked styling menu typed, .asking⟩ line).bind
            fun s => s.answerAll fuel rest := rfl
      _ = _ := by rw [answer_chosen next found]

theorem Closes.played (closes : Closes styling p lines s) :
    ∃ enough, ∀ fuel, enough ≤ fuel → play fuel styling p lines = some s := by
  cases closes with
  | stopped turn stops =>
    obtain ⟨enough, goes⟩ := turn.played.done turn stops
    exact ⟨enough, fun fuel le => (goes fuel le).trans (answerAll_ended (by rintro ⟨⟩) fuel _)⟩
  | failed turn fails =>
    obtain ⟨enough, goes⟩ := turn.played.done turn fails
    exact ⟨enough, fun fuel le => (goes fuel le).trans (answerAll_ended (by rintro ⟨⟩) fuel _)⟩
  | @left _ menu _ rest _ turn waits unchosen =>
    obtain ⟨enough, goes⟩ := turn.played.done turn waits
    refine ⟨enough, fun fuel le => (goes fuel le).trans ?_⟩
    have all : Session.answerAll fuel ⟨styling, asked styling menu [], .asking⟩ (rest ++ []) =
        some ⟨styling, asked styling menu rest, .asking⟩ := answerAll_unchosen unchosen fuel
    rwa [List.append_nil] at all

/-! Games. -/

theorem Turn.endless_or_closes (turn : Turn styling p lines m op rest) :
    (∃ m op rest, Turn styling p lines m op rest ∧ ∀ fuel, m.operate fuel op = none) ∨
      ∃ s, Closes styling p lines s := by
  -- Each turn reads at least one line.
  induction length : rest.length using Nat.strong_induction_on generalizing m op rest with
  | _ k ih =>
    by_cases endless : ∀ fuel, m.operate fuel op = none
    · exact .inl ⟨m, op, rest, turn, endless⟩
    · obtain ⟨fuel, ended⟩ := not_forall.mp endless
      obtain ⟨⟨r, m'⟩, done⟩ := Option.ne_none_iff_exists'.mp ended
      cases turn.returns done with
      | stopped => exact .inr ⟨_, .stopped turn done⟩
      | failed => exact .inr ⟨_, .failed turn done⟩
      | waiting =>
        rcases unchosen_or_chosen m'.core.choices.length rest
          with unchosen | ⟨typed, later, n, chosen⟩
        · exact .inr ⟨_, .left turn done unchosen⟩
        · have next := turn.choose done chosen
          obtain ⟨line, rfl, _, _⟩ := chosen
          refine ih later.length ?_ next rfl
          rw [← length, List.length_append, List.length_cons]
          omega

theorem closes_of_play (played : play fuel styling p lines = some s) :
    Closes styling p lines s := by
  obtain ⟨first, begun, answered⟩ := Option.bind_eq_some_iff.mp played
  rw [begin_eq] at begun
  exact (Turn.run.stage begun).closes answered

theorem endless_iff : (∀ fuel, play fuel styling p lines = none) ↔
    ∃ m op rest, Turn styling p lines m op rest ∧ ∀ fuel, m.operate fuel op = none := by
  constructor
  · intro never
    have first : Turn styling p lines _ .run lines := .run
    rcases first.endless_or_closes with endless | ⟨s, closes⟩
    · exact endless
    · obtain ⟨enough, played⟩ := closes.played
      cases (never enough).symm.trans (played enough (Nat.le_refl _))
  · rintro ⟨m, op, rest, turn, endless⟩ fuel
    cases ended : play fuel styling p lines with
    | none => rfl
    | some s =>
      obtain ⟨enough, played⟩ := (closes_of_play ended).played
      obtain ⟨later, goes⟩ := turn.played
      have never := goes (max enough later) (Nat.le_max_right _ _)
      rw [endless] at never
      cases never.symm.trans (played _ (Nat.le_max_left _ _))

/-- How the command ends when the game does: with success, unless the machine has failed. -/
inductive Ended (s : Session) : Standing → Prop where
  | asking (status : s.machine.status = .waiting) (success : s.finish = .success s.screen) :
      Ended s .asking
  | over (status : s.machine.status = .stopped) (success : s.finish = .success s.screen) :
      Ended s .over
  | failed {t : Trace} (status : s.machine.status = .faulted) (fault : t.fault.OfInstruction)
      (failure : s.finish = .failure s.styling s.screen t.text) : Ended s (.failed t)

theorem Closes.ended (closes : Closes styling p lines s) : Ended s s.standing := by
  cases closes with
  | stopped turn stops =>
    cases turn.returns stops with
    | stopped status => exact .over status rfl
  | failed turn fails =>
    cases turn.returns fails with
    | failed status fault => exact .failed status fault rfl
  | left turn waits =>
    cases turn.returns waits with
    | waiting status => exact .asking status rfl

structure Orderly (styling : Styling) (p : Program) (lines : List (List Char)) : Prop where
  /-- The machine is only asked for what is due, and for options that are there. -/
  due : ∀ m op rest, Turn styling p lines m op rest → Due m op
  /-- So none of its faults is a refusal. -/
  faults : ∀ m op rest fuel t m', Turn styling p lines m op rest →
    m.operate fuel op = some (.error t, m') → t.fault.OfInstruction
  /-- Whatever the bound on the instructions of a turn, the game ends turn by turn. -/
  closes : ∀ fuel s, play fuel styling p lines = some s → Closes styling p lines s
  /-- It comes to its end with every bound that is great enough. -/
  enough : ∀ s, Closes styling p lines s →
    ∃ enough, ∀ fuel, enough ≤ fuel → play fuel styling p lines = some s
  /-- A game that has no end has a turn that has none. -/
  endless : (∀ fuel, play fuel styling p lines = none) ↔
    ∃ m op rest, Turn styling p lines m op rest ∧ ∀ fuel, m.operate fuel op = none
  ended : ∀ s, Closes styling p lines s → Ended s s.standing

/-- Whatever the program does and whatever the player types, the game is orderly. -/
theorem play_orderly (styling : Styling) (p : Program) (lines : List (List Char)) :
    Orderly styling p lines where
  due _ _ _ turn := turn.due
  faults m op rest fuel t m' turn failed := by
    cases turn.returns failed with
    | failed _ fault => exact fault
  closes _ _ played := closes_of_play played
  enough _ closes := closes.played
  endless := endless_iff
  ended _ closes := closes.ended

/-- A menu with two options. The player asks for a third one and then, with blanks and a sign, for
the second. -/
theorem play_orderly_after_hint :
    let p : Program :=
      ⟨0, [.pushString "Yes", .pushChoice 5, .pushString "No", .pushChoice 6, .showChoice "A",
      .endDialogue, .popValue]⟩
    let lines := [['3'], [' ', '+', '0', '2', '\t'], ['1']]
    ∃ s, play 9 .off p lines = some s ∧ Closes .off p lines s ∧ Ended s s.standing ∧
      s.standing = .failed ⟨.stackUnderflow 1 0, some 6, some .popValue⟩ := by
  intro p lines
  have ended : (play 9 .off p lines).map Session.standing =
      some (.failed ⟨.stackUnderflow 1 0, some 6, some .popValue⟩) := by decide +kernel
  obtain ⟨s, played, standing⟩ := Option.map_eq_some_iff.mp ended
  have orderly := play_orderly .off p lines
  have closes := orderly.closes 9 s played
  exact ⟨s, played, closes, orderly.ended s closes, standing⟩

end Dialogue.Terminal
