import Dialogue.Proofs.Machine.Transitions

/-!
How far an operation goes. What it comes to is the same with every bound that is enough for it,
and when nobody pauses the machine it only comes back at a menu, at a stop or with a fault.
-/
namespace Dialogue.Machine
variable {σ : Type} {m m' begun : Machine σ} {fuel more : Nat}

theorem proceed_mono {r : Except Trace Status × Machine σ} (ended : m.proceed fuel = some r)
    (le : fuel ≤ more) :
    m.proceed more = some r := by
  induction fuel generalizing m more with
  | zero =>
    by_cases running : m.status = .running
    · rw [proceed_zero running] at ended
      cases ended
    · rwa [proceed_halted running] at ended ⊢
  | succ fuel ih =>
    by_cases running : m.status = .running
    · obtain ⟨more, rfl⟩ := Nat.exists_eq_add_of_lt le
      rcases stepped : m.step with ⟨t | o, next⟩
      · rw [proceed_of_error running stepped] at ended ⊢
        exact ended
      · rw [proceed_of_ok running stepped] at ended ⊢
        exact ih ended (Nat.le_add_right fuel more)
    · rwa [proceed_halted running] at ended ⊢

theorem Begins.operate {op : Operation} (begins : m.Begins op begun)
    (due : ∀ a, op.action? = some a → m.status = a.due) (fuel : Nat) :
    m.operate fuel op = (begun.proceed fuel).map fun r => (r.1.map .status, r.2) := by
  cases begins with
  | run => exact operate_run (start_of_stopped (due _ rfl)) fuel
  | resume => exact operate_resume (due _ rfl) fuel
  | choose there => exact operate_choose (due _ rfl) there fuel

theorem Begins.operate_mono {op : Operation} (begins : m.Begins op begun)
    (due : ∀ a, op.action? = some a → m.status = a.due) {r : Except Trace Reply × Machine σ}
    (done : m.operate fuel op = some r) (le : fuel ≤ more) : m.operate more op = some r := by
  rw [begins.operate due] at done ⊢
  obtain ⟨left, ended, same⟩ := Option.map_eq_some_iff.mp done
  exact Option.map_eq_some_iff.mpr ⟨left, proceed_mono ended le, same⟩

structure Patient (h : Host σ) (ns : Natives σ) : Prop where
  enter : ∀ view node w, (h.enter view node w).1 = .proceed
  leave : ∀ view node w, (h.leave view node w).1 = .proceed
  line : ∀ view text w, (h.line view text w).1 = .proceed
  invoke : ∀ name n, ns.lookup name = some n → ∀ arguments w, (n.invoke arguments w).1 ≠ .ok .pause

theorem Patient.ask (patient : Patient m.host m.natives) {r : Request} {o : Outcome} {w : σ}
    (answer : m.ask r = (.ok o, w)) : o ≠ .suspended := by
  rintro rfl
  cases r with
  | nothing | menu | finish => cases answer
  | enter node =>
    simp only [Machine.ask, patient.enter] at answer
    cases answer
  | leave node =>
    simp only [Machine.ask, patient.leave] at answer
    cases answer
  | line text =>
    simp only [Machine.ask, patient.line] at answer
    cases answer
  | call name arguments =>
    simp only [Machine.ask] at answer
    split at answer
    · cases answer
    · rename_i n found
      have goes := patient.invoke name n found arguments m.memory
      split at answer
      · cases answer
      · rename_i s w' invoked
        rw [invoked] at goes
        cases s with
        | proceed => cases answer
        | pause => exact goes rfl

theorem Patient.step (patient : Patient m.host m.natives) {o : Outcome}
    (stepped : m.step = (.ok o, m')) :
    o ≠ .suspended := by
  have running := running_of_ok stepped
  cases effect : m.effect? with
  | none =>
    have outside := Option.map_eq_none_iff.mp effect
    cases (step_outside running outside).symm.trans stepped
  | some e =>
    rcases step_cases running effect
      with ⟨_, _, _, failed⟩ | ⟨_, _, _, _, _, _, failed⟩ | ⟨r, _, _, _, answer, went⟩
    · cases failed.symm.trans stepped
    · cases failed.symm.trans stepped
    · cases went.symm.trans stepped
      have patient : Patient ({ m with core := e.2 } : Machine σ).host
          ({ m with core := e.2 } : Machine σ).natives :=
        patient
      exact patient.ask answer

theorem Patient.proceed (patient : Patient m.host m.natives) (awake : m.status ≠ .suspended)
    {s : Status} (ended : m.proceed fuel = some (.ok s, m')) : s ≠ .suspended := by
  induction fuel generalizing m with
  | zero =>
    by_cases running : m.status = .running
    · rw [proceed_zero running] at ended
      cases ended
    · rw [proceed_halted running] at ended
      cases ended
      exact awake
  | succ fuel ih =>
    by_cases running : m.status = .running
    · rcases stepped : m.step with ⟨t | o, next⟩
      · rw [proceed_of_error running stepped] at ended
        cases ended
      · rw [proceed_of_ok running stepped] at ended
        obtain ⟨_, host, natives⟩ := m.step_fixed
        rw [stepped] at host natives
        have status := step_status_of_ok stepped
        refine ih (by rw [host, natives]; exact patient) ?_ ended
        rw [status]
        have goes := patient.step stepped
        cases o with
        | suspended => exact absurd rfl goes
        | _ => nofun
    · rw [proceed_halted running] at ended
      cases ended
      exact awake

/-- How a run or an answer ends if nobody pauses the machine: at the next menu, at a stop or with
the fault of an instruction. -/
inductive Returns (m' : Machine σ) : Except Trace Reply → Prop where
  | waiting (status : m'.status = .waiting) : Returns m' (.ok (.status .waiting))
  | stopped (status : m'.status = .stopped) : Returns m' (.ok (.status .stopped))
  | failed {t : Trace} (status : m'.status = .faulted) (fault : t.fault.OfInstruction) :
      Returns m' (.error t)

theorem Patient.operate {op : Operation} (patient : Patient m.host m.natives)
    (begins : m.Begins op begun) (due : ∀ a, op.action? = some a → m.status = a.due)
    (running : begun.status = .running) {r : Except Trace Reply}
    (done : m.operate fuel op = some (r, m')) : Returns m' r := by
  have patient : Patient begun.host begun.natives := by cases begins <;> exact patient
  rw [begins.operate due] at done
  obtain ⟨⟨s, left⟩, ended, same⟩ := Option.map_eq_some_iff.mp done
  cases same
  have awake (s : Status) (other : s ≠ .running) : begun.status ≠ s := running ▸ other.symm
  cases proceed_finishes (awake _ nofun) ended with
  | settled settled =>
    rcases settled with suspended | waiting | stopped
    · exact absurd suspended (patient.proceed (awake _ nofun) ended)
    · have returns := Returns.waiting waiting
      rwa [← waiting] at returns
    · have returns := Returns.stopped stopped
      rwa [← stopped] at returns
  | failed left stumbles =>
    obtain ⟨_, _, _, _, _, place⟩ := stumbles
    exact .failed left place.fault

end Dialogue.Machine
