import Dialogue.Proofs.Machine.Reaching

/-!
What is asked of the host in the course of an operation, whether or not the operation comes to an
end within its bound. Each instruction adds what it asks, and a machine that has halted asks
nothing.
-/
namespace Dialogue.Machine
variable {σ : Type} {m m' : Machine σ} {fuel : Nat}

def told : Nat → Machine σ → List Event
  | 0, _ => []
  | fuel + 1, m => if m.status = .running then m.events ++ told fuel m.step.2 else []

def toldBy (fuel : Nat) (m : Machine σ) : Operation → List Event
  | .start | .reset => []
  | .run => m.start.2.told fuel
  | .step => m.told 1
  | .resume =>
    if m.status = .suspended then ({ m with status := .running } : Machine σ).told fuel else []
  | .choose index =>
    match m.core.choices[index]? with
    | some choice =>
      if m.status = .waiting then m.farewell :: (m.answered choice).told fuel else []
    | none => []

theorem told_halted (halted : m.status ≠ .running) (fuel : Nat) : m.told fuel = [] := by
  cases fuel with
  | zero => rfl
  | succ fuel => simp [told, halted]

theorem told_succ (running : m.status = .running) (fuel : Nat) :
    m.told (fuel + 1) = m.events ++ m.step.2.told fuel := by
  simp [told, running]

theorem proceed_halted (halted : m.status ≠ .running) (fuel : Nat) :
    m.proceed fuel = some (.ok m.status, m) := by
  unfold proceed
  rw [if_pos halted]

theorem proceed_zero (running : m.status = .running) : m.proceed 0 = none := by
  unfold proceed
  rw [if_neg (not_not_intro running)]

theorem proceed_of_ok {o : Outcome} (running : m.status = .running) (stepped : m.step = (.ok o, m'))
    (fuel : Nat) : m.proceed (fuel + 1) = m'.proceed fuel := by
  rw [proceed, if_neg (not_not_intro running), stepped]

theorem proceed_of_error {t : Trace} (running : m.status = .running)
    (stepped : m.step = (.error t, m')) (fuel : Nat) :
    m.proceed (fuel + 1) = some (.error t, m') := by
  rw [proceed, if_neg (not_not_intro running), stepped]

theorem operate_run (begun : m.start = (.ok (), m')) (fuel : Nat) :
    m.operate fuel .run = (m'.proceed fuel).map fun r => (r.1.map .status, r.2) := by
  rw [operate, run, begun]

theorem operate_resume (suspended : m.status = .suspended) (fuel : Nat) :
    m.operate fuel .resume =
      (({ m with status := .running } : Machine σ).proceed fuel).map fun r =>
        (r.1.map .status, r.2) := by
  rw [operate, resume, if_neg (not_not_intro suspended)]

theorem operate_choose {index : Nat} {choice : Choice} (waiting : m.status = .waiting)
    (there : m.core.choices[index]? = some choice) (fuel : Nat) :
    m.operate fuel (.choose index) =
      ((m.answered choice).proceed fuel).map fun r => (r.1.map .status, r.2) := by
  rw [operate, choose_eq waiting there]

theorem operate_choose_missing {index : Nat} (waiting : m.status = .waiting)
    (missing : m.core.choices[index]? = none) (fuel : Nat) : m.operate fuel (.choose index) =
      some (.error { fault := .choiceOutOfRange index m.core.choices.length }, m) := by
  rw [operate, choose, if_neg (not_not_intro waiting), missing]
  rfl

theorem toldBy_run (begun : m.start = (.ok (), m')) (fuel : Nat) :
    m.toldBy fuel .run = m'.told fuel := by
  rw [toldBy, begun]

theorem toldBy_resume (suspended : m.status = .suspended) (fuel : Nat) :
    m.toldBy fuel .resume = ({ m with status := .running } : Machine σ).told fuel := by
  rw [toldBy, if_pos suspended]

theorem toldBy_choose {index : Nat} {choice : Choice} (waiting : m.status = .waiting)
    (there : m.core.choices[index]? = some choice) (fuel : Nat) :
    m.toldBy fuel (.choose index) = m.farewell :: (m.answered choice).told fuel := by
  simp [toldBy, there, waiting]

theorem toldBy_choose_missing {index : Nat} (missing : m.core.choices[index]? = none) (fuel : Nat) :
    m.toldBy fuel (.choose index) = [] := by
  simp [toldBy, missing]

theorem running_of_ok {o : Outcome} (stepped : m.step = (.ok o, m')) : m.status = .running := by
  by_cases running : m.status = .running
  · exact running
  · have refused : m.step = m.refuse .step := if_pos running
    cases refused.symm.trans stepped

theorem step_status_of_ok {o : Outcome} (stepped : m.step = (.ok o, m')) :
    m'.status = o.status := by
  have := m.step_status
  rwa [stepped] at this

theorem step_status_of_error {t : Trace} (stepped : m.step = (.error t, m')) :
    m'.status = .faulted := by
  have := m.step_status
  rwa [stepped] at this

end Dialogue.Machine
