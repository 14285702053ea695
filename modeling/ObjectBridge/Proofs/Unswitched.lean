import Mathlib.Data.List.Forall2
import ObjectBridge.Proofs.Switching

/-!
# Sessions without switches

A muted step masks the step, and by induction on the depth so do the functions and the nested steps
of a muted script.  Step by step a session without its reports of switches then masks the session,
whatever the switches are, so two sessions that differ in switches give the same answers.
-/

namespace ObjectBridge

open Program Script

variable {mark : Failure} {loud : Bool}

/-- Nothing is given back where there are no newer temporaries. -/
theorem World.settle_nothing (w : World) : w.settle w.store.held.length [] = (.done (), w) := by
  simp only [settle, Nat.sub_self, List.take_zero, List.drop_zero, Store.part, List.nil_append,
    release, withStore, Store.release, Outcome.ofFaults]

namespace Session

/-- A step that reports switches changes nothing but a switch. -/
theorem judge_of_reportsSwitches (calls : Calls) {step : Step}
    (reports : step.reportsSwitches = true) (w : World) :
    ∃ v on, judge calls step w = (v, { w with tracing := on }) ∧ v.ReportsSwitches := by
  have ended (report : Report) (on : Bool)
      (ran : (respond step).run.run calls w = (.done (.ok report), { w with tracing := on })) :
      judge calls step w = (.success report, { w with tracing := on }) := by
    have settled := World.settle_nothing { w with tracing := on }
    dsimp only at settled
    simp only [judge, ran, settled, closeVerdict]
  cases step with
  | bridge => exact ⟨_, w.tracing, ended _ _ rfl, .bridge _ _⟩
  | setDiagnostics on => exact ⟨_, on, ended _ _ rfl, .diagnostics _⟩
  | diagnostics => exact ⟨_, w.tracing, ended _ _ rfl, .diagnostics _⟩
  | _ => simp [Step.reportsSwitches] at reports

/-- The mark changes nothing. -/
theorem judge_mark (calls : Calls) (w : World) :
    judge calls (.raise mark) w = (.failure mark, w) := by
  have ran : (respond (.raise mark)).run.run calls w = (.done (.error mark), w) := rfl
  simp only [judge, ran, World.settle_nothing, closeVerdict]

variable {calls calls' : Calls} {inside : Request → World → List FatalSignal} {w w' : World}

/-- A step that does not report switches ends in the same way in the muted script. -/
theorem judge_other (mask : calls.Mask mark loud calls' inside) (masks : w.Masks mark loud w')
    {step : Step} (other : step.reportsSwitches = false)
    (calm : Calm loud ((respond step).run.raised calls' inside w')) :
    (judge calls (step.muted mark) w).1 = (judge calls' step w').1
      ∧ (judge calls (step.muted mark) w).2.Masks mark loud (judge calls' step w').2 := by
  have ran := masks_respond other mask masks calm
  have count : w'.store.held.length = w.store.held.length := by rw [masks.held]
  simp only [judge, count]
  revert ran
  cases (respond (step.muted mark)).run.run calls w with
  | mk outcome v =>
    cases (respond step).run.run calls' w' with
    | mk outcome' v' =>
      rintro ⟨related, (world : v.Masks mark loud v')⟩
      have settled := world.settle w.store.held.length []
      have same := settled.outcome.eq
      cases related with
      | @done x x' equal =>
        subst equal
        cases x with
        | ok report => exact ⟨congrArg (closeVerdict (.success report)) same, settled.world⟩
        | error failure => exact ⟨congrArg (closeVerdict (.failure failure)) same, settled.world⟩
      | stopped why => exact ⟨congrArg (unwindVerdict why) same, settled.world⟩

/-- A nested step of a muted script masks the step. -/
theorem judgeNested_masks (mask : calls.Mask mark loud calls' inside)
    (masks : w.Masks mark loud w') {step : Step}
    (calm : Calm loud ((respond step).run.raised calls' inside w')) :
    World.MasksEnd mark loud Eq (judgeNested calls (step.muted mark) w)
      (judgeNested calls' step w') := by
  cases reports : step.reportsSwitches with
  | true =>
    obtain ⟨v, on, judged, switch⟩ := judge_of_reportsSwitches calls' reports w'
    have noted : World.Masks mark loud
        { w with events := .step (.failure mark) :: w.events }
        { w' with tracing := on, events := .step v :: w'.events } :=
      { masks with
        contained := masks.contained
        events := .cons (.mark switch) masks.events }
    rw [Step.muted_of_reportsSwitches reports]
    simp only [judgeNested, judge_mark, judged]
    cases switch <;> exact noted.done
  | false =>
    have judged := judge_other mask masks reports calm
    simp only [judgeNested]
    revert judged
    cases judge calls (step.muted mark) w with
    | mk v u =>
      cases judge calls' step w' with
      | mk v' u' =>
        rintro ⟨same, world⟩
        cases same
        have noted : World.Masks mark loud { u with events := .step v :: u.events }
            { u' with events := .step v :: u'.events } :=
          { world with events := .cons (.same _) world.events }
        cases v with
        | ended => exact ⟨.stopped _, world⟩
        | _ => exact noted.done

/-- What runs the functions and the nested steps of a muted script masks what runs those of the
script, at every depth. -/
theorem calls_mask (depth : Nat) :
    (Session.calls depth).Mask mark loud (Session.calls depth) (raisedInside depth) := by
  induction depth with
  | zero =>
    exact
      { invoke := fun _ _ _ _ _ masks _ => masks.invoke ⟨.stopped _, masks.entering⟩
        callHost := fun _ _ _ _ masks _ => ⟨.stopped _, masks⟩
        assignGlobal := fun _ _ _ _ masks _ => ⟨.stopped _, masks⟩
        perform := fun _ _ _ masks _ => ⟨.stopped _, masks⟩ }
  | succ depth ih =>
    exact
      { invoke := fun _ _ _ _ _ masks calm =>
          masks.invoke (masks_callNative ih masks.entering calm)
        callHost := fun _ _ _ _ masks calm => masks_callHost ih masks calm
        assignGlobal := fun _ _ _ _ masks calm => blind_assignGlobal.masks ih masks calm
        perform := fun _ _ _ masks calm => judgeNested_masks ih masks calm }

end Session

/-- A world without events. -/
def World.cleared (w : World) : World := { w with events := [] }

namespace Session

variable {w w' : World}

end Session
end ObjectBridge
