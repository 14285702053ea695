import ObjectBridge.Proofs.Scenes

/-!
# Courses

A course leads from a world to a later one by answers of the machine.  The functions of a session
and its nested steps are programs that make requests of their own, so what a run does, at any depth,
is done by answers to requests that the machine answers by itself.  Which requests these are is
noted along the run, and a run is a course on which nothing else is requested.
-/

namespace ObjectBridge

/-- From a world to a later one requests of some kind are answered.  Beside that, the containment of
signals and the list of events may change. -/
inductive World.Course (kind : Request → Prop) (w : World) : World → Prop
  /-- Nothing is requested. -/
  | refl : Course kind w w
  /-- One more request is answered. -/
  | answer {w₁ : World} (course : Course kind w w₁) (calls : Calls) {r : Request}
      (direct : r.direct = true) (fits : kind r) : Course kind w (w₁.answer calls r).2
  /-- A function is entered or left, or events are collected. -/
  | aside {w₁ : World} (course : Course kind w w₁) (signals : Containment.State)
      (events : List Event) : Course kind w { w₁ with signals := signals, events := events }

/-- What runs the functions and the nested steps of a session, and the requests that the machine
answers by itself meanwhile. -/
structure Log where
  /-- What runs them. -/
  calls : Calls
  /-- The requests of native functions. -/
  native : Token → List Slot → List Slot → World → List Request
  /-- The requests of host functions. -/
  host : Script.Target → List Value → World → List Request
  /-- The requests of setting a global. -/
  assign : String → Value → World → List Request
  /-- The requests of nested steps. -/
  step : Script.Step → World → List Request

/-- The requests that the machine answers by itself until a request is answered. -/
def Request.made (log : Log) (w : World) : Request → List Request
  | .invoke callable inputs outputs => log.native callable inputs outputs w.entering
  | .callHost target arguments => log.host target arguments w
  | .assignGlobal name v => log.assign name v w
  | .perform step => log.step step w
  | r => [r]

/-- The requests that the machine answers by itself while a program runs. -/
def Program.made {α : Type} (log : Log) : Program α → World → List Request
  | .done _, _ => []
  | .ask request next, w =>
    request.made log w
      ++ match w.answer log.calls request with
         | (.done reply, w) => (next reply).made log w
         | (.stopped _, _) => []

namespace Session

/-- The requests of a step, whose temporaries are given back in the end. -/
def requests (log : Log) (step : Script.Step) (w : World) : List Request :=
  (respond step).run.made log w ++ [.settle w.store.held.length []]

/-- What runs the functions and the nested steps of a session to a depth, with their requests. -/
def logAt : Nat → Log
  | 0 =>
    { calls := calls 0
      native := fun _ _ _ _ => []
      host := fun _ _ _ => []
      assign := fun _ _ _ => []
      step := fun _ _ => [] }
  | depth + 1 =>
    { calls := calls (depth + 1)
      native := fun callable inputs outputs =>
        (callNative callable inputs outputs).made (logAt depth)
      host := fun target arguments => (callHost target arguments).made (logAt depth)
      assign := fun name v => (assignGlobal name v).made (logAt depth)
      step := requests (logAt depth) }

/-- The requests of some steps, one after the other. -/
def requestsAll (depth : Nat) : List Script.Step → World → List Request
  | [], _ => []
  | step :: rest, w =>
    requests (logAt depth) step { w with events := [] }
      ++ requestsAll depth rest (advance depth step w).2

@[simp]
theorem logAt_calls (depth : Nat) : (logAt depth).calls = calls depth := by
  cases depth <;> rfl

end Session

namespace World

variable {kind : Request → Prop} {w w₁ w' : World}

theorem Course.trans (first : w.Course kind w₁) (second : w₁.Course kind w') :
    w.Course kind w' := by
  induction second with
  | refl => exact first
  | answer _ calls direct fits ih => exact ih.answer calls direct fits
  | aside _ signals events ih => exact ih.aside signals events

/-- The events alone change. -/
theorem Course.noted (course : w.Course kind w₁) (events : List Event) :
    w.Course kind { w₁ with events := events } :=
  course.aside w₁.signals events

end World

/-- The functions and nested steps lie on courses on which nothing else is requested than the log
says. -/
structure Log.Faithful (kind : Request → Prop) (log : Log) : Prop where
  /-- Native functions. -/
  native : ∀ callable inputs outputs (w : World),
    (∀ r ∈ log.native callable inputs outputs w, kind r) →
    w.Course kind (log.calls.native callable inputs outputs w).2
  /-- Host functions. -/
  host : ∀ target arguments (w : World), (∀ r ∈ log.host target arguments w, kind r) →
    w.Course kind (log.calls.host target arguments w).2
  /-- Setting a global. -/
  assign : ∀ name v (w : World), (∀ r ∈ log.assign name v w, kind r) →
    w.Course kind (log.calls.assign name v w).2
  /-- Nested steps. -/
  step : ∀ s (w : World), (∀ r ∈ log.step s w, kind r) →
    w.Course kind (log.calls.step s w).2

variable {kind : Request → Prop} {log : Log}

/-- Nothing but the containment of signals changes when a function is entered and left. -/
theorem World.course_invoke {w : World} {call : Action (Except String Slot × List Slot)}
    (course : w.entering.Course kind (call w.entering).2) : w.Course kind (w.invoke call).2 := by
  unfold World.entering at course
  unfold World.invoke
  by_cases contained : w.options.containment = true
  · rw [if_pos contained] at course ⊢
    have entered : w.Course kind { w with signals := .guarded } := .aside .refl .guarded w.events
    exact (entered.trans course).aside w.signals _
  · rw [if_neg contained] at course ⊢
    exact course

/-- The answer to a request is a course on which nothing else is requested than was noted. -/
theorem Log.Faithful.answer (faithful : log.Faithful kind) (w : World) (r : Request)
    (fits : ∀ q ∈ r.made log w, kind q) : w.Course kind (w.answer log.calls r).2 := by
  cases r with
  | invoke callable inputs outputs =>
    exact World.course_invoke (faithful.native callable inputs outputs w.entering fits)
  | callHost target arguments => exact faithful.host target arguments w fits
  | assignGlobal name v => exact faithful.assign name v w fits
  | perform step => exact faithful.step step w fits
  | _ => exact World.Course.refl.answer log.calls rfl (fits _ (List.mem_singleton_self _))

/-- A run of a program is a course on which nothing else is requested than was noted. -/
theorem Log.Faithful.run (faithful : log.Faithful kind) {α : Type} (p : Program α) (w : World)
    (fits : ∀ r ∈ p.made log w, kind r) : w.Course kind (p.run log.calls w).2 := by
  induction p generalizing w with
  | done x => exact .refl
  | ask request next ih =>
    simp only [Program.made, List.mem_append, or_imp, forall_and] at fits
    have first := faithful.answer w request fits.1
    have later := fits.2
    simp only [Program.run]
    revert first later
    cases w.answer log.calls request with
    | mk outcome w' =>
      cases outcome with
      | done reply => exact fun first later => first.trans (ih reply w' later)
      | stopped why => exact fun first _ => first

namespace Session

/-- A step is a course on which nothing else is requested than was noted. -/
theorem course_judge (faithful : log.Faithful kind) (step : Script.Step) (w : World)
    (fits : ∀ r ∈ requests log step w, kind r) :
    w.Course kind (judge log.calls step w).2 := by
  simp only [requests, List.mem_append, List.mem_singleton, or_imp, forall_and, forall_eq] at fits
  rw [judge_settled]
  exact (faithful.run (respond step).run w fits.1).answer log.calls rfl fits.2

/-- The functions and the nested steps of a session lie on such courses, at every depth. -/
theorem logAt_faithful (kind : Request → Prop) (depth : Nat) : (logAt depth).Faithful kind := by
  induction depth with
  | zero =>
    exact ⟨fun _ _ _ _ _ => .refl, fun _ _ _ _ => .refl, fun _ _ _ _ => .refl,
      fun _ _ _ => .refl⟩
  | succ depth ih =>
    have run {α : Type} (p : Program α) (w : World) (fits : ∀ r ∈ p.made (logAt depth) w, kind r) :
        w.Course kind (p.run (calls depth) w).2 := logAt_calls depth ▸ ih.run p w fits
    refine ⟨fun callable inputs outputs => run _, fun target arguments => run _,
      fun name v => run _, fun step w fits => ?_⟩
    have judged : w.Course kind (judge (calls depth) step w).2 :=
      logAt_calls depth ▸ course_judge ih step w fits
    change w.Course kind (judgeNested (calls depth) step w).2
    simp only [judgeNested]
    split
    · next result => rwa [result] at judged
    · next result =>
      rw [result] at judged
      exact judged.noted _

/-- The steps of a session are a course on which nothing else is requested than was noted. -/
theorem course_advanceAll (depth : Nat) (steps : List Script.Step) (w : World)
    (fits : ∀ r ∈ requestsAll depth steps w, kind r) :
    w.Course kind (advanceAll depth steps w).2 := by
  induction steps generalizing w with
  | nil => exact .refl
  | cons step rest ih =>
    simp only [requestsAll, List.mem_append, or_imp, forall_and] at fits
    have judged := course_judge (logAt_faithful kind depth) step _ fits.1
    rw [logAt_calls] at judged
    exact ((World.Course.refl.noted []).trans judged).trans (ih _ fits.2)

end Session
end ObjectBridge
