import ObjectBridge.Proofs.Boundaries

/-!
# What holds throughout a run

A relation of worlds that every answer of the machine keeps holds from the start of a run to its
end, for every program.  The functions and the nested steps of a session are such runs again, so by
induction on the depth they keep it too.
-/

namespace ObjectBridge

/-- Functions and nested steps that lead from a world only to worlds that a relation relates to
it. -/
structure Calls.Along (R : World → World → Prop) (calls : Calls) : Prop where
  /-- Native functions. -/
  native : ∀ callable inputs outputs w, R w (calls.native callable inputs outputs w).2
  /-- Host functions. -/
  host : ∀ target arguments w, R w (calls.host target arguments w).2
  /-- Setting a global. -/
  assign : ∀ name v w, R w (calls.assign name v w).2
  /-- Nested steps. -/
  step : ∀ s w, R w (calls.step s w).2

theorem Calls.Along.mono {R S : World → World → Prop} {calls : Calls} (along : calls.Along R)
    (weaker : ∀ {w w'}, R w w' → S w w') : calls.Along S :=
  ⟨fun callable inputs outputs w => weaker (along.native callable inputs outputs w),
    fun target arguments w => weaker (along.host target arguments w),
    fun name v w => weaker (along.assign name v w), fun s w => weaker (along.step s w)⟩

/-- A relation that every answer of the machine keeps, if the functions and nested steps do. -/
structure World.Kept (R : World → World → Prop) : Prop where
  /-- Every world is related to itself. -/
  refl : ∀ w, R w w
  /-- The relation goes on from one world to the next. -/
  trans : ∀ {w w₁ w₂}, R w w₁ → R w₁ w₂ → R w w₂
  /-- One answer keeps it. -/
  answer : ∀ {calls : Calls}, calls.Along R → ∀ w r, R w (w.answer calls r).2

namespace World

variable {R : World → World → Prop} {calls : Calls}

/-- A run keeps what every answer keeps. -/
theorem Kept.run (kept : Kept R) (along : calls.Along R) {α : Type} (p : Program α) (w : World) :
    R w (p.run calls w).2 := by
  induction p generalizing w with
  | done x => exact kept.refl w
  | ask request next ih =>
    have first := kept.answer along w request
    simp only [Program.run]
    revert first
    cases w.answer calls request with
    | mk outcome w' =>
      cases outcome with
      | done reply => exact fun first => kept.trans first (ih reply w')
      | stopped why => exact fun first => first

/-- A step ends by giving its temporaries back. -/
theorem Kept.judge (kept : Kept R) (along : calls.Along R) (step : Script.Step) (w : World) :
    R w (Session.judge calls step w).2 := by
  have ran := kept.run along (Session.respond step).run w
  simp only [Session.judge]
  split <;>
    next result =>
      rw [result] at ran
      exact kept.trans ran (kept.answer along _ (.settle _ []))

/-- A nested step ends like that too, and then how it ended is noted. -/
theorem Kept.judgeNested (kept : Kept R) (along : calls.Along R) (step : Script.Step) (w : World) :
    R w (Session.judgeNested calls step w).2 := by
  have judged := kept.judge along step w
  simp only [Session.judgeNested]
  split
  · next result => rwa [result] at judged
  · next verdict w' _ result =>
    rw [result] at judged
    exact kept.trans judged (kept.answer along w' (.note (.step verdict)))

/-- The functions and the nested steps of a session keep it, at every depth. -/
theorem Kept.session (kept : Kept R) (depth : Nat) : (Session.calls depth).Along R := by
  induction depth with
  | zero =>
    exact ⟨fun _ _ _ => kept.refl, fun _ _ => kept.refl, fun _ _ => kept.refl, fun _ => kept.refl⟩
  | succ depth ih =>
    exact ⟨fun callable inputs outputs => kept.run ih (Session.callNative callable inputs outputs),
      fun target arguments => kept.run ih (Session.callHost target arguments),
      fun name v => kept.run ih (Session.assignGlobal name v), kept.judgeNested ih⟩

/-- A step of a session keeps it, if clearing the events does. -/
theorem Kept.advance (kept : Kept R) (cleared : ∀ w : World, R w { w with events := [] })
    (depth : Nat) (step : Script.Step) (w : World) : R w (Session.advance depth step w).2 :=
  kept.trans (cleared w) (kept.judge (kept.session depth) step { w with events := [] })

end World

/-- A stage that leads from a world only to worlds, and only through worlds, that a relation relates
to it. -/
structure Stage.Along (R : World → World → Prop) (stage : Stage) : Prop where
  /-- What runs the functions and the nested steps. -/
  calls : stage.calls.Along R
  /-- The boundaries inside native functions. -/
  native : ∀ callable inputs outputs w, ∀ v ∈ stage.native callable inputs outputs w, R w v
  /-- The boundaries inside host functions. -/
  host : ∀ target arguments w, ∀ v ∈ stage.host target arguments w, R w v
  /-- The boundaries inside the setting of a global. -/
  assign : ∀ name v w, ∀ u ∈ stage.assign name v w, R w u
  /-- The boundaries of nested steps. -/
  step : ∀ s w, ∀ v ∈ stage.step s w, R w v

namespace World

variable {R : World → World → Prop}

/-- A run keeps it up to every boundary inside. -/
theorem Kept.seen {stage : Stage} (kept : Kept R) (entering : ∀ w : World, R w w.entering)
    (along : stage.Along R) {α : Type} (p : Program α) (w : World) :
    ∀ v ∈ p.seen stage w, R w v := by
  induction p generalizing w with
  | done x => exact fun v member => absurd member List.not_mem_nil
  | ask request next ih =>
    intro v member
    rw [Program.seen] at member
    rcases List.mem_append.mp member with inside | later
    · cases request with
      | invoke callable inputs outputs =>
        exact kept.trans (entering w) (along.native callable inputs outputs _ v inside)
      | callHost target arguments => exact along.host target arguments w v inside
      | assignGlobal name u => exact along.assign name u w v inside
      | perform step => exact along.step step w v inside
      | _ => exact absurd inside List.not_mem_nil
    · have answered := kept.answer along.calls w request
      split at later
      · next result =>
        rw [result] at answered
        exact kept.trans answered (ih _ _ v later)
      · exact absurd later List.not_mem_nil

theorem Kept.around {stage : Stage} (kept : Kept R) (entering : ∀ w : World, R w w.entering)
    (along : stage.Along R) (step : Script.Step) (w : World) :
    ∀ v ∈ Session.around stage step w, R w v := by
  intro v member
  simp only [Session.around, List.cons_append, List.mem_cons, List.mem_append, List.not_mem_nil,
    or_false] at member
  rcases member with rfl | inside | rfl
  · exact kept.refl v
  · exact kept.seen entering along _ w v inside
  · exact kept.judge along.calls step w

theorem Kept.stage (kept : Kept R) (entering : ∀ w : World, R w w.entering) (depth : Nat) :
    (Session.stage depth).Along R := by
  have calls (depth : Nat) : (Session.stage depth).calls.Along R := by
    rw [Session.stage_calls]
    exact kept.session depth
  induction depth with
  | zero =>
    exact ⟨calls 0, fun _ _ _ _ _ member => absurd member List.not_mem_nil,
      fun _ _ _ _ member => absurd member List.not_mem_nil,
      fun _ _ _ _ member => absurd member List.not_mem_nil,
      fun _ _ _ member => absurd member List.not_mem_nil⟩
  | succ depth ih =>
    exact ⟨calls (depth + 1), fun callable inputs outputs => kept.seen entering ih _,
      fun target arguments => kept.seen entering ih _, fun name v => kept.seen entering ih _,
      kept.around entering ih⟩

/-- A session keeps it up to every boundary. -/
theorem Kept.boundaries (kept : Kept R) (entering : ∀ w : World, R w w.entering)
    (cleared : ∀ w : World, R w { w with events := [] }) (depth : Nat) (steps : List Script.Step)
    (w : World) : ∀ v ∈ Session.boundaries depth steps w, R w v := by
  induction steps generalizing w with
  | nil =>
    intro v member
    rw [List.mem_singleton.mp member]
    exact kept.refl w
  | cons step rest ih =>
    intro v member
    rcases List.mem_append.mp member with early | late
    · exact kept.trans (cleared w) (kept.around entering (kept.stage entering depth) step _ v early)
    · exact kept.trans (kept.advance cleared depth step w) (ih _ v late)

end World
end ObjectBridge
