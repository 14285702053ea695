import ObjectBridge.Proofs.Serving

/-!
# Sessions keep the books

A function of a session runs steps, and a step calls functions.  An induction on the depth shows
that both are tame at every depth, so the world is orderly at every boundary of every session,
however deep and however the steps before it ended.
-/

namespace ObjectBridge
namespace Session

open Program Script

variable {z : Horizon}

theorem tame_emitFrom {inputs : List Slot} {e : Emission} : Tame (emitFrom inputs e) z plain :=
  (reading_each fun _ => reading_slotOf).tame.bind fun _ _ _ _ => Signal.tame_emit.bind
    fun _ _ _ _ => (reading_request rfl).tame

theorem tame_resultOf {inputs : List Slot} {result : NativeResult} :
    Tame (resultOf inputs result) z plain := by
  cases result with
  | input index => exact reading_pure.tame
  | references index => exact tame_liveInstance.bind fun _ _ _ _ => reading_pure.tame
  | fresh type label =>
    refine reading_entryOf.tame.bind fun _ _ _ _ => tame_entry.bind fun _ e _ _ => ?_
    refine Tame.bind (tame_request (r := .createDirect e.number) trivial) fun _ a _ _ => ?_
    exact (tame_request (r := .label label a) trivial).bind fun _ _ _ _ => reading_pure.tame
  | quotient dividend divisor => exact reading_pure.tame
  | slot term => exact reading_slotOf.tame

theorem tame_performAll {steps : List Step} : Tame (performAll steps) z plain :=
  tame_forEach fun s _ _ _ => (tame_request (r := .perform s) trivial).plain

/-- A native function is tame. -/
theorem tame_runNative {name : String} {native : Native Step} {inputs outputs : List Slot} :
    Tame (runNative name native inputs outputs) z plain := by
  refine reading_showSlots.tame.bind fun _ _ _ _ => reading_showSlots.tame.bind fun _ _ _ _ => ?_
  refine Tame.bind (reading_request (r := .note _) rfl).tame fun _ _ _ _ => ?_
  refine (reading_forEach fun signal => reading_request (r := .raise signal) rfl).tame.bind
    fun _ _ _ _ => reading_storeOutputs.tame.bind fun _ outputs _ _ => ?_
  extract_lets finish
  have tame_finish (z : Horizon) : Tame (finish ()) z plain := by
    refine tame_performAll.bind fun _ _ _ _ => ?_
    split
    · exact reading_pure.tame
    · exact tame_resultOf.bind fun _ _ _ _ => reading_pure.tame
  split
  · exact tame_emitFrom.bind fun z' _ _ _ => tame_finish z'
  · exact tame_finish _

/-- Calling a native function is tame, with or without an implementation. -/
theorem tame_callNative (callable : Token) (inputs outputs : List Slot) :
    Tame (callNative callable inputs outputs) z plain := by
  refine tame_entry.bind fun _ _ _ _ => tame_bench.bind fun _ _ _ _ => ?_
  split
  · exact tame_runNative
  · exact reading_pure.tame

theorem tame_bindArguments {names : List String} {arguments : List Value}
    (known : ∀ v ∈ arguments, v.Known z) : Tame (bindArguments names arguments) z plain := by
  induction names generalizing arguments z with
  | nil => exact reading_pure.tame
  | cons name names ih =>
    cases arguments with
    | nil => exact reading_pure.tame
    | cons v vs =>
      exact Tame.bind (tame_request (r := .bind name v) (known v List.mem_cons_self))
        fun _ _ later _ => ih fun u member => (known u (List.mem_cons_of_mem v member)).mono later

theorem tame_unbindAll {names : List String} : Tame (unbindAll names) z plain :=
  tame_forEach fun name _ _ _ =>
    (tame_request (r := .unbind name) trivial).bind fun _ _ _ _ => reading_pure.tame

theorem tame_letGoAll {claims : List Claim} : Tame (forEach letGo claims) z plain :=
  tame_forEach fun _ _ _ _ => tame_letGo

/-- A host function is tame. -/
theorem tame_runHost {f : HostFunction Step} {arguments : List Value}
    (known : ∀ v ∈ arguments, v.Known z) : Tame (runHost f arguments) z knownValue := by
  have ended {z : Horizon} {r : Except String Value} (given : knownValue z r) :
      Tame (unbindAll f.parameters >>= fun _ => pure r) z knownValue :=
    tame_unbindAll.bind fun _ _ later _ =>
      tame_pure fun _ later' v equal => (given v equal).mono (le_trans later later')
  refine (tame_bindArguments known).bind fun _ _ _ _ => tame_letGoAll.bind fun _ _ _ _ =>
    tame_performAll.bind fun _ _ _ _ => ?_
  dsimp only
  split
  · exact ended fun v equal => by cases equal
  · exact tame_valueOf.bind fun _ v _ made => ended fun u equal => Except.ok.inj equal ▸ made

/-- Calling a host function is tame, whether it was defined or not. -/
theorem tame_callHost (target : Target) {arguments : List Value}
    (known : ∀ v ∈ arguments, v.Known z) : Tame (callHost target arguments) z knownValue := by
  refine (reading_each fun _ => reading_showValue).tame.bind fun _ shown later₁ _ => ?_
  refine Tame.bind (reading_request (r := .note (.call target shown)) rfl).tame
    fun _ _ later₂ _ => ?_
  refine tame_bench.bind fun _ _ later₃ _ => ?_
  split
  · exact tame_runHost fun v member =>
      (known v member).mono (le_trans (le_trans later₁ later₂) later₃)
  · exact tame_letGoAll.bind fun _ _ _ _ => tame_pure fun _ _ v equal => by cases equal

/-- Setting a global is tame. -/
theorem tame_assignGlobal (name : String) {v : Value} (known : v.Known z) :
    Tame (assignGlobal name v) z plain := by
  refine reading_showValue.tame.bind fun _ shown later₁ _ => ?_
  refine Tame.bind (reading_request (r := .note (.global name shown)) rfl).tame
    fun _ _ later₂ _ => ?_
  exact (tame_request (r := .storeGlobal name v) (known.mono (le_trans later₁ later₂))).plain

/-- A step keeps a world orderly, however it ends. -/
theorem judge_onward {stage : Stage} (tame : stage.Tame) (step : Step) {w : World}
    (orderly : w.Orderly) :
    (∀ v ∈ (respond step).run.seen stage w, v.Orderly)
      ∧ w.Onward (judge stage.calls step w).2 := by
  have ran : Kept ((respond step).run.seen stage w) w ((respond step).run.run stage.calls w) _ :=
    tame_respond stage tame w orderly le_rfl
  refine ⟨ran.seen, ?_⟩
  have settled := ran.onward.trans (ran.onward.orderly.settle w.store.held.length [])
  simp only [judge]
  split <;>
    next result =>
      rw [result] at settled
      exact settled

/-- All boundaries of a step are orderly. -/
theorem around_orderly {stage : Stage} (tame : stage.Tame) (step : Step) {w : World}
    (orderly : w.Orderly) : ∀ v ∈ around stage step w, v.Orderly := by
  have ran := judge_onward tame step orderly
  intro v member
  simp only [around, List.cons_append, List.mem_cons, List.mem_append, List.not_mem_nil,
    or_false] at member
  rcases member with rfl | inside | rfl
  · exact orderly
  · exact ran.1 v inside
  · exact ran.2.orderly

/-- A nested step keeps a world orderly, however it ends. -/
theorem judgeNested_kept {stage : Stage} (tame : stage.Tame) (step : Step) {w : World}
    (orderly : w.Orderly) :
    Kept (around stage step w) w (judgeNested stage.calls step w) plain := by
  refine ⟨around_orderly tame step orderly, ?_, fun _ _ => trivial⟩
  have ran := (judge_onward tame step orderly).2
  simp only [judgeNested]
  split
  · next result => rwa [result] at ran
  · next result =>
    rw [result] at ran
    exact ran.trans (ran.orderly.congr rfl (Nat.le_refl _))

/-- The functions and the nested steps of a session are tame at every depth. -/
theorem stage_tame (depth : Nat) : (stage depth).Tame := by
  induction depth with
  | zero =>
    have nothing {β : Type} {gives : Horizon → β → Prop} (w : World) (orderly : w.Orderly) :
        Kept [] w ((.stopped .ended : Outcome β), w) gives :=
      ⟨by simp, orderly.onward, fun x equal => by cases equal⟩
    exact ⟨fun _ _ _ w orderly => nothing w orderly, fun _ _ w orderly _ => nothing w orderly,
      fun _ _ w orderly _ => nothing w orderly, fun _ w orderly => nothing w orderly⟩
  | succ depth ih =>
    have calls_eq : (stage depth).calls = calls depth := stage_calls depth
    refine ⟨fun callable inputs outputs w orderly => ?_, fun target arguments w orderly known => ?_,
      fun name v w orderly known => ?_, fun step w orderly => ?_⟩
    · have ran := tame_callNative callable inputs outputs (stage depth) ih w orderly le_rfl
      rwa [calls_eq] at ran
    · have ran := tame_callHost target known (stage depth) ih w orderly le_rfl
      rwa [calls_eq] at ran
    · have ran := tame_assignGlobal name known (stage depth) ih w orderly le_rfl
      rwa [calls_eq] at ran
    · have ran := judgeNested_kept ih step orderly
      rwa [calls_eq] at ran

/-- A step of the session itself keeps a world orderly. -/
theorem advance_orderly (depth : Nat) (step : Step) {w : World} (orderly : w.Orderly) :
    (advance depth step w).2.Orderly := by
  have cleared : w.Onward { w with events := [] } := orderly.congr rfl (Nat.le_refl _)
  have ran := (judge_onward (stage_tame depth) step cleared.orderly).2.orderly
  rwa [stage_calls] at ran

/-- From an orderly world on, all boundaries of a session are orderly. -/
theorem boundaries_orderly (depth : Nat) (steps : List Step) {w : World} (orderly : w.Orderly) :
    ∀ v ∈ boundaries depth steps w, v.Orderly := by
  induction steps generalizing w with
  | nil =>
    intro v member
    rw [List.mem_singleton.mp member]
    exact orderly
  | cons step rest ih =>
    intro v member
    rcases List.mem_append.mp member with early | late
    · have cleared : w.Onward { w with events := [] } := orderly.congr rfl (Nat.le_refl _)
      exact around_orderly (stage_tame depth) step cleared.orderly v early
    · exact ih (advance_orderly depth step orderly) v late

/-- A session starts orderly. -/
theorem start_orderly (options : Options) : (start options).Orderly where
  books := Store.accounted_empty (Nat.le_add_right _ _)
  settled := fun _ member => List.not_mem_nil member

end Session
end ObjectBridge
