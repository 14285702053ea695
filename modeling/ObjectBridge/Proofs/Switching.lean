import ObjectBridge.Proofs.BlindSession
import ObjectBridge.Proofs.Masking

/-!
# Functions and steps of muted scripts

What a session does with a muted script is compared with what it does with the script itself.  A
native function of the muted script masks the one of the script, and so does a host function, a
declaration and every step that does not report switches.
-/

namespace ObjectBridge

open Program Script

variable {mark : Failure} {loud : Bool}

/-- A program that may fail masks another one if its runs do. -/
def Bridge.Masks {ε α : Type} (mark : Failure) (loud : Bool) (p p' : ExceptT ε Program α) : Prop :=
  Program.Masks mark loud p.run p'.run

theorem Bridge.Blind.masks {ε α : Type} {p : ExceptT ε Program α} (blind : Bridge.Blind p) :
    Bridge.Masks mark loud p p :=
  Program.Blind.masks blind

/-- Continue after a program that does not fail. -/
theorem Bridge.Masks.after {ε α β : Type} {p p' : Program α} {f f' : α → ExceptT ε Program β}
    (first : p.Masks mark loud p') (rest : ∀ x, Bridge.Masks mark loud (f x) (f' x)) :
    Bridge.Masks mark loud (liftM p >>= f : ExceptT ε Program β) (liftM p' >>= f') := by
  refine Program.Masks.bind (first.bind fun x => masks_pure) fun r => ?_
  cases r with
  | error e => exact masks_pure
  | ok x => exact rest x

namespace World

variable {w w' : World}

/-- Where native functions start, a world still masks the other. -/
theorem Masks.entering (masks : w.Masks mark loud w') :
    w.entering.Masks mark loud w'.entering := by
  have contained := masks.contained
  unfold World.entering
  cases loud with
  | true =>
    rw [contained.1]
    split
    · exact { masks with contained := ⟨contained.1, rfl⟩ }
    · exact masks
  | false =>
    split <;> split
    · exact { masks with contained := ⟨rfl, rfl⟩ }
    · exact { masks with contained := ⟨rfl, contained.2⟩ }
    · exact { masks with contained := ⟨contained.1, rfl⟩ }
    · exact masks

/-- A call after which no signal is pending. -/
theorem invoke_of_quiet {call : Action (Except String Slot × List Slot)}
    (quiet : (call w.entering).2.signals.pending = none) :
    ∃ signals, w.invoke call
        = ((call w.entering).1.map fun reply => ⟨.ok reply.1, reply.2⟩,
            { (call w.entering).2 with signals := signals })
      ∧ (signals = w.signals ∨ signals = (call w.entering).2.signals) := by
  unfold invoke
  unfold entering at quiet ⊢
  split at quiet
  · next on =>
    rw [if_pos on, if_pos on]
    exact ⟨w.signals, by simp only [contain, quiet], .inl rfl⟩
  · next off =>
    rw [if_neg off, if_neg off]
    exact ⟨_, rfl, .inr rfl⟩

/-- A native call masks another one if the functions do. -/
theorem Masks.invoke (masks : w.Masks mark loud w')
    {call call' : Action (Except String Slot × List Slot)}
    (called : MasksEnd mark loud Eq (call w.entering) (call' w'.entering)) :
    MasksEnd mark loud Eq (w.invoke call) (w'.invoke call') := by
  have contained := masks.contained
  have after := called.world.contained
  cases loud with
  | true =>
    unfold World.invoke
    unfold World.entering at called after
    rw [contained.1] at called after ⊢
    split
    · next on =>
      simp only [on, if_true] at called after
      simp only [contain, after.2]
      exact ⟨(called.map _).outcome, { called.world with contained := ⟨after.1, contained.2⟩ }⟩
    · next off =>
      simp only [off] at called
      exact called.map _
  | false =>
    obtain ⟨signals, invoked, kept⟩ := invoke_of_quiet after.1
    obtain ⟨signals', invoked', kept'⟩ := invoke_of_quiet after.2
    have clear : signals.pending = none := by
      rcases kept with rfl | rfl
      · exact contained.1
      · exact after.1
    have clear' : signals'.pending = none := by
      rcases kept' with rfl | rfl
      · exact contained.2
      · exact after.2
    rw [invoked, invoked']
    have ended := called.map fun reply : Except String Slot × List Slot =>
      (⟨.ok reply.1, reply.2⟩ : NativeReply)
    exact ⟨ended.outcome, { called.world with contained := ⟨clear, clear'⟩ }⟩

end World

namespace Program

variable {α β : Type}

/-- What follows a look at the bench sees the functions of the muted script. -/
theorem masks_bench {f f' : Bench → Program α}
    (rest : ∀ b : Bench, (f (b.muted mark)).Masks mark loud (f' b)) :
    (bench >>= f).Masks mark loud (bench >>= f') := by
  intro calls calls' inside w w' mask masks calm
  change Calm loud
    (Request.raises inside w' .bench ++ (f' w'.bench).raised calls' inside w') at calm
  change World.MasksEnd mark loud Eq ((f w.bench).run calls w) ((f' w'.bench).run calls' w')
  rw [masks.bench]
  exact rest w'.bench mask masks (calm_append.mp calm).2

/-- Raising a signal. -/
theorem masks_raise {signal : FatalSignal} :
    (request (.raise signal) : Program Unit).Masks mark loud (request (.raise signal)) := by
  refine masks_request fun calls calls' inside w w' mask masks calm => ?_
  cases loud with
  | false => simp [Calm, Request.raises] at calm
  | true =>
    have contained := masks.contained
    simp only [World.answer, contained.2]
    split
    · exact ⟨.done rfl, { masks with contained := ⟨contained.1, rfl⟩ }⟩
    · exact ⟨.stopped _, masks⟩

/-- Running a step of the muted script. -/
theorem masks_perform {step : Step} :
    (request (.perform (step.muted mark)) : Program Unit).Masks mark loud
      (request (.perform step)) := by
  intro calls calls' inside w w' mask masks calm
  have ran (calls : Calls) (step : Step) (w : World) :
      (request (.perform step) : Program Unit).run calls w = w.answer calls (.perform step) :=
    run_request
  have ended := mask.perform step masks (calm_request calm)
  rw [← ran, ← ran] at ended
  exact ended

/-- Giving the muted script a native function. -/
theorem masks_implement {t : Token} {native : Native Step} :
    (request (.implement t (native.muted mark)) : Program Unit).Masks mark loud
      (request (.implement t native)) := by
  intro calls calls' inside w w' mask masks calm
  refine ⟨.done rfl, { masks with bench := ?_ }⟩
  simp only [run, request, World.answer, masks.bench]
  rfl

/-- Giving the muted script a host function. -/
theorem masks_define {name : String} {function : HostFunction Step} :
    (request (.define name (function.muted mark)) : Program Unit).Masks mark loud
      (request (.define name function)) := by
  intro calls calls' inside w w' mask masks calm
  refine ⟨.done rfl, { masks with bench := ?_ }⟩
  simp only [run, request, World.answer, masks.bench]
  rfl

end Program

theorem lookup_map {α β γ : Type} [BEq α] (f : β → γ) (key : α) (rows : List (α × β)) :
    (rows.map fun row => (row.1, f row.2)).lookup key = (rows.lookup key).map f := by
  induction rows with
  | nil => rfl
  | cons row rest ih =>
    obtain ⟨k, x⟩ := row
    simp only [List.map_cons, List.lookup_cons, ih]
    split <;> rfl

namespace Session

theorem masks_performAll {steps : List Step} :
    (performAll (Step.mutedAll mark steps)).Masks mark loud (performAll steps) := by
  induction steps with
  | nil => exact masks_pure
  | cons step rest ih => exact masks_perform.bind fun _ => ih

/-- The native functions of a muted script mask those of the script. -/
theorem masks_runNative {name : String} {native : Native Step} {inputs outputs : List Slot} :
    (runNative name (native.muted mark) inputs outputs).Masks mark loud
      (runNative name native inputs outputs) := by
  obtain ⟨inViews, outViews, raises, terms, emission, steps, error, result⟩ := native
  refine blind_showSlots.masks.bind fun _ => blind_showSlots.masks.bind fun _ =>
    (blind_request rfl).masks.bind fun _ => (masks_forEach fun _ => masks_raise).bind fun _ =>
    blind_storeOutputs.masks.bind fun stored => ?_
  cases emission with
  | some e =>
    refine blind_emitFrom.masks.bind fun _ => masks_performAll.bind fun _ => ?_
    cases error with
    | some text => exact masks_pure
    | none => exact blind_resultOf.masks.bind fun _ => masks_pure
  | none =>
    refine masks_performAll.bind fun _ => ?_
    cases error with
    | some text => exact masks_pure
    | none => exact blind_resultOf.masks.bind fun _ => masks_pure

/-- Calling a native function of a muted script. -/
theorem masks_callNative {callable : Token} {inputs outputs : List Slot} :
    (callNative callable inputs outputs).Masks mark loud (callNative callable inputs outputs) := by
  refine blind_entry.masks.bind fun e => masks_bench fun b => ?_
  rw [Bench.muted, lookup_map]
  cases b.natives.lookup callable with
  | some native => exact masks_runNative
  | none => exact masks_pure

/-- The host functions of a muted script mask those of the script. -/
theorem masks_runHost {f : HostFunction Step} {arguments : List Value} :
    (runHost (f.muted mark) arguments).Masks mark loud (runHost f arguments) := by
  obtain ⟨parameters, steps, error, result⟩ := f
  refine blind_bindArguments.masks.bind fun _ => blind_letGoAll.masks.bind fun _ =>
    masks_performAll.bind fun _ => ?_
  cases error with
  | some text => exact blind_unbindAll.masks.bind fun _ => masks_pure
  | none => exact blind_valueOf.masks.bind fun _ => blind_unbindAll.masks.bind fun _ => masks_pure

/-- Calling a host function of a muted script. -/
theorem masks_callHost {target : Target} {arguments : List Value} :
    (callHost target arguments).Masks mark loud (callHost target arguments) := by
  refine (blind_each fun _ => blind_showValue).masks.bind fun _ =>
    (blind_request rfl).masks.bind fun _ => masks_bench fun b => ?_
  rw [Bench.muted, lookup_map]
  cases b.functions.lookup (targetName target) with
  | some f => exact masks_runHost
  | none => exact blind_letGoAll.masks.bind fun _ => masks_pure

/-- Declaring a callable of a muted script. -/
theorem masks_declareCallable {c : CallableTerm Step} {usual : FlagSet}
    {add : Database → FlagSet → List Database.Parameter → Option Token → Token × Database} :
    (declareCallable (c.muted mark) usual add).Masks mark loud (declareCallable c usual add) := by
  obtain ⟨name, parameters, result, flags, isStatic, fails, native⟩ := c
  refine blind_parametersOf.masks.bind fun _ => blind_typeOf?.masks.bind fun _ =>
    blind_change.masks.bind fun _ => ?_
  cases native with
  | some native => exact masks_implement.bind fun _ => masks_pure
  | none => exact masks_pure

/-- Adding the entry of a declaration of a muted script. -/
theorem masks_declare {declaration : Declaration Step} :
    (declare (declaration.muted mark)).Masks mark loud (declare declaration) := by
  cases declaration with
  | function home c =>
    cases c
    exact masks_declareCallable (c := ⟨_, _, _, _, _, _, _⟩)
  | method owner c =>
    cases c
    exact blind_entryOf.masks.bind fun _ => masks_declareCallable (c := ⟨_, _, _, _, _, _, _⟩)
  | _ => exact (blind_declare rfl).masks

theorem muted_of_ordinary {step : Step} (plain : ordinary step = true) :
    step.muted mark = step := by
  cases step <;> first | rfl | simp [ordinary] at plain

/-- The steps of a muted script mask those of the script, but for those that report switches. -/
theorem masks_respond {step : Step} (other : step.reportsSwitches = false) :
    Bridge.Masks mark loud (respond (step.muted mark)) (respond step) := by
  by_cases plain : ordinary step = true
  · rw [muted_of_ordinary plain]
    exact (blind_respond plain).masks
  · cases step with
    | declare declaration id =>
      refine .after masks_declare fun t => ?_
      cases id with
      | some name => exact (Bridge.Blind.after (blind_request rfl) fun _ => Bridge.blind_pure).masks
      | none => exact Bridge.blind_pure.masks
    | define name function => exact .after masks_define fun _ => Bridge.blind_pure.masks
    | bridge | setDiagnostics on | diagnostics => simp [Step.reportsSwitches] at other
    | _ => exact absurd rfl plain

end Session
end ObjectBridge
