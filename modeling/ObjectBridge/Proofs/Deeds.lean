import ObjectBridge.Codec.Decode
import ObjectBridge.Proofs.Finding
import ObjectBridge.Proofs.Ledger

/-!
# What a run does

The deeds of a run are its requests that are not quiet, in order: the calls of native functions and
of the host, the warnings, and whatever else leaves a trace beyond handles and new storage.  A
silent program has no deeds in any world; converting a slot to a value is silent, whatever the slot
and the type.
-/

namespace ObjectBridge

namespace World

/-- The answer to a quiet request does not depend on the functions of the session. -/
theorem answer_calls {r : Request} (quiet : r.quiet = true) (calls calls' : Calls) (w : World) :
    w.answer calls r = w.answer calls' r := by
  cases r <;> first | rfl | simp [Request.quiet] at quiet

end World

theorem Request.balances_of_quiet {r : Request} (quiet : r.quiet = true) : r.balances = false := by
  cases r <;> first | rfl | simp [Request.quiet] at quiet

namespace Program

variable {α β γ : Type} {calls : Calls} {w w' : World} {p : Program α} {f : α → Program β} {x : α}

/-- The requests of a run that are not quiet, each with the world that it meets. -/
def deeds (calls : Calls) (p : Program α) (w : World) : List (World × Request) :=
  (p.moments calls w).filter fun moment => !moment.2.quiet

theorem Quiet.deeds (quiet : p.Quiet calls w) : p.deeds calls w = [] :=
  List.filter_eq_nil_iff.mpr fun moment member => by simp [quiet moment member]

theorem deeds_bind (calls : Calls) (p : Program α) (f : α → Program β) (w : World) :
    (p >>= f).deeds calls w
      = p.deeds calls w
        ++ match p.run calls w with
           | (.done x, w) => (f x).deeds calls w
           | (.stopped _, _) => [] := by
  rw [deeds, moments_bind, List.filter_append]
  congr 1
  cases p.run calls w with
  | mk outcome w' => cases outcome <;> rfl

theorem deeds_request {r : Request} (loud : r.quiet = false) :
    (request r).deeds calls w = [(w, r)] := by
  have after : (request r).moments calls w = [(w, r)] := by
    simp only [request, moments]
    split <;> rfl
  simp [deeds, after, loud]

/-- From one world on, a program goes on as another one does from a later world, and it has done
nothing until then. -/
structure Leads (calls : Calls) (p : Program α) (w : World) (q : Program α) (w' : World) :
    Prop where
  /-- Both end alike. -/
  run : p.run calls w = q.run calls w'
  /-- Both do the same. -/
  deeds : p.deeds calls w = q.deeds calls w'

theorem Leads.trans {q q' : Program α} {w₁ w₂ : World} (first : p.Leads calls w q w₁)
    (second : q.Leads calls w₁ q' w₂) : p.Leads calls w q' w₂ :=
  ⟨first.run.trans second.run, first.deeds.trans second.deeds⟩

/-- After a quiet beginning, a run goes on as the rest does. -/
theorem Passes.leads (passes : p.Passes calls w x w') : (p >>= f).Leads calls w (f x) w' where
  run := by rw [run_bind, passes.run]
  deeds := by rw [deeds_bind, passes.quiet.deeds, passes.run, List.nil_append]

/-- A region is its program with giving the temporaries back behind it. -/
theorem leads_region (keep : α → List Claim) :
    (region keep p).Leads calls w
      (p >>= fun x => (request (.settle w.store.held.length (keep x)) : Program Unit) >>=
        fun _ => pure x) w := by
  have marks : (request .mark : Program Nat).Passes calls w w.store.held.length w :=
    passes_request rfl rfl
  exact marks.leads

/-- The end of a region: the temporaries after a mark are given back, except for those that the
value keeps. -/
def close (mark : Nat) (keep : α → List Claim) : Outcome α × World → Outcome α × World
  | (.done x, w) => ((w.settle mark (keep x)).1.map fun _ => x, (w.settle mark (keep x)).2)
  | (.stopped why, w) => (.stopped why, w)

/-- A region ends as its program does, unless giving the temporaries back panics. -/
theorem run_region (keep : α → List Claim) :
    (region keep p).run calls w = close w.store.held.length keep (p.run calls w) := by
  rw [(leads_region keep).run, run_bind]
  cases p.run calls w with
  | mk outcome w' =>
    cases outcome with
    | stopped why => rfl
    | done x =>
      simp only [close, run_bind, request, run, World.answer]
      cases w'.settle w.store.held.length (keep x) with
      | mk outcome w₂ => cases outcome <;> rfl

/-- Giving the temporaries back is no deed. -/
theorem deeds_region (keep : α → List Claim) :
    (region keep p).deeds calls w = p.deeds calls w := by
  rw [(leads_region keep).deeds, deeds_bind]
  cases p.run calls w with
  | mk outcome w' =>
    cases outcome with
    | stopped why => exact List.append_nil _
    | done x =>
      have closes : ((request (.settle w.store.held.length (keep x)) : Program Unit) >>=
          fun _ => pure x).Quiet calls w' :=
        (quiet_request rfl).bind fun _ _ _ => quiet_pure
      simp only [closes.deeds, List.append_nil]

theorem Leads.region {q : Program α} (leads : p.Leads calls w q w') (keep : α → List Claim) :
    (Program.region keep p).run calls w = close w.store.held.length keep (q.run calls w')
      ∧ (Program.region keep p).deeds calls w = q.deeds calls w' :=
  ⟨(run_region keep).trans (congrArg _ leads.run), (deeds_region keep).trans leads.deeds⟩

/-- Quiet runs leave the balances of the instances alone. -/
theorem Quiet.instanceBalance (quiet : p.Quiet calls w) :
    (p.run calls w).2.store.instanceBalance = w.store.instanceBalance := by
  induction p generalizing w with
  | done x => rfl
  | ask request next ih =>
    simp only [Quiet, moments, List.mem_cons, forall_eq_or_imp] at quiet
    have first := w.answer_instanceBalance calls (Request.balances_of_quiet quiet.1)
    simp only [run]
    revert first quiet
    cases w.answer calls request with
    | mk outcome w' =>
      cases outcome with
      | done reply => exact fun quiet first => (ih reply quiet.2).trans first
      | stopped why => exact fun _ first => first

/-- A quiet run is the same for all functions of the session. -/
theorem Quiet.run_calls (quiet : p.Quiet calls w) (calls' : Calls) :
    p.run calls w = p.run calls' w := by
  induction p generalizing w with
  | done x => rfl
  | ask request next ih =>
    simp only [Quiet, moments, List.mem_cons, forall_eq_or_imp] at quiet
    simp only [run, ← World.answer_calls quiet.1 calls calls' w]
    revert quiet
    cases w.answer calls request with
    | mk outcome w' =>
      cases outcome with
      | done reply => exact fun quiet => ih reply quiet.2
      | stopped why => exact fun _ => rfl

/-- A quiet run of a tame program keeps a world orderly, whatever the functions of the session. -/
theorem Quiet.onward {gives : Horizon → α → Prop} (quiet : p.Quiet calls w)
    (tame : p.Tame w.horizon gives) (orderly : w.Orderly) : w.Onward (p.run calls w).2 := by
  have kept := tame (Session.stage 0) (Session.stage_tame 0) w orderly le_rfl
  rw [quiet.run_calls (Session.stage 0).calls]
  exact kept.onward

/-- A program whose runs are all quiet. -/
def Silent (p : Program α) : Prop := ∀ calls w, p.Quiet calls w

theorem silent_pure {x : α} : Silent (pure x : Program α) := fun _ _ => quiet_pure

theorem silent_request {r : Request} (quiet : r.quiet = true) : Silent (request r) :=
  fun _ _ => quiet_request quiet

theorem Silent.bind (first : p.Silent) (rest : ∀ x, (f x).Silent) : (p >>= f).Silent :=
  fun calls w => (first calls w).bind fun x w' _ => rest x calls w'

theorem Silent.region {keep : α → List Claim} (silent : p.Silent) : (region keep p).Silent :=
  fun calls w => Quiet.region (silent calls w)

theorem silent_store : Silent store := silent_request rfl

theorem silent_memory : Silent memory := silent_request rfl

theorem silent_entry {t : Token} : Silent (entry t) := silent_request rfl

theorem silent_trace {entries : List Token} : Silent (trace entries) := silent_request rfl

theorem run_request {r : Request} : (request r).run calls w = w.answer calls r := by
  simp only [request, run]
  split <;> simp_all

/-- The run of a program that starts with a request. -/
theorem run_request_bind {r : Request} {g : r.Reply → Program α} :
    (request r >>= g).run calls w
      = match w.answer calls r with
        | (.done reply, w) => (g reply).run calls w
        | (.stopped why, w) => (.stopped why, w) := by
  rw [run_bind, run_request]
  cases w.answer calls r with
  | mk outcome w' => cases outcome <;> rfl

/-- A run: its deeds, how it ends, and the world that it leaves. -/
structure Does (calls : Calls) (p : Program α) (w : World) (done : List (World × Request))
    (outcome : Outcome α) (w' : World) : Prop where
  /-- The run ends in this way. -/
  run : p.run calls w = (outcome, w')
  /-- These are its deeds. -/
  deeds : p.deeds calls w = done

section Does

variable {w₂ : World} {done more : List (World × Request)} {outcome : Outcome α} {after : Outcome β}

theorem Passes.does (passes : p.Passes calls w x w') : p.Does calls w [] (.done x) w' :=
  ⟨passes.run, passes.quiet.deeds⟩

theorem Does.bind (first : p.Does calls w done (.done x) w')
    (rest : (f x).Does calls w' more after w₂) :
    (p >>= f).Does calls w (done ++ more) after w₂ where
  run := by
    rw [run_bind, first.run]
    exact rest.run
  deeds := by
    rw [deeds_bind, first.run, first.deeds]
    exact congrArg (done ++ ·) rest.deeds

/-- Nothing follows a stop. -/
theorem Does.bind_stopped {why : Stop} (first : p.Does calls w done (.stopped why) w') :
    (p >>= f).Does calls w done (.stopped why) w' where
  run := by rw [run_bind, first.run]
  deeds := by rw [deeds_bind, first.run, first.deeds, List.append_nil]

theorem Passes.bind_does (first : p.Passes calls w x w')
    (rest : (f x).Does calls w' more after w₂) : (p >>= f).Does calls w more after w₂ :=
  first.does.bind rest

theorem does_request {r : Request} {outcome : Outcome r.Reply} (loud : r.quiet = false)
    (answered : w.answer calls r = (outcome, w')) : (request r).Does calls w [(w, r)] outcome w' :=
  ⟨run_request.trans answered, deeds_request loud⟩

end Does

end Program

namespace World

variable {w : World}

/-- While no balance is negative, giving temporaries back does not panic. -/
theorem Orderly.settle_done (orderly : w.Orderly)
    (balanced : ∀ a, 0 ≤ w.store.instanceBalance.get a) (mark : Nat) (kept : List Claim) :
    (w.settle mark kept).1 = .done () :=
  release_faultless (w := w.withStore _) (accounted_settling orderly.books mark kept) balanced

/-- How a run ends after which the temporaries are given back, and the world that this leaves. -/
inductive Settles {α : Type} (mark : Nat) (w : World) : Outcome α → Outcome α → World → Prop
  /-- The temporaries are given back, and the run ends with its value. -/
  | settled {x : α} (fine : (w.settle mark []).1 = .done ()) :
      Settles mark w (.done x) (.done x) (w.settle mark []).2
  /-- Giving them back only panics if more references to an instance were given back than taken. -/
  | overdrawn {x : α} {why : Stop} {a : Address} (negative : w.store.instanceBalance.get a < 0)
      (panics : (w.settle mark []).1 = .stopped why) :
      Settles mark w (.done x) (.stopped why) (w.settle mark []).2
  /-- After a stop they are left for later. -/
  | stopped {why : Stop} : Settles mark w (.stopped why) (.stopped why) w

end World

/-- A region does what its program does, and then the temporaries are given back. -/
theorem Program.Does.region {α : Type} {calls : Calls} {w w' : World} {p : Program α}
    {done : List (World × Request)} {outcome : Outcome α}
    (does : p.Does calls w done outcome w') (orderly : w'.Orderly) :
    ∃ result w'', World.Settles w.store.held.length w' outcome result w''
      ∧ (region keepNothing p).Does calls w done result w'' := by
  have deeds : (Program.region keepNothing p).deeds calls w = done := by
    rw [deeds_region, does.deeds]
  have ends : (Program.region keepNothing p).run calls w
      = close w.store.held.length keepNothing (p.run calls w) := run_region keepNothing
  rw [does.run] at ends
  cases outcome with
  | stopped why => exact ⟨_, _, .stopped, ends, deeds⟩
  | done x =>
    rw [close, keepNothing] at ends
    cases settled : (w'.settle w.store.held.length []).1 with
    | done _ =>
      rw [settled] at ends
      exact ⟨_, _, .settled settled, ends, deeds⟩
    | stopped why =>
      rw [settled] at ends
      have negative : ∃ a, w'.store.instanceBalance.get a < 0 := by
        by_contra fine
        have done := orderly.settle_done (fun a => not_lt.mp fun below => fine ⟨a, below⟩)
          w.store.held.length []
        rw [done] at settled
        cases settled
      obtain ⟨a, below⟩ := negative
      exact ⟨_, _, .overdrawn below settled, ends, deeds⟩

namespace Bridge

variable {ε α β : Type} {calls : Calls} {w w' : World}

theorem passes_lift {p : Program α} {x : α} (passes : p.Passes calls w x w') :
    (liftM p : ExceptT ε Program α).run.Passes calls w (.ok x) w' :=
  passes.bind Program.passes_pure

/-- The claims that a result keeps. -/
def keepOk (keep : α → List Claim) : Except Failure α → List Claim
  | .ok value => keep value
  | .error _ => []

theorem region_eq (keep : α → List Claim) (p : Bridge α) :
    (region keep p).run = Program.region (keepOk keep) p.run :=
  congrArg (Program.region · p.run) (funext fun r => by cases r <;> rfl)

theorem leads_region {p : Bridge α} {q : Program (Except Failure α)} (keep : α → List Claim)
    (leads : p.run.Leads calls w q w') :
    (region keep p).run.run calls w
        = Program.close w.store.held.length (keepOk keep) (q.run calls w')
      ∧ (region keep p).run.deeds calls w = q.deeds calls w' := by
  rw [region_eq]
  exact leads.region (keepOk keep)

/-- A failure that is found leaves no temporaries behind. -/
theorem Finds.refused {p : Bridge α} {f : Failure} (finds : Finds p w (· = .error f))
    (keep : α → List Claim) (calls : Calls) :
    ∃ w', (Bridge.region keep p).run.Passes calls w (.error f) w' ∧ w.Reading w' [] := by
  rw [region_eq]
  obtain ⟨x, w', top, passes, reading, rfl⟩ :=
    Program.Finds.settled finds (keepOk keep) calls (.refl w)
  exact ⟨w', passes, by rwa [keepOk, Store.part_nil] at reading⟩

theorem leads_bind {p : ExceptT ε Program α} {f : α → ExceptT ε Program β} {x : α}
    (passes : p.run.Passes calls w (.ok x) w') :
    (p >>= f).run.Leads calls w (f x).run w' :=
  Program.Passes.leads passes

end Bridge

/-- A program that may fail and whose runs are all quiet. -/
def Bridge.Silent {ε α : Type} (p : ExceptT ε Program α) : Prop := Program.Silent p.run

namespace Bridge

variable {ε α β : Type}

theorem silent_pure {x : α} : Silent (pure x : ExceptT ε Program α) := Program.silent_pure

theorem silent_throw {e : ε} : Silent (throw e : ExceptT ε Program α) := Program.silent_pure

/-- Nothing follows a failure. -/
theorem silent_throw_bind {e : ε} {f : α → ExceptT ε Program β} :
    Silent (throw e >>= f : ExceptT ε Program β) :=
  silent_throw

theorem silent_lift {p : Program α} (silent : p.Silent) :
    Silent (liftM p : ExceptT ε Program α) :=
  silent.bind fun _ => Program.silent_pure

theorem Silent.bind {p : ExceptT ε Program α} {f : α → ExceptT ε Program β} (first : Silent p)
    (rest : ∀ x, Silent (f x)) : Silent (p >>= f) := by
  refine Program.Silent.bind first fun r => ?_
  cases r with
  | error e => exact Program.silent_pure
  | ok x => exact rest x

theorem Silent.region {keep : α → List Claim} {p : Bridge α} (silent : Silent p) :
    Silent (region keep p) :=
  Program.Silent.region silent

end Bridge

open Program Descriptor

namespace Descriptor

theorem silent_take {t : Option Token} : Silent (take t) := by
  cases t with
  | none => exact silent_pure
  | some t => exact (silent_request rfl).bind fun _ => silent_pure

theorem silent_registered {number : TypeNumber} : Silent (registered? number) := by
  unfold registered?
  split
  · exact silent_pure
  · exact (silent_request rfl).bind fun _ => silent_take

end Descriptor

namespace Codec

theorem silent_shapeOfTarget {target : Token} : Bridge.Silent (shapeOfTarget target) := by
  refine (Bridge.silent_lift silent_entry).bind fun e => ?_
  split
  · split
    · exact Bridge.silent_pure
    · exact Bridge.silent_throw
  · repeat' split
    · exact Bridge.silent_pure
    · exact Bridge.silent_pure
    · exact Bridge.silent_pure
    · exact (Bridge.silent_lift (silent_request rfl)).bind fun _ => Bridge.silent_pure
    · exact Bridge.silent_throw

theorem silent_shapeOfArray {t : Token} {e : Entry} : Bridge.Silent (shapeOfArray t e) := by
  unfold shapeOfArray
  dsimp only
  split
  · exact Bridge.silent_throw_bind
  · refine (Bridge.silent_lift (silent_entry.bind fun _ => silent_take)).bind fun element => ?_
    cases element with
    | some element => exact Bridge.silent_pure
    | none => exact Bridge.silent_throw

theorem silent_shape {t : Token} : Bridge.Silent (shape t) := by
  refine (Bridge.silent_lift silent_entry).bind fun e => ?_
  cases e.tag with
  | array => exact silent_shapeOfArray
  | interface =>
    refine (Bridge.silent_lift (silent_entry.bind fun _ => silent_take)).bind fun target => ?_
    cases target with
    | some target => exact silent_shapeOfTarget
    | none => exact Bridge.silent_throw
  | gtype | ghash | error | unichar => exact Bridge.silent_throw
  | _ => exact Bridge.silent_pure

theorem silent_handle {info : Option Token} {attachment : Option Attachment} :
    Silent ((request (.openHandle info attachment none) : Program HandleId) >>=
      fun h => pure (.handle h) : Program Value) :=
  (silent_request rfl).bind fun _ => silent_pure

theorem silent_wrapInstance {a : Address} {declared : Token} {retain : Bool} :
    Silent (wrapInstance a declared retain) := by
  refine .region ?_
  split
  · exact silent_pure
  · refine silent_store.bind fun s => ?_
    extract_lets give wrap
    have silent_wrap (actual? : Option Token) : Silent (wrap actual?) := by
      simp only [wrap]
      cases actual? with
      | some actual =>
        refine silent_trace.bind fun _ => ?_
        split <;> exact silent_handle
      | none =>
        dsimp only
        split <;> exact silent_handle
    split
    · exact (silent_request rfl).bind fun i => silent_registered.bind silent_wrap
    · exact silent_wrap none

theorem silent_wrapRecord {a : Address} {declared : Token} : Silent (wrapRecord a declared) := by
  refine .region ?_
  split
  · exact silent_pure
  · refine silent_entry.bind fun e => silent_registered.bind fun found =>
      silent_entry.bind fun infoEntry => ?_
    split <;> exact silent_handle

theorem silent_decodeShape {slot : Slot} {t : Token} {wanted : Shape} :
    Silent (decodeShape slot t wanted) := by
  cases wanted with
  | text => exact silent_memory.bind fun _ => silent_pure
  | array element zeroTerminated fixedSize =>
    exact silent_memory.bind fun _ => silent_entry.bind fun _ => silent_pure
  | object target => exact silent_wrapInstance
  | interface target => exact silent_store.bind fun _ => silent_wrapInstance
  | record target boxed => exact silent_wrapRecord
  | list => exact silent_handle
  | _ => exact silent_pure

/-- Converting a slot to a value is silent. -/
theorem silent_decode {slot : Slot} {t : Token} : Bridge.Silent (decode slot t) :=
  .region <| silent_shape.bind fun _ => (Bridge.silent_lift silent_trace).bind
    fun _ => Bridge.silent_lift silent_decodeShape

end Codec
end ObjectBridge
