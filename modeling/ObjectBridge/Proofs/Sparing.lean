import ObjectBridge.Handle.Eval
import ObjectBridge.Proofs.Deeds
import ObjectBridge.Proofs.Finding
import ObjectBridge.Proofs.Giving

/-!
# What leaves memory as it is

Whoever decodes a slot or moves along a list looks at memory and changes nothing there: neither is a
cell written nor is storage reserved, however the program ends.
-/

namespace ObjectBridge

open Program Descriptor

/-- A quiet request that reserves no storage. -/
def Request.spares : Request → Bool
  | .place _ _ => false
  | r => r.quiet

theorem World.memory_openHandle (w : World) (info : Option Token) (attachment : Option Attachment)
    (keeper : Option HandleId) : (w.openHandle info attachment keeper).2.memory = w.memory := by
  unfold openHandle
  dsimp only
  split
  · split <;> rfl
  · rfl

theorem World.memory_answer (calls : Calls) {r : Request} (spares : r.spares = true) (w : World) :
    (w.answer calls r).2.memory = w.memory := by
  cases r with
  | entry t =>
    rw [answer]
    split <;> rfl
  | liveInstance a =>
    rw [answer, withInstance]
    split <;> rfl
  | letGo c =>
    have answered : (w.answer calls (.letGo c)).2
        = if w.store.held.contains c then ((w.withStore (w.store.dropHeld c)).release [c]).2
          else w := apply_ite Prod.snd _ _ _
    rw [answered]
    split <;> rfl
  | openHandle info attachment keeper => exact w.memory_openHandle info attachment keeper
  | trace entries =>
    rw [answer]
    split
    · exact (World.memory_trace entries w).1
    · rfl
  | hold _ | settle _ _ | database | memory | store | bench | options | required | mark | tracing
  | stop _ => rfl
  | _ => simp [Request.spares, Request.quiet] at spares

/-- A program that leaves memory as it is. -/
def Program.Spares {α : Type} (p : Program α) : Prop :=
  ∀ calls w, (p.run calls w).2.memory = w.memory

/-- A program that may fail and leaves memory as it is. -/
def Bridge.Spares {ε α : Type} (p : ExceptT ε Program α) : Prop := Program.Spares p.run

namespace Program

variable {α β : Type} {p : Program α} {f : α → Program β}

theorem spares_pure {x : α} : Spares (pure x : Program α) := fun _ _ => rfl

theorem Spares.bind (first : p.Spares) (rest : ∀ x, (f x).Spares) : (p >>= f).Spares := by
  intro calls w
  have before := first calls w
  rw [run_bind]
  revert before
  cases p.run calls w with
  | mk outcome w₁ =>
    cases outcome with
    | done x => exact fun before => (rest x calls w₁).trans before
    | stopped why => exact id

theorem spares_request {r : Request} (spares : r.spares = true) : Spares (request r) := by
  intro calls w
  have answered := w.memory_answer calls spares
  simp only [request, run]
  revert answered
  cases w.answer calls r with
  | mk outcome w' => cases outcome <;> exact id

/-- Making something of the value of a program leaves memory as the program left it. -/
theorem memory_bind_pure (p : Program α) (g : α → β) (calls : Calls) (w : World) :
    ((p >>= fun x => pure (g x)).run calls w).2.memory = (p.run calls w).2.memory := by
  rw [run_bind]
  cases p.run calls w with
  | mk outcome w' => cases outcome <;> rfl

/-- Giving the temporaries of a program back leaves memory as the program left it. -/
theorem memory_region (keep : α → List Claim) (p : Program α) (calls : Calls) (w : World) :
    ((region keep p).run calls w).2.memory = (p.run calls w).2.memory := by
  rw [run_region]
  cases p.run calls w with
  | mk outcome w' => cases outcome <;> rfl

theorem spares_entry {t : Token} : Spares (entry t) := spares_request rfl

theorem spares_store : Spares store := spares_request rfl

theorem spares_trace {entries : List Token} : Spares (trace entries) := spares_request rfl

theorem spares_handleRecord {h : HandleId} : Spares (handleRecord h) :=
  spares_store.bind fun _ => spares_pure

end Program

namespace Bridge

variable {ε α β : Type}

theorem spares_pure {x : α} : Spares (pure x : ExceptT ε Program α) := Program.spares_pure

theorem spares_throw {e : ε} : Spares (throw e : ExceptT ε Program α) := Program.spares_pure

theorem spares_throw_bind {e : ε} {f : α → ExceptT ε Program β} :
    Spares (throw e >>= f : ExceptT ε Program β) :=
  spares_throw

theorem spares_except {r : Except ε α} : Spares (liftM r : ExceptT ε Program α) :=
  Program.spares_pure

theorem spares_lift {p : Program α} (spares : p.Spares) : Spares (liftM p : ExceptT ε Program α) :=
  spares.bind fun _ => Program.spares_pure

theorem Spares.bind {p : ExceptT ε Program α} {f : α → ExceptT ε Program β} (first : Spares p)
    (rest : ∀ x, Spares (f x)) : Spares (p >>= f) := by
  refine Program.Spares.bind first fun r => ?_
  cases r with
  | error e => exact Program.spares_pure
  | ok x => exact rest x

end Bridge

namespace Descriptor

theorem spares_take {t : Option Token} : Spares (take t) := by
  cases t with
  | none => exact spares_pure
  | some t => exact (spares_request rfl).bind fun _ => spares_pure

theorem spares_part {t : Token} {index : Nat} : Spares (part? t index) :=
  spares_entry.bind fun _ => spares_take

theorem spares_registered {number : TypeNumber} : Spares (registered? number) := by
  unfold registered?
  split
  · exact spares_pure
  · exact (spares_request rfl).bind fun _ => spares_take

end Descriptor

theorem Handle.spares_typed {r : HandleRecord} : Bridge.Spares (typed r) := by
  unfold typed
  split
  · exact Bridge.spares_pure
  · exact Bridge.spares_throw

namespace Codec

theorem spares_shapeOfTarget {target : Token} : Bridge.Spares (shapeOfTarget target) := by
  apply (Bridge.spares_lift spares_entry).bind
  intro e
  split
  · split
    · exact Bridge.spares_pure
    · exact Bridge.spares_throw
  · repeat' split
    · exact Bridge.spares_pure
    · exact Bridge.spares_pure
    · exact Bridge.spares_pure
    · exact (Bridge.spares_lift (spares_request rfl)).bind fun _ => Bridge.spares_pure
    · exact Bridge.spares_throw

theorem spares_shapeOfArray {t : Token} {e : Entry} : Bridge.Spares (shapeOfArray t e) := by
  unfold shapeOfArray
  dsimp only
  split
  · exact Bridge.spares_throw_bind
  · apply (Bridge.spares_lift spares_part).bind
    intro element
    cases element with
    | some element => exact Bridge.spares_pure
    | none => exact Bridge.spares_throw

theorem spares_shape {t : Token} : Bridge.Spares (shape t) := by
  apply (Bridge.spares_lift spares_entry).bind
  intro e
  cases e.tag with
  | array => exact spares_shapeOfArray
  | interface =>
    apply (Bridge.spares_lift (spares_entry.bind fun _ => spares_take)).bind
    intro target
    cases target with
    | some target => exact spares_shapeOfTarget
    | none => exact Bridge.spares_throw
  | gtype | ghash | error | unichar => exact Bridge.spares_throw
  | _ => exact Bridge.spares_pure

theorem spares_handle {info : Option Token} {attachment : Option Attachment} :
    Spares ((request (.openHandle info attachment none) : Program HandleId) >>=
      fun h => pure (.handle h) : Program Value) :=
  (spares_request rfl).bind fun _ => spares_pure

end Codec

end ObjectBridge
