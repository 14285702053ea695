import ObjectBridge.Proofs.Throughout

/-!
# Elementary changes

Every answer of the machine that runs nothing else is made of few kinds of changes: claims are taken
or given back, something is added or changed, or something changes that does not matter for what is
live.  A relation that these keep holds throughout every run.
-/

namespace ObjectBridge

/-- Whether the machine answers a request by itself, without functions and steps of the session. -/
def Request.direct : Request → Bool
  | .invoke _ _ _ | .callHost _ _ | .assignGlobal _ _ | .perform _ => false
  | _ => true

namespace World

variable {R : World → World → Prop} {w w' : World}

/-- Memory and everything that is live is the same. -/
structure Idle (w w' : World) : Prop where
  /-- Memory is the same. -/
  memory : w'.memory = w.memory
  /-- So are the instances. -/
  instances : w'.store.instances = w.store.instances
  /-- So are the handles. -/
  handles : w'.store.handles = w.store.handles
  /-- So are the connection records. -/
  closures : w'.store.closures = w.store.closures
  /-- So are the blocks. -/
  blocks : w'.store.blocks = w.store.blocks
  /-- So is the number of the next handle. -/
  nextHandle : w'.store.nextHandle = w.store.nextHandle
  /-- So is the number of the next connection record. -/
  nextClosure : w'.store.nextClosure = w.store.nextClosure

theorem Idle.of_store (memory : w'.memory = w.memory) (store : w'.store = w.store) : w.Idle w' := by
  constructor <;> simp only [memory, store]

/-- A relation that the elementary changes keep. -/
structure Elementary (R : World → World → Prop) : Prop where
  /-- The relation goes on from one world to the next. -/
  trans : ∀ {w w₁ w₂}, R w w₁ → R w₁ w₂ → R w w₂
  /-- What holds claims, what counts entries, and what does not count may change. -/
  idle : ∀ {w w' : World}, w.Idle w' → R w w'
  /-- Storage is reserved. -/
  place : ∀ (w : World) cells size, R w (w.place cells size).2
  /-- Claims are taken. -/
  claimAll : ∀ claims (w : World), R w (w.withStore (w.store.claimAll claims))
  /-- Claims are given back. -/
  release : ∀ claims (w : World), R w (w.release claims).2
  /-- A handle is added. -/
  addHandle : ∀ r (w : World), R w (w.withStore (w.store.addHandle r).2)
  /-- A block is added in new storage. -/
  addBlock : ∀ (w : World) size, R w ((w.place [] size).2.withStore
    { w.store with blocks := (w.place [] size).1 :: w.store.blocks })
  /-- An instance is added in new storage. -/
  create : ∀ (w : World) number floating, R w (w.create number floating).2
  /-- The references of a live instance are counted, or it stops floating. -/
  setInstance : ∀ {w : World} {a i i'}, w.store.instances.get? a = some i → i'.number = i.number →
    i'.properties = i.properties → i'.connections = i.connections → R w (w.setInstance a i')
  /-- A connection is added to a live instance. -/
  addConnection : ∀ {w : World} {a i}, w.store.instances.get? a = some i → ∀ signal reaction,
    R w (w.withStore (w.store.addConnection a i signal reaction).2)

namespace Elementary

variable (elementary : Elementary R)
include elementary

theorem refl (w : World) : R w w := elementary.idle (.of_store rfl rfl)

theorem withStore_release {s : Store} {claims : List Claim} (first : R w (w.withStore s)) :
    R w ((w.withStore s).release claims).2 :=
  elementary.trans first (elementary.release claims _)

theorem openHandle (w : World) (info : Option Token) (attachment : Option Attachment)
    (keeper : Option HandleId) : R w (w.openHandle info attachment keeper).2 := by
  unfold World.openHandle
  dsimp only
  split
  · split
    · exact elementary.addHandle _ w
    · exact elementary.refl w
  · exact elementary.addHandle _ w

/-- Looking at a live instance, and doing something with it. -/
theorem withInstance {α : Type} {a : Address} {f : Instance → Outcome α × World}
    (live : ∀ i, w.store.instances.get? a = some i → R w (f i).2) :
    R w (w.withInstance a f).2 := by
  unfold World.withInstance
  split
  · next i found => exact live i found
  · exact elementary.refl w

theorem takeDirect (w : World) (a : Address) : R w (w.takeDirect a).2 :=
  elementary.withInstance fun i live => by
    have counted : R w (w.setInstance a { i with references := i.references + 1 }) :=
      elementary.setInstance live rfl rfl rfl
    exact elementary.trans counted (elementary.idle ⟨rfl, rfl, rfl, rfl, rfl, rfl, rfl⟩)

theorem traceNames (entries : List Token) (w : World) : R w (entries.foldl traceName w) := by
  induction entries generalizing w with
  | nil => exact elementary.refl w
  | cons t rest ih =>
    have first : R w (w.traceName t) := elementary.idle ⟨rfl, rfl, rfl, rfl, rfl, rfl, rfl⟩
    exact elementary.trans first (ih (w.traceName t))

theorem invoke {call : Action (Except String Slot × List Slot)} (runs : ∀ w, R w (call w).2)
    (w : World) : R w (w.invoke call).2 := by
  unfold World.invoke
  split
  · have entered : R w { w with signals := .guarded } := elementary.idle (.of_store rfl rfl)
    exact elementary.trans entered (elementary.trans (runs _) (elementary.idle (.of_store rfl rfl)))
  · exact elementary.trans (runs w) (elementary.refl _)

/-- Answers of the machine by itself keep the relation, if storing properties and writing to memory
do. -/
theorem answer_direct (calls : Calls) {r : Request} (direct : r.direct = true) (w : World)
    (stores : ∀ a i name slot, r = .storeProperty a name slot → w.store.instances.get? a = some i →
      R w (w.setInstance a { i with properties := assign name slot i.properties }))
    (writes : ∀ a cells, r = .write a cells → R w { w with memory := w.memory.write a cells }) :
    R w (w.answer calls r).2 := by
  have still : R w w := elementary.refl w
  have idle {s : Store} (instances : s.instances = w.store.instances)
      (handles : s.handles = w.store.handles) (closures : s.closures = w.store.closures)
      (blocks : s.blocks = w.store.blocks) (nextHandle : s.nextHandle = w.store.nextHandle)
      (nextClosure : s.nextClosure = w.store.nextClosure) : R w (w.withStore s) :=
    elementary.idle ⟨rfl, instances, handles, closures, blocks, nextHandle, nextClosure⟩
  cases r with
  | invoke _ _ _ | callHost _ _ | assignGlobal _ _ | perform _ => cases direct
  | entry t | raise signal =>
    simp only [answer]
    split
    · first | exact still | exact elementary.idle (.of_store rfl rfl)
    · exact still
  | trace entries =>
    simp only [answer]
    split
    · exact elementary.traceNames entries w
    · exact still
  | liveInstance a => exact elementary.withInstance fun _ _ => still
  | sink a => exact elementary.withInstance fun i live => elementary.setInstance live rfl rfl rfl
  | storeProperty a name slot =>
    exact elementary.withInstance fun i live => stores a i name slot rfl live
  | write a cells => exact writes a cells rfl
  | takeDirect a => exact elementary.takeDirect w a
  | giveBackDirect a =>
    exact elementary.withInstance fun _ _ =>
      elementary.withStore_release (idle rfl rfl rfl rfl rfl rfl)
  | sinkDirect a =>
    refine elementary.withInstance fun i live => ?_
    split
    · exact elementary.setInstance live rfl rfl rfl
    · exact elementary.takeDirect w a
  | attach a signal reaction =>
    exact elementary.withInstance fun i live => elementary.addConnection live signal reaction
  | hold c =>
    exact elementary.trans (elementary.claimAll [c] w)
      (elementary.idle ⟨rfl, rfl, rfl, rfl, rfl, rfl, rfl⟩)
  | letGo c =>
    by_cases held : w.store.held.contains c = true
    · have answered : w.answer calls (.letGo c) = (w.withStore (w.store.dropHeld c)).release [c] :=
        if_pos held
      rw [answered]
      exact elementary.withStore_release (idle rfl rfl rfl rfl rfl rfl)
    · have answered : w.answer calls (.letGo c) = (.done (), w) := if_neg held
      rw [answered]
      exact still
  | settle mark kept | dropGlobal name | unbind name =>
    exact elementary.withStore_release (idle rfl rfl rfl rfl rfl rfl)
  | openHandle info attachment keeper => exact elementary.openHandle w info attachment keeper
  | openBlock info size =>
    exact elementary.trans (elementary.addBlock w size) (elementary.openHandle _ _ _ _)
  | place cells size => exact elementary.place w cells size
  | create number floating | createDirect number =>
    exact elementary.trans (elementary.create w number _)
      (elementary.idle ⟨rfl, rfl, rfl, rfl, rfl, rfl, rfl⟩)
  | storeGlobal name v | bind name v =>
    exact elementary.withStore_release (elementary.trans (elementary.claimAll v.claims w)
      (elementary.idle ⟨rfl, rfl, rfl, rfl, rfl, rfl, rfl⟩))
  | takeEntry t | giveBackEntry t => exact idle rfl rfl rfl rfl rfl rfl
  | _ => exact elementary.idle (.of_store rfl rfl)

/-- The relation is kept throughout every run. -/
theorem kept
    (stores : ∀ {w : World} {a i} name slot, w.store.instances.get? a = some i →
      R w (w.setInstance a { i with properties := assign name slot i.properties }))
    (writes : ∀ (w : World) a cells, R w { w with memory := w.memory.write a cells }) :
    Kept R where
  refl := elementary.refl
  trans := elementary.trans
  answer {calls} along w r := by
    have alone (direct : r.direct = true) : R w (w.answer calls r).2 :=
      elementary.answer_direct calls direct w (fun _ _ name slot _ live => stores name slot live)
        fun a cells _ => writes w a cells
    cases r with
    | invoke callable inputs outputs =>
      exact elementary.invoke (along.native callable inputs outputs) w
    | callHost target arguments => exact along.host target arguments w
    | perform step => exact along.step step w
    | assignGlobal name v => exact along.assign name v w
    | _ => exact alone rfl

end Elementary
end World
end ObjectBridge
