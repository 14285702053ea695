import ObjectBridge.Proofs.Deeds
import ObjectBridge.Proofs.Muting

/-!
# Muted programs mask programs

A run in a world masks the run of the same program in a world that the first one masks, if the
program is blind: the machine answers each request of it alike, and leaves worlds of which the first
again masks the second.  What a program does with a script is compared with what the muted script
makes it do.
-/

namespace ObjectBridge

namespace Store

variable {s s' : Store}

/-- Stores stay alike when something other than the ledger is changed in the same way. -/
theorem Alike.change (alike : s.Alike s') (f : Store → Store)
    (unseen : ∀ s ledger, f { s with ledger := ledger } = { f s with ledger := ledger })
    (kept : ∀ s, (f s).ledger = s.ledger) : (f s).Alike (f s') where
  rest := by rw [alike.rest, unseen]
  ledger t := by rw [kept, kept, alike.ledger]
  total := by rw [kept, kept, alike.total]

theorem Alike.claim (alike : s.Alike s') (c : Claim) : (s.claim c).Alike (s'.claim c) := by
  obtain ⟨rest, ledger, total⟩ := alike
  rw [rest]
  cases c with
  | entry t =>
    refine ⟨rfl, fun u => ?_, ?_⟩
    · simp only [Store.claim, Tally.get_take, ledger]
    · simp only [Store.claim, Tally.total_take, total]
  | block a => exact ⟨rfl, ledger, total⟩
  | handle h | closure c | reference a =>
    simp only [Store.claim]
    split <;> exact ⟨rfl, ledger, total⟩

theorem Alike.claimAll (alike : s.Alike s') (claims : List Claim) :
    (s.claimAll claims).Alike (s'.claimAll claims) := by
  induction claims generalizing s s' with
  | nil => exact alike
  | cons c rest ih => exact ih (alike.claim c)

theorem Alike.hold (alike : s.Alike s') (c : Claim) : (s.hold c).Alike (s'.hold c) :=
  (alike.claim c).change (fun s => { s with held := c :: s.held }) (fun _ _ => rfl) fun _ => rfl

theorem Alike.addHandle (alike : s.Alike s') (r : HandleRecord) :
    (s'.addHandle r).1 = (s.addHandle r).1 ∧ (s.addHandle r).2.Alike (s'.addHandle r).2 := by
  have next : s'.nextHandle = s.nextHandle := by rw [alike.rest]
  refine ⟨next, ?_⟩
  simp only [Store.addHandle, next]
  exact (alike.claimAll r.claims).change
    (fun t =>
      { t with
        handles := t.handles.insert s.nextHandle r
        nextHandle := s.nextHandle + 1
        held := .handle s.nextHandle :: t.held })
    (fun _ _ => rfl) fun _ => rfl

theorem Alike.addConnection (alike : s.Alike s') (a : Address) (i : Instance) (signal : String)
    (reaction : Reaction) :
    (s'.addConnection a i signal reaction).1 = (s.addConnection a i signal reaction).1
      ∧ (s.addConnection a i signal reaction).2.Alike
          (s'.addConnection a i signal reaction).2 := by
  have id : s'.nextConnection = s.nextConnection := by rw [alike.rest]
  have record : s'.nextClosure = s.nextClosure := by rw [alike.rest]
  refine ⟨id, ?_⟩
  simp only [Store.addConnection, id, record]
  exact (alike.claimAll reaction.claims).change
    (fun t =>
      { t with
        closures := t.closures.insert s.nextClosure { reaction := reaction }
        instances := t.instances.set a
          { i with connections := i.connections ++ [⟨s.nextConnection, signal, s.nextClosure⟩] }
        nextConnection := s.nextConnection + 1
        nextClosure := s.nextClosure + 1 })
    (fun _ _ => rfl) fun _ => rfl

end Store

/-- How a transition ends in two worlds: with values that are related, or for the same reason before
its end. -/
inductive Outcome.Related {α : Type} (R : α → α → Prop) : Outcome α → Outcome α → Prop where
  /-- With values that are related. -/
  | done {x x' : α} (related : R x x') : Related R (.done x) (.done x')
  /-- For the same reason. -/
  | stopped (why : Stop) : Related R (.stopped why) (.stopped why)

theorem Outcome.related_of_eq {α : Type} {o o' : Outcome α} (same : o = o') :
    Outcome.Related Eq o o' := by
  subst same
  cases o with
  | done x => exact .done rfl
  | stopped why => exact .stopped why

theorem Outcome.Related.eq {α : Type} {o o' : Outcome α} (related : Outcome.Related Eq o o') :
    o = o' := by
  cases related with
  | done same => exact congrArg Outcome.done same
  | stopped why => rfl

/-- One way to end masks another one if the outcomes are related and the world masks the other. -/
structure World.MasksEnd {α : Type} (mark : Failure) (loud : Bool) (R : α → α → Prop)
    (ended ended' : Outcome α × World) : Prop where
  /-- The outcomes are related. -/
  outcome : Outcome.Related R ended.1 ended'.1
  /-- The world masks the other one. -/
  world : ended.2.Masks mark loud ended'.2

/-- Either signals may be raised, or none is. -/
def Calm (loud : Bool) (signals : List FatalSignal) : Prop := loud = true ∨ signals = []

theorem calm_append {loud : Bool} {xs ys : List FatalSignal} :
    Calm loud (xs ++ ys) ↔ Calm loud xs ∧ Calm loud ys := by
  simp only [Calm, List.append_eq_nil_iff]
  tauto

/-- What runs the functions and the steps of a muted script, compared with what runs those of the
script itself. -/
structure Calls.Mask (mark : Failure) (loud : Bool) (calls calls' : Calls)
    (inside : Request → World → List FatalSignal) : Prop where
  /-- A native function. -/
  invoke : ∀ callable inputs outputs {w w' : World}, w.Masks mark loud w' →
    Calm loud (inside (.invoke callable inputs outputs) w') →
    World.MasksEnd mark loud Eq
      (w.answer calls (.invoke callable inputs outputs))
      (w'.answer calls' (.invoke callable inputs outputs))
  /-- A host function. -/
  callHost : ∀ target arguments {w w' : World}, w.Masks mark loud w' →
    Calm loud (inside (.callHost target arguments) w') →
    World.MasksEnd mark loud Eq
      (w.answer calls (.callHost target arguments)) (w'.answer calls' (.callHost target arguments))
  /-- Setting a global. -/
  assignGlobal : ∀ name v {w w' : World}, w.Masks mark loud w' →
    Calm loud (inside (.assignGlobal name v) w') →
    World.MasksEnd mark loud Eq
      (w.answer calls (.assignGlobal name v)) (w'.answer calls' (.assignGlobal name v))
  /-- A nested step. -/
  perform : ∀ step {w w' : World}, w.Masks mark loud w' → Calm loud (inside (.perform step) w') →
    World.MasksEnd mark loud Eq
      (w.answer calls (.perform (step.muted mark))) (w'.answer calls' (.perform step))

namespace World

variable {mark : Failure} {loud : Bool} {w w' : World} {s s' : Store}

theorem Masks.withStore (masks : w.Masks mark loud w') (alike : s.Alike s') :
    (w.withStore s).Masks mark loud (w'.withStore s') :=
  { masks with store := alike }

theorem Masks.withMemory (masks : w.Masks mark loud w') (memory : Memory) :
    Masks mark loud { w with memory := memory } { w' with memory := memory } :=
  { masks with memory := rfl }

theorem Masks.instances (masks : w.Masks mark loud w') :
    w'.store.instances = w.store.instances := by
  rw [masks.store.rest]

theorem Masks.held (masks : w.Masks mark loud w') : w'.store.held = w.store.held := by
  rw [masks.store.rest]

theorem Masks.bindings (masks : w.Masks mark loud w') : w'.store.bindings = w.store.bindings := by
  rw [masks.store.rest]

theorem Masks.globals (masks : w.Masks mark loud w') : w'.store.globals = w.store.globals := by
  rw [masks.store.rest]

/-- A transition that does not fail. -/
theorem Masks.done {α : Type} {x : α} (masks : w.Masks mark loud w') :
    MasksEnd mark loud Eq (.done x, w) (.done x, w') :=
  ⟨.done rfl, masks⟩

/-- Giving the same claims back. -/
theorem Masks.release (masks : w.Masks mark loud w') (alike : s.Alike s') (claims : List Claim) :
    MasksEnd mark loud Eq ((w.withStore s).release claims)
      ((w'.withStore s').release claims) where
  outcome := Outcome.related_of_eq (congrArg Outcome.ofFaults (alike.faults claims).symm)
  world := masks.withStore (alike.release (.refl claims))

/-- Changing the value of an outcome in the same way. -/
theorem MasksEnd.map {α β : Type} {ended ended' : Outcome α × World} (f : α → β)
    (masks : MasksEnd mark loud Eq ended ended') :
    MasksEnd mark loud Eq (ended.1.map f, ended.2)
      (ended'.1.map f, ended'.2) where
  outcome := by
    obtain ⟨outcome, world⟩ := ended
    obtain ⟨outcome', world'⟩ := ended'
    cases masks.outcome with
    | done same => exact .done (congrArg f same)
    | stopped why => exact .stopped why
  world := masks.world

/-- Doing something with a live instance. -/
theorem Masks.withInstance {α : Type} {a : Address} {f f' : Instance → Outcome α × World}
    (masks : w.Masks mark loud w')
    (live : ∀ i, w.store.instances.get? a = some i →
      MasksEnd mark loud Eq (f i) (f' i)) :
    MasksEnd mark loud Eq (w.withInstance a f) (w'.withInstance a f') := by
  simp only [World.withInstance, masks.instances]
  split
  · next i found => exact live i found
  · exact ⟨.stopped _, masks⟩

theorem Masks.setInstance (masks : w.Masks mark loud w') (a : Address) (i : Instance) :
    (w.setInstance a i).Masks mark loud (w'.setInstance a i) :=
  masks.withStore <| masks.store.change (fun s => { s with instances := s.instances.set a i })
    (fun _ _ => rfl) fun _ => rfl

theorem Masks.balance (masks : w.Masks mark loud w') (f : Tally → Tally) :
    (w.balance f).Masks mark loud (w'.balance f) :=
  masks.withStore <| masks.store.change
    (fun s => { s with instanceBalance := f s.instanceBalance }) (fun _ _ => rfl) fun _ => rfl

theorem Masks.settle (masks : w.Masks mark loud w') (before : Nat) (kept : List Claim) :
    MasksEnd mark loud Eq (w.settle before kept) (w'.settle before kept) := by
  have trimmed (top : List Claim) :
      Store.Alike { w.store with held := top } { w'.store with held := top } :=
    masks.store.change (fun s => { s with held := top }) (fun _ _ => rfl) fun _ => rfl
  simp only [World.settle, masks.held]
  exact masks.release (trimmed _) _

theorem Masks.openHandle (masks : w.Masks mark loud w') (info : Option Token)
    (attachment : Option Attachment) (keeper : Option HandleId) :
    MasksEnd mark loud Eq (w.openHandle info attachment keeper)
      (w'.openHandle info attachment keeper) := by
  have added (r : HandleRecord) : MasksEnd mark loud Eq
      (.done (w.store.addHandle r).1, w.withStore (w.store.addHandle r).2)
      (.done (w'.store.addHandle r).1, w'.withStore (w'.store.addHandle r).2) := by
    obtain ⟨number, alike⟩ := masks.store.addHandle r
    exact ⟨.done number.symm, masks.withStore alike⟩
  have live (a : Address) : w'.store.isLive a = w.store.isLive a := by
    rw [Store.isLive, Store.isLive, masks.instances]
  simp only [World.openHandle, live]
  split
  · split
    · exact added _
    · exact ⟨.stopped _, masks⟩
  · exact added _

theorem Masks.place (masks : w.Masks mark loud w') (cells : List Cell) (size : Nat) :
    (w'.place cells size).1 = (w.place cells size).1
      ∧ (w.place cells size).2.Masks mark loud (w'.place cells size).2 := by
  simp only [World.place, masks.memory]
  exact ⟨trivial, masks.withMemory _⟩

theorem Masks.create (masks : w.Masks mark loud w') (number : TypeNumber) (floating : Bool) :
    (w'.create number floating).1 = (w.create number floating).1
      ∧ (w.create number floating).2.Masks mark loud (w'.create number floating).2 := by
  obtain ⟨same, placed⟩ := masks.place [] instanceStorage
  simp only [World.create, same]
  exact ⟨trivial, placed.withStore <| placed.store.change
    (·.addInstance (w.place [] instanceStorage).1 number floating) (fun _ _ => rfl) fun _ => rfl⟩

theorem Masks.createHeld (masks : w.Masks mark loud w') (number : TypeNumber) (floating : Bool) :
    (w'.createHeld number floating).1 = (w.createHeld number floating).1
      ∧ (w.createHeld number floating).2.Masks mark loud (w'.createHeld number floating).2 := by
  obtain ⟨same, created⟩ := masks.create number floating
  simp only [World.createHeld, same]
  exact ⟨trivial, created.withStore <| created.store.change
    (fun s => { s with held := .reference (w.create number floating).1 :: s.held })
    (fun _ _ => rfl) fun _ => rfl⟩

theorem Masks.createDirect (masks : w.Masks mark loud w') (number : TypeNumber) :
    (w'.createDirect number).1 = (w.createDirect number).1
      ∧ (w.createDirect number).2.Masks mark loud (w'.createDirect number).2 := by
  obtain ⟨same, created⟩ := masks.create number false
  simp only [World.createDirect, same]
  exact ⟨trivial, created.balance _⟩

theorem Masks.openBlock (masks : w.Masks mark loud w') (info : Token) (size : Nat) :
    MasksEnd mark loud Eq (w.openBlock info size) (w'.openBlock info size) := by
  obtain ⟨same, placed⟩ := masks.place [] size
  simp only [World.openBlock, same]
  exact (placed.withStore (placed.store.change
    (fun s => { s with blocks := (w.place [] size).1 :: s.blocks }) (fun _ _ => rfl)
    fun _ => rfl)).openHandle _ _ _

/-- Giving back the newest temporary that is a claim, if there is one. -/
theorem Masks.letGo (masks : w.Masks mark loud w') (c : Claim) (held : Bool) :
    MasksEnd mark loud Eq
      (if held then (w.withStore (w.store.dropHeld c)).release [c] else (.done (), w))
      (if held then (w'.withStore (w'.store.dropHeld c)).release [c] else (.done (), w')) := by
  cases held with
  | true =>
    exact masks.release (masks.store.change (·.dropHeld c) (fun _ _ => rfl) fun _ => rfl) [c]
  | false => exact masks.done

theorem Masks.takeDirect (masks : w.Masks mark loud w') (a : Address) :
    MasksEnd mark loud Eq (w.takeDirect a) (w'.takeDirect a) :=
  masks.withInstance fun _ _ => ((masks.setInstance a _).balance (·.take a)).done

/-- Replacing the value of a name, and giving back what it was. -/
theorem Masks.rebind (masks : w.Masks mark loud w') (v : Value) (f : Store → Store)
    (unseen : ∀ s ledger, f { s with ledger := ledger } = { f s with ledger := ledger })
    (kept : ∀ s, (f s).ledger = s.ledger) (old : List Claim) :
    MasksEnd mark loud Eq
      ((w.withStore (f (w.store.claimAll v.claims))).release old)
      ((w'.withStore (f (w'.store.claimAll v.claims))).release old) :=
  masks.release ((masks.store.claimAll v.claims).change f unseen kept) old

theorem Masks.bind (masks : w.Masks mark loud w') (name : String) (v : Value) :
    MasksEnd mark loud Eq (w.bind name v) (w'.bind name v) := by
  simp only [World.bind, masks.bindings]
  exact masks.rebind v (fun s => { s with bindings := forget name s.bindings ++ [(name, v)] })
    (fun _ _ => rfl) (fun _ => rfl) _

theorem Masks.storeGlobal (masks : w.Masks mark loud w') (name : String) (v : Value) :
    MasksEnd mark loud Eq (w.storeGlobal name v) (w'.storeGlobal name v) := by
  simp only [World.storeGlobal, masks.globals]
  exact masks.rebind v (fun s => { s with globals := assign name v s.globals }) (fun _ _ => rfl)
    (fun _ => rfl) _

theorem Masks.unbind (masks : w.Masks mark loud w') (name : String) :
    MasksEnd mark loud Eq (w.unbind name) (w'.unbind name) := by
  have alike := masks.store.change
    (fun s => { s with bindings := forget name s.bindings }) (fun _ _ => rfl) fun _ => rfl
  simp only [World.unbind, masks.bindings] at alike ⊢
  exact (masks.release alike _).map _

theorem Masks.dropGlobal (masks : w.Masks mark loud w') (name : String) :
    MasksEnd mark loud Eq (w.dropGlobal name) (w'.dropGlobal name) := by
  have alike := masks.store.change
    (fun s => { s with globals := forget name s.globals }) (fun _ _ => rfl) fun _ => rfl
  simp only [World.dropGlobal, masks.globals] at alike ⊢
  exact (masks.release alike _).map _

/-- Tracing names leaves the store alike. -/
theorem alike_trace (entries : List Token) (w : World) :
    ∃ s, w.store.Alike s ∧ entries.foldl traceName w = w.withStore s := by
  induction entries generalizing w with
  | nil => exact ⟨w.store, .refl _, rfl⟩
  | cons t rest ih =>
    obtain ⟨ledger, traced, same, sum⟩ := w.traceName_ledger t
    obtain ⟨s, alike, later⟩ := ih (w.traceName t)
    rw [List.foldl_cons, later]
    rw [traced] at alike ⊢
    exact ⟨s, .trans ⟨rfl, same, sum⟩ alike, rfl⟩

/-- Whether names are traced cannot be seen. -/
theorem Masks.trace (masks : w.Masks mark loud w') (entries : List Token) :
    Masks mark loud (if w.tracing then entries.foldl traceName w else w)
      (if w'.tracing then entries.foldl traceName w' else w') := by
  have traced (v : World) :
      ∃ s, v.store.Alike s
        ∧ (if v.tracing then entries.foldl traceName v else v) = v.withStore s := by
    split
    · exact alike_trace entries v
    · exact ⟨v.store, .refl _, rfl⟩
  obtain ⟨s, alike, after⟩ := traced w
  obtain ⟨s', alike', after'⟩ := traced w'
  rw [after, after']
  exact masks.withStore (alike.symm.trans (masks.store.trans alike'))

variable {calls calls' : Calls} {inside : Request → World → List FatalSignal}

/-- The machine answers a blind request alike. -/
theorem Masks.answer (masks : w.Masks mark loud w') (mask : calls.Mask mark loud calls' inside)
    {r : Request} (blind : r.blind = true) (calm : Calm loud (r.raises inside w')) :
    MasksEnd mark loud r.Alike (w.answer calls r) (w'.answer calls' r) := by
  cases r with
  | entry t =>
    simp only [World.answer, masks.database]
    split
    · exact ⟨.done rfl, masks⟩
    · exact ⟨.stopped _, masks⟩
  | database => exact ⟨.done masks.database.symm, masks⟩
  | memory => exact ⟨.done masks.memory.symm, masks⟩
  | store => exact ⟨.done masks.store, masks⟩
  | liveInstance a => exact masks.withInstance fun i _ => masks.done
  | bench =>
    refine ⟨.done ?_, masks⟩
    rw [masks.bench]
    exact ⟨rfl, rfl⟩
  | required => exact ⟨.done masks.required.symm, masks⟩
  | mark => exact ⟨.done (congrArg List.length masks.held.symm), masks⟩
  | hold c => exact (masks.withStore (masks.store.hold c)).done
  | letGo c =>
    simp only [World.answer, masks.held]
    exact masks.letGo c _
  | settle before kept => exact masks.settle before kept
  | openHandle info attachment keeper => exact masks.openHandle info attachment keeper
  | openBlock info size => exact masks.openBlock info size
  | place cells size =>
    obtain ⟨same, placed⟩ := masks.place cells size
    exact ⟨.done same.symm, placed⟩
  | write a cells =>
    simp only [World.answer, masks.memory]
    exact (masks.withMemory _).done
  | create number floating =>
    obtain ⟨same, created⟩ := masks.createHeld number floating
    exact ⟨.done same.symm, created⟩
  | sink a => exact masks.withInstance fun i _ => (masks.setInstance a _).done
  | storeProperty a name slot => exact masks.withInstance fun i _ => (masks.setInstance a _).done
  | attach a signal reaction =>
    refine masks.withInstance fun i _ => ?_
    obtain ⟨id, alike⟩ := masks.store.addConnection a i signal reaction
    exact ⟨.done id.symm, masks.withStore alike⟩
  | invoke callable inputs outputs => exact mask.invoke callable inputs outputs masks calm
  | callHost target arguments => exact mask.callHost target arguments masks calm
  | note event => exact ⟨.done rfl, { masks with events := .cons (.same event) masks.events }⟩
  | assignGlobal name v => exact mask.assignGlobal name v masks calm
  | storeGlobal name v => exact masks.storeGlobal name v
  | dropGlobal name => exact masks.dropGlobal name
  | bind name v => exact masks.bind name v
  | unbind name => exact masks.unbind name
  | trace entries => exact (masks.trace entries).done
  | createDirect number =>
    obtain ⟨same, created⟩ := masks.createDirect number
    exact ⟨.done same.symm, created⟩
  | takeDirect a => exact masks.takeDirect a
  | giveBackDirect a =>
    exact masks.withInstance fun i _ =>
      (masks.balance (·.giveBack a)).release (masks.balance (·.giveBack a)).store [.reference a]
  | sinkDirect a =>
    refine masks.withInstance fun i _ => ?_
    split
    · exact (masks.setInstance a _).done
    · exact masks.takeDirect a
  | takeEntry t =>
    exact (masks.withStore ((masks.store.claim (.entry t)).change
      (fun s => { s with entryBalance := s.entryBalance.take t }) (fun _ _ => rfl)
      fun _ => rfl)).done
  | giveBackEntry t =>
    exact (masks.withStore ((masks.store.pay (.entry t)).2.change
      (fun s => { s with entryBalance := s.entryBalance.giveBack t }) (fun _ _ => rfl)
      fun _ => rfl)).done
  | setDatabase db => exact ⟨.done rfl, { masks with database := rfl }⟩
  | recordRequired name version =>
    refine ⟨.done rfl, { masks with required := ?_ }⟩
    exact congrArg (assign name version) masks.required
  | identify id t =>
    refine ⟨.done rfl, { masks with bench := ?_ }⟩
    simp only [World.answer, masks.bench]
    rfl
  | label name a =>
    refine ⟨.done rfl, { masks with bench := ?_ }⟩
    simp only [World.answer, masks.bench]
    rfl
  | stop why => exact ⟨.stopped why, masks⟩
  | options | perform _ | raise _ | setTracing _ | tracing | implement _ _ | define _ _ =>
    simp [Request.blind] at blind

end World

/-- A program masks another one if its runs do, also inside functions and nested steps, as long as
no signal is raised that may not be. -/
def Program.Masks {α : Type} (mark : Failure) (loud : Bool) (p p' : Program α) : Prop :=
  ∀ ⦃calls calls' : Calls⦄ ⦃inside : Request → World → List FatalSignal⦄ ⦃w w' : World⦄,
    calls.Mask mark loud calls' inside → w.Masks mark loud w' →
      Calm loud (p'.raised calls' inside w') →
      World.MasksEnd mark loud Eq (p.run calls w) (p'.run calls' w')

namespace Program

variable {α β γ δ : Type} {mark : Failure} {loud : Bool}

theorem raised_bind (calls : Calls) (inside : Request → World → List FatalSignal) (p : Program α)
    (f : α → Program β) (w : World) :
    (p >>= f).raised calls inside w
      = p.raised calls inside w
        ++ match p.run calls w with
           | (.done x, w) => (f x).raised calls inside w
           | (.stopped _, _) => [] := by
  induction p generalizing w with
  | done x => rfl
  | ask request next ih =>
    change (Program.ask request fun reply => next reply >>= f).raised calls inside w = _
    simp only [raised, run, List.append_assoc]
    cases w.answer calls request with
    | mk outcome w' =>
      cases outcome with
      | done reply => simp only [ih reply w']
      | stopped why => rfl

theorem masks_pure {x : α} : Masks mark loud (pure x : Program α) (pure x) :=
  fun _ _ _ _ _ _ masks _ => masks.done

theorem Masks.bind {p p' : Program α} {f f' : α → Program β} (first : p.Masks mark loud p')
    (rest : ∀ x, (f x).Masks mark loud (f' x)) : (p >>= f).Masks mark loud (p' >>= f') := by
  intro calls calls' inside w w' mask masks calm
  rw [raised_bind, calm_append] at calm
  have ran := first mask masks calm.1
  have later := calm.2
  rw [run_bind, run_bind]
  revert ran later
  cases p.run calls w with
  | mk outcome v =>
    cases p'.run calls' w' with
    | mk outcome' v' =>
      rintro ⟨related, world⟩ later
      cases related with
      | done same =>
        subst same
        exact rest _ mask world later
      | stopped why => exact ⟨.stopped why, world⟩

/-- A blind program masks itself. -/
theorem Blind.masks {p : Program α} (blind : p.Blind) : p.Masks mark loud p := by
  intro calls calls' inside w w' mask masks calm
  induction p generalizing w w' with
  | done x => exact masks.done
  | ask request next ih =>
    obtain ⟨plain, same, later⟩ := blind
    rw [raised, calm_append] at calm
    have answered := masks.answer mask plain calm.1
    have after := calm.2
    simp only [run]
    revert answered after
    cases w.answer calls request with
    | mk outcome v =>
      cases w'.answer calls' request with
      | mk outcome' v' =>
        rintro ⟨related, world⟩ after
        cases related with
        | @done x x' alike =>
          simp only [same x x' alike] at after ⊢
          exact ih x (later x) world after
        | stopped why => exact ⟨.stopped why, world⟩

/-- The signals of a program of one request. -/
theorem calm_request {calls : Calls} {inside : Request → World → List FatalSignal} {r : Request}
    {w : World} (calm : Calm loud ((request r).raised calls inside w)) :
    Calm loud (r.raises inside w) := by
  rw [request, raised, calm_append] at calm
  exact calm.1

/-- Programs of one request. -/
theorem masks_request {r : Request}
    (answered : ∀ ⦃calls calls' : Calls⦄ ⦃inside : Request → World → List FatalSignal⦄
      ⦃w w' : World⦄, calls.Mask mark loud calls' inside → w.Masks mark loud w' →
      Calm loud (r.raises inside w') →
      World.MasksEnd mark loud Eq (w.answer calls r) (w'.answer calls' r)) :
    (request r).Masks mark loud (request r) := by
  intro calls calls' inside w w' mask masks calm
  rw [run_request, run_request]
  exact answered mask masks (calm_request calm)

theorem masks_forEach {f f' : γ → Program Unit} {items : List γ}
    (masks : ∀ x, (f x).Masks mark loud (f' x)) :
    (forEach f items).Masks mark loud (forEach f' items) := by
  induction items with
  | nil => exact masks_pure
  | cons x rest ih => exact (masks x).bind fun _ => ih

end Program
end ObjectBridge
