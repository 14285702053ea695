import ObjectBridge.Proofs.Lasting
import ObjectBridge.Proofs.Reordering

/-!
# Scenes

A scene of a session is a world that the session passes through.  There is one after each answer to
a request of each program, nested programs included; and while claims are given back there is one
after each of them, so what ends with a thing ends in scenes of its own.  The boundaries of the
steps are scenes too.

From one scene to the next one of three things happens to the instances: none is made and none
ends, or one is made in storage that was never reserved before, or one ends because its last
reference is given back.
-/

namespace ObjectBridge

namespace Store

/-- The stores that giving claims back passes through, one for each claim. -/
def paying (claims : List Claim) (s : Store) : List Store :=
  match claims with
  | [] => []
  | c :: rest => (s.pay c).2 :: paying ((s.pay c).1 ++ rest) (s.pay c).2
  termination_by claims.length + s.weight
  decreasing_by
    have less := weight_pay c s
    simp only [List.length_append, List.length_cons]
    omega

end Store

/-- What a request gives back, and the store that it gives it back from. -/
def Request.spending (w : World) : Request → Option (List Claim × Store)
  | .letGo c =>
    if w.store.held.contains c then some ([c], w.store.dropHeld c) else none
  | .settle before kept =>
    let newer := w.store.held.take (w.store.held.length - before)
    let older := w.store.held.drop (w.store.held.length - before)
    let (staying, leaving) := Store.part newer kept
    some (leaving, { w.store with held := staying ++ older })
  | .bind name v =>
    let store := w.store.claimAll v.claims
    some (claimsOf name w.store.bindings,
      { store with bindings := forget name store.bindings ++ [(name, v)] })
  | .unbind name =>
    some (claimsOf name w.store.bindings,
      { w.store with bindings := forget name w.store.bindings })
  | .storeGlobal name v =>
    let store := w.store.claimAll v.claims
    some (claimsOf name w.store.globals, { store with globals := assign name v store.globals })
  | .dropGlobal name =>
    some (claimsOf name w.store.globals, { w.store with globals := forget name w.store.globals })
  | .giveBackDirect a =>
    if w.store.isLive a then some ([.reference a], (w.balance (·.giveBack a)).store) else none
  | _ => none

/-- The scenes of the answer to a request: those inside it, those of what it gives back, and the
one after it. -/
def Request.scenes (stage : Stage) (w : World) (r : Request) : List World :=
  r.seen stage w
    ++ (match r.spending w with
        | some (claims, s) => (s :: s.paying claims).map w.withStore
        | none => [])
    ++ [(w.answer stage.calls r).2]

/-- The scenes of a run of a program. -/
def Program.scenes {α : Type} (stage : Stage) : Program α → World → List World
  | .done _, _ => []
  | .ask request next, w =>
    request.scenes stage w
      ++ match w.answer stage.calls request with
         | (.done reply, w) => (next reply).scenes stage w
         | (.stopped _, _) => []

namespace Session

/-- The scenes of a step, also of one that panics: its temporaries are given back in the end. -/
def passing (stage : Stage) (step : Script.Step) (w : World) : List World :=
  w :: (respond step).run.scenes stage w
    ++ (Request.settle w.store.held.length []).scenes stage
        ((respond step).run.run stage.calls w).2

/-- What runs the functions and the nested steps of a session to a depth, with the scenes. -/
def course : Nat → Stage
  | 0 =>
    { calls := calls 0
      native := fun _ _ _ w => [w]
      host := fun _ _ _ => []
      assign := fun _ _ _ => []
      step := fun _ _ => [] }
  | depth + 1 =>
    { calls := calls (depth + 1)
      native := fun callable inputs outputs w =>
        w :: (callNative callable inputs outputs).scenes (course depth) w
      host := fun target arguments => (callHost target arguments).scenes (course depth)
      assign := fun name v => (assignGlobal name v).scenes (course depth)
      step := passing (course depth) }

/-- The scenes of some steps, one after the other. -/
def passingAll (depth : Nat) : List Script.Step → World → List World
  | [], _ => []
  | step :: rest, w =>
    passing (course depth) step { w with events := [] }
      ++ passingAll depth rest (advance depth step w).2

/-- The scenes of dropping things by their names, one after the other. -/
def dropping (drop : String → Request) : List String → World → List World
  | [], _ => []
  | name :: rest, w =>
    (drop name).scenes (course 0) w ++ dropping drop rest (w.answer (calls 0) (drop name)).2

/-- The scenes of a session, from its start until all variables and globals were dropped. -/
def scenes (options : Options) (depth : Nat) (steps : List Script.Step) : List World :=
  let w := (advanceAll depth steps (start options)).2
  let v := (dropVariables w).2
  start options :: passingAll depth steps (start options)
    ++ dropping .unbind (w.store.bindings.map fun binding => binding.1) w
    ++ dropping .dropGlobal
        ((v.store.globals.map fun binding => binding.1).mergeSort fun a b => a ≤ b) v

@[simp]
theorem course_calls (depth : Nat) : (course depth).calls = calls depth := by
  cases depth <;> rfl

end Session

namespace Store

variable {s s₁ s₂ s' : Store}

/-- Every live instance has a reference. -/
def Referenced (s : Store) : Prop := ∀ a i, s.instances.get? a = some i → 0 < i.references

/-- The same instances are live in two stores, and as many were made and ended. -/
structure Kept (s s' : Store) : Prop where
  /-- The same instances are live. -/
  live : ∀ a, s'.isLive a = s.isLive a
  /-- As many are live. -/
  size : s'.live = s.live
  /-- They have references as before. -/
  referenced : s.Referenced → s'.Referenced
  /-- As many were made. -/
  created : s'.created = s.created
  /-- As many ended. -/
  finalized : s'.finalized = s.finalized

/-- Only the instances and their numbers matter. -/
theorem kept_of_eq (instances : s'.instances = s.instances) (created : s'.created = s.created)
    (finalized : s'.finalized = s.finalized) : s.Kept s' := by
  refine ⟨fun a => ?_, ?_, fun before => ?_, created, finalized⟩
  · rw [isLive, isLive, instances]
  · rw [Store.live, Store.live, instances]
  · rw [Referenced, instances]
    exact before

theorem Kept.refl (s : Store) : s.Kept s := kept_of_eq rfl rfl rfl

theorem Kept.trans (first : s.Kept s₁) (second : s₁.Kept s₂) : s.Kept s₂ where
  live a := (second.live a).trans (first.live a)
  size := second.size.trans first.size
  referenced before := second.referenced (first.referenced before)
  created := second.created.trans first.created
  finalized := second.finalized.trans first.finalized

/-- Changing an instance that keeps a reference. -/
theorem kept_setInstance {a : Address} {i : Instance}
    (referenced : s.Referenced → 0 < i.references) : s.Kept (s.setInstance a i) where
  live b := Table.contains_set s.instances a b i
  size := Table.size_set s.instances a i
  referenced before b j found := by
    rcases Table.get?_of_set found with ⟨_, rfl⟩ | old
    · exact referenced before
    · exact before b j old
  created := rfl
  finalized := rfl

theorem kept_claim (c : Claim) (s : Store) : s.Kept (s.claim c) := by
  cases c with
  | entry t | block a => exact kept_of_eq rfl rfl rfl
  | handle h | closure c =>
    simp only [claim]
    split <;> exact kept_of_eq rfl rfl rfl
  | reference a =>
    simp only [claim]
    split
    · exact kept_setInstance fun _ => Nat.succ_pos _
    · exact .refl s

theorem kept_claimAll (claims : List Claim) (s : Store) : s.Kept (s.claimAll claims) := by
  induction claims generalizing s with
  | nil => exact .refl s
  | cons c rest ih => exact (kept_claim c s).trans (ih (s.claim c))

theorem kept_addHandle (r : HandleRecord) (s : Store) : s.Kept (s.addHandle r).2 :=
  (kept_claimAll r.claims s).trans (kept_of_eq rfl rfl rfl)

theorem kept_addConnection {a : Address} {i : Instance} (live : s.instances.get? a = some i)
    (signal : String) (reaction : Reaction) : s.Kept (s.addConnection a i signal reaction).2 := by
  let connection : Connection := ⟨s.nextConnection, signal, s.nextClosure⟩
  let i' : Instance := { i with connections := i.connections ++ [connection] }
  have claimed := kept_claimAll reaction.claims s
  have added : s.Kept ((s.claimAll reaction.claims).setInstance a i') := by
    refine ⟨fun b => ?_, ?_, fun before b j found => ?_, claimed.created, claimed.finalized⟩
    · exact (Table.contains_set _ a b i').trans (claimed.live b)
    · exact (Table.size_set _ a i').trans claimed.size
    · rcases Table.get?_of_set found with ⟨_, rfl⟩ | old
      · exact before a i live
      · exact claimed.referenced before b j old
  exact added.trans (kept_of_eq rfl rfl rfl)

end Store

/-- A change that makes no instance and ends none. -/
structure World.Still (w w' : World) : Prop where
  /-- No storage is reserved again. -/
  next : w.memory.next ≤ w'.memory.next
  /-- The same instances are live. -/
  store : w.store.Kept w'.store

/-- What happens to the instances from one scene to the next. -/
inductive World.Turn (w w' : World) : Prop where
  /-- No instance is made and none ends. -/
  | still (still : w.Still w')
  /-- An instance is made in new storage, with one reference. -/
  | made (a : Address) (i : Instance) (fresh : w.memory.next ≤ a) (reserved : a < w'.memory.next)
      (referenced : i.references = 1) (added : w'.store.instances = w.store.instances.insert a i)
      (created : w'.store.created = w.store.created + 1)
      (finalized : w'.store.finalized = w.store.finalized)
  /-- The last reference to an instance is given back. -/
  | ended (a : Address) (i : Instance) (live : w.store.instances.get? a = some i)
      (last : i.references ≤ 1) (paid : w' = w.withStore (w.store.pay (.reference a)).2)

/-- What happens from one world on, from scene to scene, until another one. -/
def World.Path (w : World) : List World → World → Prop
  | [], w' => w' = w
  | x :: rest, w' => w.Turn x ∧ x.Path rest w'

namespace World

variable {w w₁ w₂ w' : World} {xs ys : List World}

theorem Still.trans (first : w.Still w₁) (second : w₁.Still w₂) : w.Still w₂ :=
  ⟨Nat.le_trans first.next second.next, first.store.trans second.store⟩

theorem still_withStore {s : Store} (kept : w.store.Kept s) : w.Still (w.withStore s) :=
  ⟨Nat.le_refl _, kept⟩

theorem still_of_store_eq (store : w'.store = w.store) (next : w.memory.next ≤ w'.memory.next) :
    w.Still w' :=
  ⟨next, store ▸ .refl _⟩

theorem Still.refl (w : World) : w.Still w := still_of_store_eq rfl (Nat.le_refl _)

/-- A change of the store that does not touch the instances. -/
theorem still_withStore_of_eq {s : Store} (instances : s.instances = w.store.instances)
    (created : s.created = w.store.created) (finalized : s.finalized = w.store.finalized) :
    w.Still (w.withStore s) :=
  still_withStore (Store.kept_of_eq instances created finalized)

theorem Turn.refl (w : World) : w.Turn w := .still (.refl w)

theorem Path.single (turn : w.Turn w') : w.Path [w'] w' := ⟨turn, rfl⟩

theorem Path.append (first : w.Path xs w₁) (second : w₁.Path ys w₂) : w.Path (xs ++ ys) w₂ := by
  induction xs generalizing w with
  | nil =>
    cases first
    exact second
  | cons x rest ih => exact ⟨first.1, ih first.2⟩

/-- One claim is given back. -/
theorem turn_pay (w : World) (c : Claim) : w.Turn (w.withStore (w.store.pay c).2) := by
  cases c with
  | entry t | block a => exact .still (still_withStore_of_eq rfl rfl rfl)
  | handle h | closure c => exact .still (still_withStore_of_eq rfl rfl rfl)
  | reference a =>
    cases found : w.store.instances.get? a with
    | none =>
      refine .still (still_withStore ?_)
      simp only [Store.pay, Table.countDown, found]
      exact .refl _
    | some i =>
      by_cases last : i.references ≤ 1
      · exact .ended a i found last rfl
      · refine .still (still_withStore ?_)
        simp only [Store.pay, Table.countDown, found, if_neg last]
        exact Store.kept_setInstance fun _ => Nat.sub_pos_of_lt (Nat.lt_of_not_le last)

/-- The scenes of giving claims back. -/
theorem path_paying (claims : List Claim) (s : Store) :
    (w.withStore s).Path ((s.paying claims).map w.withStore)
      (w.withStore (s.release claims).2) := by
  induction claims, s using Store.release_induction with
  | nil s => rw [Store.paying, Store.release, List.map_nil, Path]
  | cons c rest s ih =>
    rw [Store.paying, Store.release_cons, List.map_cons]
    exact ⟨turn_pay (w.withStore s) c, ih⟩

end World

theorem World.withInstance_gone {α : Type} {w : World} {a : Address} {f : Instance → Outcome α × World}
    (absent : w.store.instances.get? a = none) :
    w.withInstance a f = (.stopped (.notLive a), w) := by
  rw [withInstance, absent]

/-- The address of the instance that a request needs to be live. -/
def Request.subject? : Request → Option Address
  | .liveInstance a | .sink a | .storeProperty a _ _ | .attach a _ _ | .takeDirect a
  | .giveBackDirect a | .sinkDirect a | .openHandle _ (some ⟨a, .retained⟩) _ => some a
  | _ => none

/-- A request that needs an instance which is not live panics, and changes nothing. -/
theorem World.answer_not_live (calls : Calls) {w : World} {r : Request} {a : Address}
    (subject : r.subject? = some a) (gone : w.store.isLive a = false) :
    w.answer calls r = (.stopped (.notLive a), w) := by
  have absent : w.store.instances.get? a = none := Option.not_isSome_iff_eq_none.mp (by
    rw [Store.isLive, Table.contains] at gone
    exact ne_true_of_eq_false gone)
  cases r with
  | openHandle info attachment keeper =>
    cases attachment with
    | none => cases subject
    | some attachment =>
      obtain ⟨b, ownership⟩ := attachment
      cases ownership with
      | retained =>
        cases subject
        simp only [answer, openHandle, gone]
        rfl
      | borrowed | block => cases subject
  | liveInstance b | sink b | storeProperty b name slot | attach b signal reaction | takeDirect b
  | giveBackDirect b | sinkDirect b =>
    cases subject
    exact withInstance_gone absent
  | _ => cases subject

/-- What a request spends is given back by its answer, and nothing before that makes or ends an
instance. -/
theorem Request.spending_spec (calls : Calls) {w : World} {r : Request} {claims : List Claim}
    {s : Store} (spends : r.spending w = some (claims, s)) :
    (w.answer calls r).2 = ((w.withStore s).release claims).2 ∧ w.store.Kept s := by
  have same {s' : Store} (held : s'.instances = w.store.instances)
      (created : s'.created = w.store.created) (finalized : s'.finalized = w.store.finalized) :
      w.store.Kept s' :=
    Store.kept_of_eq held created finalized
  cases r with
  | letGo c =>
    simp only [spending] at spends
    split at spends
    · next held =>
      cases spends
      exact ⟨congrArg Prod.snd (if_pos held), same rfl rfl rfl⟩
    · contradiction
  | giveBackDirect a =>
    simp only [spending] at spends
    split at spends
    · next live =>
      cases spends
      obtain ⟨i, found⟩ := Option.isSome_iff_exists.mp live
      refine ⟨?_, same rfl rfl rfl⟩
      simp only [World.answer, World.giveBackDirect, World.withInstance, found]
      rfl
    · contradiction
  | settle before kept | unbind name | dropGlobal name =>
    cases spends
    exact ⟨rfl, same rfl rfl rfl⟩
  | bind name v | storeGlobal name v =>
    cases spends
    exact ⟨rfl, (Store.kept_claimAll v.claims w.store).trans (Store.kept_of_eq rfl rfl rfl)⟩
  | _ => cases spends

/-- Functions and nested steps whose scenes lead from turn to turn to their ends. -/
structure Stage.Traced (stage : Stage) : Prop where
  /-- Native functions; their first scene is the one in which they start. -/
  native : ∀ callable inputs outputs (w : World), ∃ rest,
    stage.native callable inputs outputs w = w :: rest
      ∧ w.Path rest (stage.calls.native callable inputs outputs w).2
  /-- Host functions. -/
  host : ∀ target arguments (w : World),
    w.Path (stage.host target arguments w) (stage.calls.host target arguments w).2
  /-- Setting a global. -/
  assign : ∀ name v (w : World), w.Path (stage.assign name v w) (stage.calls.assign name v w).2
  /-- Nested steps. -/
  step : ∀ s (w : World), ∃ w', w.Path (stage.step s w) w' ∧ w'.Turn (stage.calls.step s w).2

namespace World

variable {w w' : World}

theorem still_place (w : World) (cells : List Cell) (size : Nat) : w.Still (w.place cells size).2 :=
  still_of_store_eq rfl (Nat.le_of_lt (w.place_lt cells size).2)

theorem still_openHandle (w : World) (info : Option Token) (attachment : Option Attachment)
    (keeper : Option HandleId) : w.Still (w.openHandle info attachment keeper).2 := by
  unfold openHandle
  dsimp only
  split
  · split
    · exact still_withStore (Store.kept_addHandle _ _)
    · exact .refl w
  · exact still_withStore (Store.kept_addHandle _ _)

theorem still_withInstance {α : Type} {a : Address} {f : Instance → Outcome α × World}
    (still : ∀ i, w.store.instances.get? a = some i → w.Still (f i).2) :
    w.Still (w.withInstance a f).2 := by
  unfold withInstance
  split
  · next i live => exact still i live
  · exact .refl w

theorem still_setInstance {a : Address} {i i' : Instance}
    (live : w.store.instances.get? a = some i) (more : i.references ≤ i'.references) :
    w.Still (w.setInstance a i') :=
  still_withStore (Store.kept_setInstance fun before =>
    Nat.lt_of_lt_of_le (before a i live) more)

theorem still_takeDirect (w : World) (a : Address) : w.Still (w.takeDirect a).2 :=
  still_withInstance fun i live =>
    have counted : w.Still (w.setInstance a { i with references := i.references + 1 }) :=
      still_setInstance live (Nat.le_succ _)
    counted.trans (still_withStore_of_eq rfl rfl rfl)

theorem still_trace (entries : List Token) (w : World) : w.Still (entries.foldl traceName w) := by
  induction entries generalizing w with
  | nil => exact .refl w
  | cons t rest ih =>
    have first : w.Still (w.traceName t) := still_withStore_of_eq rfl rfl rfl
    exact first.trans (ih (w.traceName t))

theorem still_entering (w : World) : w.Still w.entering := by
  unfold entering
  split
  · exact still_of_store_eq rfl (Nat.le_refl _)
  · exact .refl w

/-- After a native function nothing changes but the containment. -/
theorem still_invoke (w : World) (call : Action (Except String Slot × List Slot)) :
    (call w.entering).2.Still (w.invoke call).2 := by
  unfold entering invoke
  split
  · exact still_of_store_eq rfl (Nat.le_refl _)
  · exact .refl _

/-- A new instance stands in storage that was reserved for it. -/
theorem turn_create (w : World) (number : TypeNumber) (floating : Bool) {s : Store}
    (instances : s.instances = (w.create number floating).2.store.instances)
    (created : s.created = (w.create number floating).2.store.created)
    (finalized : s.finalized = (w.create number floating).2.store.finalized) :
    w.Turn ((w.create number floating).2.withStore s) :=
  .made w.memory.next { number := number, floating := floating } (Nat.le_refl _)
    (w.place_lt [] instanceStorage).2 rfl instances created finalized

variable {stage : Stage}

section Answers

variable {r : Request}

/-- An answer that gives claims back pays them one after the other. -/
theorem path_spent {claims : List Claim} {s : Store} (seen : r.seen stage w = [])
    (spends : r.spending w = some (claims, s)) :
    w.Path (r.scenes stage w) (w.answer stage.calls r).2 := by
  obtain ⟨answered, kept⟩ := r.spending_spec stage.calls spends
  have given : w.Path ((s :: s.paying claims).map w.withStore) ((w.withStore s).release claims).2 :=
    ⟨.still (still_withStore kept), path_paying claims s⟩
  rw [Request.scenes, seen, spends, answered]
  exact given.append (.single (.refl _))

/-- An answer that gives nothing back shows what others do, and takes one turn of its own. -/
theorem path_nested {w' : World} (spends : r.spending w = none) (inside : w.Path (r.seen stage w) w')
    (turn : w'.Turn (w.answer stage.calls r).2) :
    w.Path (r.scenes stage w) (w.answer stage.calls r).2 := by
  rw [Request.scenes, spends, List.append_nil]
  exact inside.append (.single turn)

theorem path_plain (seen : r.seen stage w = []) (spends : r.spending w = none)
    (turn : w.Turn (w.answer stage.calls r).2) :
    w.Path (r.scenes stage w) (w.answer stage.calls r).2 :=
  path_nested spends (seen ▸ rfl) turn

theorem path_still (seen : r.seen stage w = []) (spends : r.spending w = none)
    (still : w.Still (w.answer stage.calls r).2) :
    w.Path (r.scenes stage w) (w.answer stage.calls r).2 :=
  path_plain seen spends (.still still)

end Answers

/-- The scenes of the answer to a request lead from turn to turn to the world after it. -/
theorem path_answer (traced : stage.Traced) (w : World) (r : Request) :
    w.Path (r.scenes stage w) (w.answer stage.calls r).2 := by
  cases r with
  | invoke callable inputs outputs =>
    obtain ⟨rest, started, inside⟩ := traced.native callable inputs outputs w.entering
    have path : w.Path (stage.native callable inputs outputs w.entering)
        (stage.calls.native callable inputs outputs w.entering).2 := by
      rw [started]
      exact ⟨Turn.still w.still_entering, inside⟩
    exact path_nested rfl path (.still (w.still_invoke _))
  | callHost target arguments => exact path_nested rfl (traced.host target arguments w) (.refl _)
  | perform step =>
    obtain ⟨w', path, turn⟩ := traced.step step w
    exact path_nested rfl path turn
  | assignGlobal name v => exact path_nested rfl (traced.assign name v w) (.refl _)
  | settle before kept | unbind name | dropGlobal name | bind name v | storeGlobal name v =>
    exact path_spent rfl rfl
  | letGo c =>
    by_cases held : w.store.held.contains c = true
    · exact path_spent rfl (if_pos held)
    · have answered : w.answer stage.calls (.letGo c) = (.done (), w) := if_neg held
      refine path_plain rfl (if_neg held) ?_
      rw [answered]
      exact .refl w
  | giveBackDirect a =>
    by_cases live : w.store.isLive a = true
    · exact path_spent rfl (if_pos live)
    · refine path_plain rfl (if_neg live) ?_
      rw [answer_not_live stage.calls rfl (eq_false_of_ne_true live)]
      exact .refl w
  | entry t | raise signal =>
    refine path_still rfl rfl ?_
    simp only [answer]
    split
    · first | exact .refl w | exact still_of_store_eq rfl (Nat.le_refl _)
    · exact .refl w
  | liveInstance a => exact path_still rfl rfl (still_withInstance fun _ _ => .refl w)
  | hold c =>
    have claimed : w.Still (w.withStore (w.store.claim c)) :=
      still_withStore (Store.kept_claim c w.store)
    exact path_still rfl rfl (claimed.trans (still_withStore_of_eq rfl rfl rfl))
  | openHandle info attachment keeper =>
    exact path_still rfl rfl (w.still_openHandle info attachment keeper)
  | openBlock info size =>
    let placed := (w.place [] size).2
    have blocked : placed.Still (placed.withStore
        { placed.store with blocks := (w.place [] size).1 :: placed.store.blocks }) :=
      still_withStore_of_eq rfl rfl rfl
    exact path_still rfl rfl ((w.still_place [] size).trans (blocked.trans (still_openHandle _ _ _ _)))
  | place cells size => exact path_still rfl rfl (w.still_place cells size)
  | create number floating => exact path_plain rfl rfl (w.turn_create number floating rfl rfl rfl)
  | createDirect number => exact path_plain rfl rfl (w.turn_create number false rfl rfl rfl)
  | sink a | storeProperty a name slot =>
    exact path_still rfl rfl (still_withInstance fun i live => still_setInstance live (Nat.le_refl _))
  | attach a signal reaction =>
    exact path_still rfl rfl (still_withInstance fun i live =>
      still_withStore (Store.kept_addConnection live signal reaction))
  | trace entries =>
    refine path_still rfl rfl ?_
    simp only [answer]
    split
    · exact still_trace entries w
    · exact .refl w
  | takeDirect a => exact path_still rfl rfl (w.still_takeDirect a)
  | sinkDirect a =>
    refine path_still rfl rfl (still_withInstance fun i live => ?_)
    split
    · exact still_setInstance live (Nat.le_refl _)
    · exact w.still_takeDirect a
  | takeEntry t | giveBackEntry t => exact path_still rfl rfl (still_withStore_of_eq rfl rfl rfl)
  | _ => exact path_still rfl rfl (still_of_store_eq rfl (Nat.le_refl _))

end World

namespace Program

/-- The scenes of a program lead from turn to turn to its end. -/
theorem path_run {α : Type} {stage : Stage} (traced : stage.Traced) (p : Program α) (w : World) :
    w.Path (p.scenes stage w) (p.run stage.calls w).2 := by
  induction p generalizing w with
  | done x => rfl
  | ask request next ih =>
    have first := w.path_answer traced request
    simp only [scenes, run]
    revert first
    cases w.answer stage.calls request with
    | mk outcome w' =>
      cases outcome with
      | done reply => exact fun first => first.append (ih reply w')
      | stopped why => exact fun first => first.append rfl

end Program

namespace Session

/-- The world after a step is the one in which its temporaries were given back. -/
theorem judge_settled (calls : Calls) (step : Script.Step) (w : World) :
    (judge calls step w).2
      = (((respond step).run.run calls w).2.settle w.store.held.length []).2 := by
  simp only [judge]
  split <;>
    next result => rw [result]

theorem path_passing {stage : Stage} (traced : stage.Traced) (step : Script.Step) (w : World) :
    w.Path (passing stage step w) (judge stage.calls step w).2 := by
  rw [judge_settled]
  exact ⟨.refl w, ((respond step).run.path_run traced w).append
    (World.path_answer traced _ (.settle w.store.held.length []))⟩

theorem judgeNested_turn (calls : Calls) (step : Script.Step) (w : World) :
    (judge calls step w).2.Turn (judgeNested calls step w).2 := by
  simp only [judgeNested]
  split
  · next result =>
    rw [result]
    exact .refl _
  · next result =>
    rw [result]
    exact .still (World.still_of_store_eq rfl (Nat.le_refl _))

/-- The scenes of all functions and nested steps of a session lead to their ends. -/
theorem course_traced (depth : Nat) : (course depth).Traced := by
  induction depth with
  | zero =>
    exact ⟨fun _ _ _ w => ⟨[], rfl, rfl⟩, fun _ _ _ => rfl, fun _ _ _ => rfl,
      fun _ w => ⟨w, rfl, .refl w⟩⟩
  | succ depth ih =>
    have run {α : Type} (p : Program α) (w : World) :
        w.Path (p.scenes (course depth) w) (p.run (calls depth) w).2 :=
      course_calls depth ▸ p.path_run ih w
    refine ⟨fun callable inputs outputs w => ⟨_, rfl, run _ w⟩, fun target arguments => run _,
      fun name v => run _, fun s w => ⟨_, path_passing ih s w, ?_⟩⟩
    rw [course_calls]
    exact judgeNested_turn (calls depth) s w

theorem path_passingAll (depth : Nat) (steps : List Script.Step) (w : World) :
    w.Path (passingAll depth steps w) (advanceAll depth steps w).2 := by
  induction steps generalizing w with
  | nil => rfl
  | cons step rest ih =>
    have first := path_passing (course_traced depth) step { w with events := [] }
    rw [course_calls] at first
    have turn : w.Turn { w with events := [] } :=
      .still (World.still_of_store_eq rfl (Nat.le_refl _))
    exact World.Path.append ⟨turn, first.2⟩ (ih (advance depth step w).2)

theorem path_dropping (drop : World → String → Outcome Bool × World) (request : String → Request)
    (answered : ∀ w name, (World.answer (calls 0) w (request name)).2 = (drop w name).2)
    (names : List String) (w : World) :
    w.Path (dropping request names w) (dropAll drop names w).2 := by
  induction names generalizing w with
  | nil => rfl
  | cons name rest ih =>
    have first := w.path_answer (course_traced 0) (request name)
    have later := ih (drop w name).2
    rw [← answered] at later
    exact first.append (answered w name ▸ later)

theorem path_scenes (options : Options) (depth : Nat) (steps : List Script.Step) :
    ∃ rest w, scenes options depth steps = start options :: rest
      ∧ (start options).Path rest w := by
  let w := (advanceAll depth steps (start options)).2
  have ran := path_passingAll depth steps (start options)
  have unbound : w.Path _ (dropVariables w).2 :=
    path_dropping World.unbind .unbind (fun _ _ => rfl) _ w
  have unset : (dropVariables w).2.Path _ (dropGlobals (dropVariables w).2).2 :=
    path_dropping World.dropGlobal .dropGlobal (fun _ _ => rfl) _ _
  exact ⟨_, _, rfl, (ran.append unbound).append unset⟩

end Session

/-- A stage whose lists lie within those of another one. -/
structure Stage.Within (stage course : Stage) : Prop where
  /-- They run the same. -/
  calls : stage.calls = course.calls
  /-- Native functions. -/
  native : ∀ callable inputs outputs w,
    stage.native callable inputs outputs w ⊆ course.native callable inputs outputs w
  /-- Host functions. -/
  host : ∀ target arguments w, stage.host target arguments w ⊆ course.host target arguments w
  /-- Setting a global. -/
  assign : ∀ name v w, stage.assign name v w ⊆ course.assign name v w
  /-- Nested steps. -/
  step : ∀ s w, stage.step s w ⊆ course.step s w

/-- What is seen inside a program is among its scenes. -/
theorem Program.seen_subset {α : Type} {stage course : Stage} (within : stage.Within course)
    (p : Program α) (w : World) : p.seen stage w ⊆ p.scenes course w := by
  induction p generalizing w with
  | done x => exact List.Subset.refl _
  | ask request next ih =>
    have inside : request.seen stage w ⊆ request.seen course w := by
      cases request with
      | invoke callable inputs outputs => exact within.native callable inputs outputs w.entering
      | callHost target arguments => exact within.host target arguments w
      | assignGlobal name v => exact within.assign name v w
      | perform step => exact within.step step w
      | _ => exact List.Subset.refl _
    have answer : request.seen stage w ⊆ request.scenes course w := by
      rw [Request.scenes, List.append_assoc]
      exact List.Subset.trans inside (List.subset_append_left _ _)
    rw [seen, scenes, within.calls]
    refine List.append_subset.mpr ⟨List.subset_append_of_subset_left _ answer,
      List.subset_append_of_subset_right _ ?_⟩
    cases w.answer course.calls request with
    | mk outcome w' =>
      cases outcome with
      | done reply => exact ih reply w'
      | stopped why => exact List.Subset.refl _

namespace Session

theorem around_subset {stage course : Stage} (within : stage.Within course) (step : Script.Step)
    (w : World) : around stage step w ⊆ passing course step w := by
  have inside := (respond step).run.seen_subset within w
  have last : (judge stage.calls step w).2 ∈ (Request.settle w.store.held.length []).scenes course
      ((respond step).run.run course.calls w).2 := by
    rw [judge_settled, within.calls]
    exact List.mem_append_right _ (List.mem_singleton_self _)
  intro x member
  rcases List.mem_append.mp member with before | after
  · rcases List.mem_cons.mp before with rfl | within
    · exact List.mem_cons_self
    · exact List.mem_cons_of_mem _ (List.mem_append_left _ (inside within))
  · rw [List.mem_singleton.mp after]
    exact List.mem_cons_of_mem _ (List.mem_append_right _ last)

theorem stage_within (depth : Nat) : (stage depth).Within (course depth) := by
  induction depth with
  | zero => exact ⟨rfl, by simp [stage], by simp [stage], by simp [stage], by simp [stage]⟩
  | succ depth ih =>
    exact ⟨rfl,
      fun callable inputs outputs w =>
        List.subset_cons_of_subset _ ((callNative callable inputs outputs).seen_subset ih w),
      fun target arguments => (callHost target arguments).seen_subset ih,
      fun name v => (assignGlobal name v).seen_subset ih, around_subset ih⟩

theorem boundaries_subset (depth : Nat) (steps : List Script.Step) (w : World) :
    boundaries depth steps w ⊆ w :: passingAll depth steps w := by
  induction steps generalizing w with
  | nil => exact List.Subset.refl _
  | cons step rest ih =>
    have first := around_subset (stage_within depth) step { w with events := [] }
    have last : (advance depth step w).2 ∈ around (stage depth) step { w with events := [] } := by
      rw [around, stage_calls]
      exact List.mem_append_right _ (List.mem_singleton_self _)
    refine List.subset_cons_of_subset _ (List.append_subset.mpr ⟨?_, ?_⟩)
    · exact List.subset_append_of_subset_left _ first
    · refine List.Subset.trans (ih (advance depth step w).2) (List.cons_subset.mpr ⟨?_, ?_⟩)
      · exact List.mem_append_left _ (first last)
      · exact List.subset_append_right _ _

/-- All boundaries of the steps of a session are among its scenes. -/
theorem boundaries_subset_scenes (options : Options) (depth : Nat) (steps : List Script.Step) :
    boundaries depth steps (start options) ⊆ scenes options depth steps := by
  rw [scenes, List.append_assoc]
  exact List.Subset.trans (boundaries_subset depth steps (start options))
    (List.subset_append_left _ _)

end Session
end ObjectBridge
