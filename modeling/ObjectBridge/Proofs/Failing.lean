import ObjectBridge.Proofs.Assigning
import ObjectBridge.Proofs.Reordering

/-!
# Failures that leave nothing behind

Most programs look things up and encode values before they change anything, and what changes
something cannot fail any more.  Such a program leaves the world as it was when it fails, up to
references to entries that its temporaries hold and up to new storage; the region around it gives
the references back.
-/

namespace ObjectBridge

/-- What is left of a world as it was: only the order of the counts of entries differs, and there
may be new storage. -/
structure World.Untouched (w w' : World) : Prop extends w.Steady w' where
  /-- The counted things are the same. -/
  alike : w.store.Alike w'.store

namespace World

variable {w w₁ w' : World}

theorem Untouched.refl (w : World) : w.Untouched w := ⟨.refl w, .refl _⟩

/-- A run that only claimed entries and gave all of them back. -/
theorem Reading.untouched (reading : w.Reading w' []) (steady : w.Steady w') : w.Untouched w' where
  toSteady := steady
  alike := ⟨reading.store, fun t => by simp [reading.ledger], by simp [reading.total]⟩

/-- The properties of every instance are the same. -/
theorem Untouched.instances (untouched : w.Untouched w') :
    w'.store.instances = w.store.instances := by
  rw [untouched.alike.rest]

/-- The globals of the host are the same. -/
theorem Untouched.globals (untouched : w.Untouched w') : w'.store.globals = w.store.globals := by
  rw [untouched.alike.rest]

theorem Untouched.held (untouched : w.Untouched w') : w'.store.held = w.store.held := by
  rw [untouched.alike.rest]

/-- Of the temporaries only the newer ones are parted into those that are kept and the others. -/
theorem settle_append (newer : List Claim) {older : List Claim}
    (held : w.store.held = newer ++ older) (kept : List Claim) :
    w.settle older.length kept
      = (w.withStore { w.store with held := (Store.part newer kept).1 ++ older }).release
          (Store.part newer kept).2 := by
  have count : w.store.held.length - older.length = newer.length := by
    rw [held, List.length_append, Nat.add_sub_cancel]
  have first : w.store.held.take newer.length = newer := by rw [held, List.take_left]
  have rest : w.store.held.drop newer.length = older := by rw [held, List.drop_left]
  simp only [settle, count, first, rest]

/-- Without newer temporaries nothing is given back. -/
theorem settle_none (w : World) (kept : List Claim) :
    w.settle w.store.held.length kept = (.done (), w) := by
  have whole : { w.store with held := [] ++ w.store.held } = w.store := rfl
  rw [settle_append [] (List.nil_append _).symm, Store.part]
  simp only [whole, release, withStore, Store.release, Outcome.ofFaults]

/-- A temporary that is kept stays where it is. -/
theorem settle_kept {top : Claim} {older : List Claim} (held : w.store.held = top :: older) :
    w.settle older.length [top] = (.done (), w) := by
  have parted : Store.part [top] [top] = ([top], []) := by simp [Store.part]
  have whole : { w.store with held := [top] ++ older } = w.store := by
    rw [List.singleton_append, ← held]
  rw [settle_append [top] held, parted]
  simp only [whole, release, withStore, Store.release, Outcome.ofFaults]

/-- Giving temporaries back goes the same way in a world that was left untouched. -/
theorem Untouched.settle (untouched : w.Untouched w') (mark : Nat) (kept : List Claim) :
    (w'.settle mark kept).1 = (w.settle mark kept).1
      ∧ (w.settle mark kept).2.Untouched (w'.settle mark kept).2 := by
  obtain ⟨steady, rest, ledger, total⟩ := untouched
  have held : w'.store.held = w.store.held := by rw [rest]
  have trimmed (top : List Claim) :
      Store.Alike { w.store with held := top } { w'.store with held := top } :=
    ⟨by rw [rest], ledger, total⟩
  simp only [World.settle, held]
  refine ⟨congrArg Outcome.ofFaults ((trimmed _).faults _), ⟨?_, steady.next, steady.cells⟩,
    (trimmed _).release (.refl _)⟩
  simp only [release, withStore]
  rw [steady.frame]

end World

namespace Table

variable {α : Type} {key : Nat} {x y : α}

/-- Of two changes of an entry the second one counts. -/
theorem set_set (t : Table α) : (t.set key y).set key x = t.set key x := by
  refine ext ?_
  change replace key x (replace key y t.rows) = replace key x t.rows
  induction t.rows with
  | nil => rfl
  | cons row rest ih =>
    obtain ⟨k, z⟩ := row
    by_cases first : k = key <;> simp [replace, first, ih]

/-- Changing an entry to what it is changes nothing. -/
theorem set_self {t : Table α} (found : t.get? key = some x) : t.set key x = t := by
  refine ext ?_
  change find key t.rows = some x at found
  change replace key x t.rows = t.rows
  revert found
  induction t.rows with
  | nil => exact fun _ => rfl
  | cons row rest ih =>
    obtain ⟨k, z⟩ := row
    intro found
    by_cases first : k = key
    · simp only [find, first, if_true, Option.some.injEq] at found
      simp only [replace, first, found, if_true]
    · simp only [find, first, if_false] at found
      simp only [replace, first, ih found, if_false]

end Table

/-- A share of a live handle that is taken and given back. -/
theorem Store.release_claim_handle {s : Store} {h : HandleId} {r : HandleRecord}
    (live : s.handles.get? h = some r) (shared : 0 < r.shares) :
    (s.claim (.handle h)).release [.handle h] = ([], s) := by
  have claimed : s.claim (.handle h)
      = { s with handles := s.handles.set h { r with shares := r.shares + 1 } } := by
    simp only [claim, live]
  have again : (s.handles.set h { r with shares := r.shares + 1 }).get? h
      = some { r with shares := r.shares + 1 } := by
    rw [Table.get?_set, if_pos rfl, live, Option.map_some]
  have several : ¬r.shares + 1 ≤ 1 := by omega
  rw [claimed, release]
  split
  · next gone => rw [again] at gone; cases gone
  · next r' found =>
    rw [again] at found
    cases found
    rw [if_neg several, release, Nat.add_sub_cancel, Table.set_set, Table.set_self live]

/-- A region ends with a value exactly if its program does and giving the temporaries back is
done. -/
theorem Program.close_done {α : Type} {mark : Nat} {keep : α → List Claim}
    {result : Outcome α × World} {x : α} {w' : World} :
    close mark keep result = (.done x, w')
      ↔ ∃ w₁, result = (.done x, w₁) ∧ w₁.settle mark (keep x) = (.done (), w') := by
  obtain ⟨outcome, w₁⟩ := result
  cases outcome with
  | stopped why => simp [close]
  | done y =>
    constructor
    · intro closed
      rw [close, Prod.mk.injEq] at closed
      obtain ⟨ended, rfl⟩ := closed
      cases settled : (w₁.settle mark (keep y)).1 with
      | stopped why =>
        rw [settled] at ended
        cases ended
      | done _ =>
        rw [settled] at ended
        cases ended
        exact ⟨w₁, rfl, Prod.ext settled rfl⟩
    · rintro ⟨_, same, settled⟩
      cases same
      rw [close, settled]
      rfl

namespace Bridge

variable {ε α β γ : Type} {calls : Calls} {w w₁ w' : World} {e : ε}

/-- A program that may fail ends with a failure. -/
def Fails (calls : Calls) (p : ExceptT ε Program α) (w : World) (e : ε) (w' : World) : Prop :=
  p.run.run calls w = (.done (.error e), w')

section Fails

variable {p : ExceptT ε Program α} {f : α → ExceptT ε Program β}

theorem fails_bind :
    Fails calls (p >>= f) w e w'
      ↔ Fails calls p w e w' ∨ ∃ x w₁, Succeeds calls p w x w₁ ∧ Fails calls (f x) w₁ e w' := by
  refine Program.run_bind_done.trans ⟨?_, ?_⟩
  · rintro ⟨r, w₁, ran, rest⟩
    cases r with
    | error e' =>
      cases rest
      exact .inl ran
    | ok x => exact .inr ⟨x, w₁, ran, rest⟩
  · rintro (ran | ⟨x, w₁, ran, rest⟩)
    · exact ⟨.error e, w', ran, rfl⟩
    · exact ⟨.ok x, w₁, ran, rest⟩

theorem not_fails_pure {x : α} : ¬Fails calls (pure x : ExceptT ε Program α) w e w' :=
  fun ran => by cases ran

theorem not_fails_lift {p : Program α} :
    ¬Fails calls (liftM p : ExceptT ε Program α) w e w' := fun ran => by
  obtain ⟨x, w₁, _, rest⟩ := Program.run_bind_done.mp ran
  cases rest

/-- A region around a program that fails fails with it. -/
theorem Fails.region {keep : α → List Claim} {p : Bridge α} {f : Failure}
    (ran : Fails calls (region keep p) w f w') :
    ∃ w₁, Fails calls p w f w₁ ∧ w' = (w₁.settle w.store.held.length []).2 := by
  rw [Fails, region_eq] at ran
  exact Program.run_region_done ran

end Fails

/-- A program that leaves the world as it was when it fails, up to claims of entries and new
storage. -/
def Clean (p : ExceptT ε Program α) : Prop :=
  ∀ calls w e w', Fails calls p w e w' → w.Looked w'

section Clean

variable {p : ExceptT ε Program α} {f : α → ExceptT ε Program β}

theorem looked_of_fails (silent : Silent p) (reading : Reading p) (ran : Fails calls p w e w') :
    w.Looked w' :=
  Program.looked_of_run silent reading ran

theorem clean_throw : Clean (throw e : ExceptT ε Program α) := fun _ _ _ _ ran => by
  cases ran
  exact .refl _

theorem clean_throw_bind : Clean (throw e >>= f : ExceptT ε Program β) := clean_throw

/-- What cannot fail leaves nothing behind when it fails. -/
theorem clean_lift {p : Program α} : Clean (liftM p : ExceptT ε Program α) :=
  fun _ _ _ _ ran => absurd ran not_fails_lift

/-- Looking things up before what may fail. -/
theorem Clean.after (silent : Silent p) (reading : Reading p) (rest : ∀ x, Clean (f x)) :
    Clean (p >>= f) := fun calls w e w' ran => by
  rcases fails_bind.mp ran with first | ⟨x, w₁, passed, later⟩
  · exact looked_of_fails silent reading first
  · exact (passed.looked silent reading).trans (rest x calls w₁ e w' later)

/-- What may fail before what cannot. -/
theorem Clean.before (clean : Clean p) (rest : ∀ x calls w e w', ¬Fails calls (f x) w e w') :
    Clean (p >>= f) := fun calls w e w' ran => by
  rcases fails_bind.mp ran with first | ⟨x, w₁, _, later⟩
  · exact clean calls w e w' first
  · exact absurd later (rest x calls w₁ e w')

theorem clean_ofRuntime {reading : RuntimeFailure → Failure} {p : Runtime α} (clean : Clean p) :
    Clean (ofRuntime reading p) := fun calls w e w' ran => by
  obtain ⟨r, w₁, passed, rest⟩ := Program.run_bind_done.mp ran
  cases r with
  | ok x => cases rest
  | error g =>
    cases rest
    exact clean calls w g w' passed

/-- A region around a clean program leaves the world untouched when it fails. -/
theorem Clean.untouched {keep : α → List Claim} {p : Bridge α} {f : Failure} (clean : Clean p)
    (ran : Fails calls (region keep p) w f w') : w.Untouched w' := by
  obtain ⟨w₁, failed, rfl⟩ := ran.region
  obtain ⟨steady, top, reading⟩ := clean calls w f w₁ failed
  have settled := (reading.settle []).2
  rw [Store.part_nil] at settled
  exact settled.untouched (steady.trans (World.steady_settle _ _ _))

theorem Clean.region {keep : α → List Claim} {p : Bridge α} (clean : Clean p) :
    Clean (region keep p) := fun calls w e w' ran => by
  have ran : Fails calls (Bridge.region keep p) w e w' := ran
  obtain ⟨w₁, failed, rfl⟩ := ran.region
  obtain ⟨steady, top, reading⟩ := clean calls w e w₁ failed
  exact ⟨steady.trans (World.steady_settle _ _ _), _, (reading.settle []).2⟩

end Clean

end Bridge

open Program Bridge Descriptor

namespace Runtime

theorem clean_writeProperty {a : Address} {name : String} {slot : Slot} :
    Clean (writeProperty a name slot) :=
  .after silent_findProperty reading_findProperty fun _ => clean_lift

theorem clean_writeField {field : Token} {a : Address} {slot : Slot} :
    Clean (writeField field a slot) := by
  refine .after (silent_lift silent_entry) (reading_lift reading_entry) fun e => ?_
  dsimp only
  split
  · exact clean_throw_bind
  · exact .after (silent_lift silent_database) (reading_lift reading_database) fun db =>
      .after (silent_lift silent_fieldSlot) (reading_lift reading_fieldSlot) fun kept => clean_lift

end Runtime

namespace Codec

theorem clean_decode {slot : Slot} {t : Token} : Clean (decode slot t) :=
  .region <| .after silent_shape reading_shape fun _ =>
    .after (silent_lift silent_trace) (reading_lift reading_trace) fun _ => clean_lift

end Codec

namespace Handle

variable {calls : Calls} {w w' : World} {h : HandleId} {r : HandleRecord} {member : Token}
  {name : String} {v : Value}

theorem clean_commit {m : Assignment} : Clean m.commit := by
  unfold Assignment.commit
  split
  · exact clean_ofRuntime Runtime.clean_writeField
  · exact clean_ofRuntime Runtime.clean_writeProperty

theorem reading_prepareProperty : Bridge.Reading (prepareProperty r member name v) := by
  refine reading_receiver.bind fun a => (reading_lift reading_entry).bind fun e => ?_
  dsimp only
  split
  · exact reading_throw_bind
  · exact reading_memberType.bind fun _ => Codec.reading_encode.bind fun _ => Bridge.reading_pure

theorem reading_prepareField : Bridge.Reading (prepareField r member name v) :=
  reading_receiver.bind fun _ => reading_memberType.bind fun _ => Codec.reading_encode.bind fun _ =>
    Bridge.reading_pure

theorem clean_writeMember : Clean (writeProperty r member name v) := by
  rw [writeProperty_eq]
  exact .region (.after silent_prepareProperty reading_prepareProperty fun _ => clean_commit)

theorem clean_writeField : Clean (writeField r member name v) := by
  rw [writeField_eq]
  exact .region (.after silent_prepareField reading_prepareField fun _ => clean_commit)

theorem clean_readMember : Clean (readProperty r member name) := by
  refine .region <| .after silent_receiver reading_receiver fun a =>
    .after (silent_lift silent_entry) (reading_lift reading_entry) fun e => ?_
  dsimp only
  split
  · exact clean_throw_bind
  · exact .after silent_memberType reading_memberType fun type =>
      .after (silent_ofRuntime Runtime.silent_readProperty)
        (reading_ofRuntime Runtime.reading_readProperty) fun slot => Codec.clean_decode

theorem clean_readField : Clean (readField r member name) :=
  .region <| .after silent_receiver reading_receiver fun _ =>
    .after silent_memberType reading_memberType fun _ =>
      .after (silent_ofRuntime Runtime.silent_readField)
        (reading_ofRuntime Runtime.reading_readField) fun _ => Codec.clean_decode

/-- Looking a property up, or else a field, and then doing something with it. -/
theorem clean_member {α : Type} {onProperty onField : HandleRecord → Token → String → Bridge α}
    (property : ∀ r t spelling, Clean (onProperty r t spelling))
    (field : ∀ r t spelling, Clean (onField r t spelling)) :
    Clean (do
      let r ← handleRecord h
      let info ← typed r
      match ← Member.findProperty info name with
      | some (t, spelling) => onProperty r t spelling
      | none =>
        match ← Member.findField info name with
        | some (t, spelling) => onField r t spelling
        | none => throw (.noMember name) : Bridge α) := by
  refine .after (silent_lift silent_handleRecord) (reading_lift reading_handleRecord) fun r =>
    .after silent_typed reading_typed fun info =>
    .after (silent_lift Member.silent_findProperty) (reading_lift Member.reading_findProperty)
    fun found => ?_
  cases found with
  | some found => exact property r found.1 found.2
  | none =>
    refine .after (silent_lift Member.silent_findField) (reading_lift Member.reading_findField)
      fun found => ?_
    cases found with
    | some found => exact field r found.1 found.2
    | none => exact clean_throw

/-- Setting a member changes nothing when it fails. -/
theorem untouched_of_set {f : Failure} (ran : Fails calls (set h name v) w f w') : w.Untouched w' :=
  (clean_member (fun _ _ _ => clean_writeMember) fun _ _ _ => clean_writeField).untouched ran

/-- Getting a member changes nothing when it fails. -/
theorem clean_get : Clean (get h name) :=
  .region (clean_member (fun _ _ _ => clean_readMember) fun _ _ _ => clean_readField)

end Handle
end ObjectBridge
