import ObjectBridge.Proofs.Emitting
import ObjectBridge.Proofs.Supporting

/-!
# The bridge and the object runtime agree

The bridge looks for methods and signals by walking up from an entry, and the object runtime by
searching the chain of a type number.  Both find what the nearest type declares.  So a signal or a
property that the bridge found on the type of an instance, or on an ancestor of it, is there for the
object runtime as well.
-/

namespace ObjectBridge

open Program Descriptor

/-- A failure that the type database or the object runtime reported. -/
def Failure.isRuntime : Failure → Bool
  | runtime _ => true
  | _ => false

/-- A program that never fails in a bad way, in a world and in whatever looking makes of it. -/
def Bridge.Avoids {ε α : Type} (p : ExceptT ε Program α) (v : World) (bad : ε → Prop) : Prop :=
  ∀ calls w, v.Looked w → ∀ e, (p.run.run calls w).1 = .done (.error e) → ¬bad e

namespace Bridge

variable {ε ε' α β : Type} {v : World} {bad : ε → Prop} {post : Except ε α → Prop}

theorem run_lift (calls : Calls) (p : Program α) (w : World) :
    (liftM p : ExceptT ε Program α).run.run calls w
      = ((p.run calls w).1.map Except.ok, (p.run calls w).2) := by
  have lifted : (liftM p : ExceptT ε Program α).run = p >>= fun x => pure (Except.ok x) := rfl
  rw [lifted, run_bind]
  cases p.run calls w with
  | mk outcome w' => cases outcome <;> rfl

theorem avoids_lift {p : Program α} : Avoids (liftM p : ExceptT ε Program α) v bad := by
  intro calls w _ e failed
  rw [run_lift] at failed
  cases ended : (p.run calls w).1 with
  | done x =>
    rw [ended] at failed
    cases failed
  | stopped why =>
    rw [ended] at failed
    cases failed

theorem avoids_throw {e : ε} (fine : ¬bad e) : Avoids (throw e : ExceptT ε Program α) v bad := by
  intro calls w _ e' failed
  cases failed
  exact fine

theorem Avoids.after {p : ExceptT ε Program α} {f : α → ExceptT ε Program β} (first : Finds p v post)
    (rest : ∀ x, post (.ok x) → Avoids (f x) v bad) (fine : ∀ e, post (.error e) → ¬bad e) :
    Avoids (p >>= f) v bad := by
  intro calls w looked e failed
  obtain ⟨r, w₁, passes, looked₁, holds⟩ := first calls w looked
  have continued : (p >>= f).run.run calls w
      = ((match r with
          | .ok x => (f x).run
          | .error e => pure (.error e) : Program (Except ε β)).run calls w₁) := by
    change (p.run >>= _).run calls w = _
    rw [run_bind, passes.run]
    cases r <;> rfl
  rw [continued] at failed
  cases r with
  | ok x => exact rest x holds calls w₁ (looked.trans looked₁) e failed
  | error e' =>
    cases failed
    exact fine e holds

/-- Go on after a program that does not fail. -/
theorem Avoids.next {p : Program α} {f : α → ExceptT ε Program β} {given : α → Prop}
    (first : p.Finds v given) (rest : ∀ x, given x → Avoids (f x) v bad) :
    Avoids (liftM p >>= f : ExceptT ε Program β) v bad := by
  have lifted : Finds (liftM p : ExceptT ε Program α) v fun r => ∃ x, r = .ok x ∧ given x :=
    finds_lift first fun x holds => ⟨x, rfl, holds⟩
  exact .after lifted (fun x ⟨_, same, holds⟩ => by cases same; exact rest x holds)
    (fun e ⟨_, same, _⟩ => by cases same)

/-- Go on after a program that does not fail and does what it likes. -/
theorem avoids_lift_bind {p : Program α} {f : α → ExceptT ε Program β}
    (rest : ∀ x v, Avoids (f x) v bad) : Avoids (liftM p >>= f : ExceptT ε Program β) v bad := by
  intro calls w _ e failed
  have bound : (liftM p >>= f : ExceptT ε Program β).run
      = (liftM p : ExceptT ε Program α).run >>= fun r =>
          match r with
          | .ok x => (f x).run
          | .error e => pure (.error e) := rfl
  rw [bound, run_bind, run_lift] at failed
  cases ran : p.run calls w with
  | mk outcome w' =>
    rw [ran] at failed
    cases outcome with
    | done x => exact rest x w' calls w' (.refl w') e failed
    | stopped why => cases failed

theorem Avoids.ofRuntime {reading : RuntimeFailure → Failure} {p : Runtime α} {bad : Failure → Prop}
    (avoids : Avoids p v fun g => bad (reading g)) : Avoids (ofRuntime reading p) v bad := by
  intro calls w looked e failed
  change ((p.run >>= fun r => pure (r.mapError reading)).run calls w).1 = _ at failed
  rw [run_bind] at failed
  split at failed
  · next r w' ran =>
    cases r with
    | ok x => cases failed
    | error g =>
      cases failed
      exact avoids calls w looked g (congrArg Prod.fst ran)
  · cases failed

theorem Avoids.region {keep : α → List Claim} {p : Bridge α} {bad : Failure → Prop}
    (avoids : Avoids p v bad) : Avoids (region keep p) v bad := by
  intro calls w looked e failed
  refine avoids calls w looked e ?_
  change ((p.run >>= fun r => (request (.settle w.store.held.length _) : Program Unit) >>=
    fun _ => pure r).run calls w).1 = _ at failed
  rw [run_bind] at failed
  split at failed
  · next r w' ran =>
    rw [run_bind] at failed
    split at failed
    · cases failed
      rw [ran]
    · cases failed
  · cases failed

end Bridge

variable {v : World} {t : Nat} {e : Entry} {name : String} {a : Address} {i : Instance} {m : Token}

/-! ### Failures of encoding and decoding -/

namespace Codec

variable {x : Value} {f : Failure}

theorem isRuntime_shapeFor {db : Database} (failed : shapeFor db e = .error f) :
    f.isRuntime = false := by
  obtain ⟨text, rfl⟩ := unsupported_of_shapeFor failed
  rfl

theorem isRuntime_refusalInShape {w : World} {wanted : Shape}
    (failed : refusalInShape w x wanted = some f) : f.isRuntime = false := by
  rcases refusalInShape_cases failed with mismatch | ⟨_, _, _, _, _, _, rfl⟩
  · cases f with
    | mismatch => rfl
    | _ => cases mismatch
  · rfl

/-- A value is never refused because of what the runtime reported. -/
theorem isRuntime_refusal {w : World} (failed : refusal w x t = some f) : f.isRuntime = false := by
  unfold refusal at failed
  split at failed
  · cases failed
  · split at failed
    · next g wrong =>
      cases failed
      exact isRuntime_shapeFor wrong
    · exact isRuntime_refusalInShape failed

/-- Decoding fails for want of a shape only. -/
theorem avoids_decode {slot : Slot} (linked : v.database.Linked) (known : v.database.Has t) :
    Bridge.Avoids (decode slot t) v fun f => f.isRuntime = true := by
  obtain ⟨e, found⟩ := known.entry
  refine .region <| .after (finds_shape linked found) (fun wanted _ => ?_) fun f failed => ?_
  · exact .next finds_trace fun _ _ => Bridge.avoids_lift
  · simp [isRuntime_shapeFor failed.symm]

end Codec

/-! ### Properties -/

namespace Runtime

/-- The object runtime finds a property that the chain of the type of the instance has. -/
theorem finds_findProperty (live : v.store.instances.get? a = some i)
    (there : v.database.chainMember? i.number .property name = some m) :
    Bridge.Finds (findProperty a name) v (· = .ok m) := by
  refine .next (finds_liveInstance live) (.next finds_database ?_)
  rw [there]
  exact Bridge.finds_pure rfl

theorem finds_readProperty (live : v.store.instances.get? a = some i)
    (there : v.database.chainMember? i.number .property name = some m) :
    Bridge.Finds (readProperty a name) v fun r => ∃ slot, r = .ok slot :=
  Bridge.Finds.bind (finds_findProperty live there)
    (fun _ _ => .next ((finds_liveInstance live).next (finds_pure rfl)) (Bridge.finds_pure ⟨_, rfl⟩))
    fun _ failed => by cases failed

theorem avoids_writeProperty {slot : Slot} (live : v.store.instances.get? a = some i)
    (there : v.database.chainMember? i.number .property name = some m) :
    Bridge.Avoids (writeProperty a name slot) v fun _ => True :=
  .after (finds_findProperty live there) (fun _ _ => Bridge.avoids_lift)
    fun _ failed => by cases failed

end Runtime

namespace Handle

variable {r : HandleRecord} {h : HandleId}

theorem finds_receiver : Bridge.Finds (receiver r name) v fun given =>
    given = match r.attachment with
      | some attachment => .ok attachment.address
      | none => .error (.noReceiver name) := by
  unfold receiver
  cases r.attachment with
  | some attachment => exact Bridge.finds_pure rfl
  | none => exact Bridge.finds_throw rfl

theorem finds_typed : Bridge.Finds (typed r) v fun given =>
    given = match r.info with
      | some info => .ok info
      | none => .error .untyped := by
  unfold typed
  cases r.info with
  | some info => exact Bridge.finds_pure rfl
  | none => exact Bridge.finds_throw rfl

theorem mem_references_of_declared {u : Token} (declared : e.declared? = some u) :
    u ∈ e.content.references := by
  unfold Entry.declared? at declared
  split at declared
  case h_5 => cases declared
  all_goals
    next content =>
      cases declared
      rw [content]
      exact List.mem_singleton_self _

/-- The declared type of a member is there, or the member has none. -/
theorem finds_memberType (linked : v.database.Linked) (found : v.database.entry? m = some e) :
    Bridge.Finds (memberType m name) v fun given =>
      (∃ u, given = .ok u ∧ v.database.Has u) ∨ ∃ what, given = .error (.unsupported what) := by
  refine .next ((finds_entry found).next finds_take) ?_
  cases declared : e.declared? with
  | some u =>
    exact Bridge.finds_pure
      (.inl ⟨u, rfl, Codec.has_of_reference linked found (mem_references_of_declared declared)⟩)
  | none => exact Bridge.finds_throw (.inr ⟨_, rfl⟩)

/-- A handle on a live instance that is typed by the type of the instance or by an ancestor. -/
structure Fits (w : World) (r : HandleRecord) (a : Address) (i : Instance) (info : Token) :
    Prop where
  /-- The descriptor. -/
  typed : r.info = some info
  /-- The handle is bound to the address. -/
  bound : r.address = a ∧ r.isBound = true
  /-- The instance is live. -/
  live : w.store.instances.get? a = some i
  /-- The runtime type of the instance is the descriptor or descends from it. -/
  descends : ∃ u e, w.database.entry? u = some e ∧ e.kind.isRegistered = true
    ∧ e.number = i.number ∧ w.database.Descends u info

variable {info : Token}

theorem Fits.receiver (fits : Fits v r a i info) :
    Bridge.Finds (receiver r name) v (· = .ok a) := by
  refine finds_receiver.weaken fun given same => ?_
  obtain ⟨address, bound⟩ := fits.bound
  rw [same]
  obtain ⟨attachment, attached⟩ := Option.isSome_iff_exists.mp bound
  simpa [HandleRecord.address, attached] using address

/-- The descriptor is an entry. -/
theorem Fits.has (fits : Fits v r a i info) (linked : v.database.Linked) :
    v.database.Has info := by
  obtain ⟨u, e, found, _, _, descends⟩ := fits.descends
  rcases descends.cases_tail with same | ⟨p, _, parent⟩
  · exact same ▸ Database.has_of_entry found
  · exact (linked.parent parent).1

/-- The object runtime finds what the descriptor of a handle or an ancestor of it declares. -/
theorem Fits.chainMember (fits : Fits v r a i info) (sound : v.database.Sound)
    (distinct : v.database.Distinct) {group : MemberGroup}
    (nearest : v.database.Nearest group name info (some m)) :
    ∃ m, v.database.chainMember? i.number group name = some m := by
  obtain ⟨u, e, found, kind, number, descends⟩ := fits.descends
  obtain ⟨m', nearest'⟩ := nearest.descend descends
  have chained : v.database.Nearest group name u _ :=
    sound.nearest_chainMember distinct found kind
  rw [number] at chained
  exact ⟨m', (nearest'.unique chained).symm⟩

/-- A property that the descriptor declares is read without a failure of the runtime. -/
theorem avoids_readProperty (fits : Fits v r a i info) (sound : v.database.Sound)
    (distinct : v.database.Distinct)
    (declared : v.database.ownMember? .property name info = some m) :
    Bridge.Avoids (readProperty r m name) v fun f => f.isRuntime = true := by
  obtain ⟨e, found, _⟩ := sound.named declared
  obtain ⟨property, there⟩ := fits.chainMember sound distinct (.own declared)
  refine .region <| .after fits.receiver (fun b same => ?_) fun f failed => by cases failed
  cases same
  refine .next (finds_entry found) fun _ same => ?_
  cases same
  split
  · exact Bridge.avoids_throw (by simp [Failure.isRuntime])
  · refine .after (finds_memberType sound.toLinked found) (fun u given => ?_) fun f failed => ?_
    · rcases given with ⟨u, same, known⟩ | ⟨_, same⟩
      · cases same
        have reads : Bridge.Finds (Bridge.ofRuntime .runtime (Runtime.readProperty a name)) v
            fun r => ∃ slot, r = .ok slot :=
          Bridge.finds_ofRuntime (Runtime.finds_readProperty fits.live there)
            fun r ⟨slot, same⟩ => ⟨slot, by rw [same]; rfl⟩
        exact .after reads (fun slot _ => Codec.avoids_decode sound.toLinked known)
          fun f ⟨_, failed⟩ => by cases failed
      · cases same
    · rcases failed with ⟨_, same, _⟩ | ⟨_, same⟩
      · cases same
      · cases same
        simp [Failure.isRuntime]

/-- A property that the descriptor declares is written without a failure of the runtime. -/
theorem avoids_writeProperty {x : Value} (fits : Fits v r a i info) (sound : v.database.Sound)
    (distinct : v.database.Distinct)
    (declared : v.database.ownMember? .property name info = some m) :
    Bridge.Avoids (writeProperty r m name x) v fun f => f.isRuntime = true := by
  obtain ⟨e, found, _⟩ := sound.named declared
  obtain ⟨property, there⟩ := fits.chainMember sound distinct (.own declared)
  refine .region <| .after fits.receiver (fun b same => ?_) fun f failed => by cases failed
  cases same
  refine .next (finds_entry found) fun _ same => ?_
  cases same
  split
  · exact Bridge.avoids_throw (by simp [Failure.isRuntime])
  · refine .after (finds_memberType sound.toLinked found) (fun u given => ?_) fun f failed => ?_
    · rcases given with ⟨u, same, known⟩ | ⟨_, same⟩
      · cases same
        refine .after (Codec.finds_encode sound.toLinked known) (fun _ _ => ?_) fun f refused => ?_
        · exact .ofRuntime fun calls w looked g failed _ =>
            Runtime.avoids_writeProperty fits.live there calls w looked g failed trivial
        · simp [Codec.isRuntime_refusal refused.symm]
      · cases same
    · rcases failed with ⟨_, same, _⟩ | ⟨_, same⟩
      · cases same
      · cases same
        simp [Failure.isRuntime]

theorem finds_fieldSlot {field : Token} {b : Address} (found : v.database.entry? field = some e) :
    Bridge.Finds (Runtime.readField field b) v fun _ => True := by
  refine .next (finds_entry found) ?_
  split
  · exact Bridge.finds_throw trivial
  · exact .after finds_database fun _ _ => .after finds_memory fun _ _ => Bridge.finds_pure trivial

/-- A field is read without a failure that passes for one of the runtime. -/
theorem avoids_readField (sound : v.database.Sound) (found : v.database.entry? m = some e) :
    Bridge.Avoids (readField r m name) v fun f => f.isRuntime = true := by
  refine .region <| .after finds_receiver (fun b _ => ?_) fun f failed => ?_
  · refine .after (finds_memberType sound.toLinked found) (fun u given => ?_) fun f failed => ?_
    · rcases given with ⟨u, same, known⟩ | ⟨_, same⟩
      · cases same
        have reads : Bridge.Finds (Bridge.ofRuntime (fun f : RuntimeFailure =>
            .fieldAccess ("get " ++ name ++ ": " ++ f.message)) (Runtime.readField m b)) v
            fun r => ∀ f, r = .error f → f.isRuntime = false :=
          Bridge.finds_ofRuntime (finds_fieldSlot found) fun r _ f failed => by
            cases r <;> cases failed
            rfl
        exact .after reads (fun slot _ => Codec.avoids_decode sound.toLinked known)
          fun f failed => by simp [failed f rfl]
      · cases same
    · rcases failed with ⟨_, same, _⟩ | ⟨_, same⟩
      · cases same
      · cases same
        simp [Failure.isRuntime]
  · split at failed <;> cases failed
    simp [Failure.isRuntime]

/-- A field is written without a failure that passes for one of the runtime. -/
theorem avoids_writeField {x : Value} (sound : v.database.Sound)
    (found : v.database.entry? m = some e) :
    Bridge.Avoids (writeField r m name x) v fun f => f.isRuntime = true := by
  refine .region <| .after finds_receiver (fun b _ => ?_) fun f failed => ?_
  · refine .after (finds_memberType sound.toLinked found) (fun u given => ?_) fun f failed => ?_
    · rcases given with ⟨u, same, known⟩ | ⟨_, same⟩
      · cases same
        refine .after (Codec.finds_encode sound.toLinked known) (fun _ _ => ?_) fun f refused => ?_
        · exact .ofRuntime fun _ _ _ _ _ => by simp [Failure.isRuntime]
        · simp [Codec.isRuntime_refusal refused.symm]
      · cases same
    · rcases failed with ⟨_, same, _⟩ | ⟨_, same⟩
      · cases same
      · cases same
        simp [Failure.isRuntime]
  · split at failed <;> cases failed
    simp [Failure.isRuntime]

/-- A property is found under a spelling under which the descriptor declares it. -/
theorem ownMember?_of_findProperty {found : Option (Token × String)} {spelling : String}
    (same : found = if e.kind = .object || e.kind = .interface then
        Member.declared? v.database .property name info else none)
    (property : found = some (m, spelling)) :
    v.database.ownMember? .property spelling info = some m := by
  rw [same] at property
  split at property
  · exact Member.ownMember?_of_declared property
  · cases property

theorem Fits.finds_typed (fits : Fits v r a i info) :
    Bridge.Finds (Handle.typed r) v (· = .ok info) :=
  Handle.finds_typed.weaken fun given same => by rw [same, fits.typed]

/-- Getting a member fails without a failure of the runtime. -/
theorem avoids_get (fits : Fits v (v.store.handle h) a i info) (sound : v.database.Sound)
    (distinct : v.database.Distinct) :
    Bridge.Avoids (get h name) v fun f => f.isRuntime = true := by
  obtain ⟨e, found⟩ := (fits.has sound.toLinked).entry
  refine .region <| .next finds_handleRecord fun r same => ?_
  subst same
  refine .after fits.finds_typed (fun _ same => ?_) fun f failed => by cases failed
  cases same
  refine .next (Member.finds_findProperty sound.toLinked found) fun property same => ?_
  split
  · next p spelling =>
    exact avoids_readProperty fits sound distinct (ownMember?_of_findProperty same rfl)
  · refine .next (Member.finds_findField sound.toLinked found) fun field same => ?_
    split
    · next p spelling =>
      split at same
      · obtain ⟨g, known, _⟩ := sound.named (Member.ownMember?_of_declared same.symm)
        exact avoids_readField sound known
      · cases same
    · exact Bridge.avoids_throw (by simp [Failure.isRuntime])

/-- Setting a member fails without a failure of the runtime. -/
theorem avoids_set {x : Value} (fits : Fits v (v.store.handle h) a i info)
    (sound : v.database.Sound) (distinct : v.database.Distinct) :
    Bridge.Avoids (set h name x) v fun f => f.isRuntime = true := by
  obtain ⟨e, found⟩ := (fits.has sound.toLinked).entry
  refine .region <| .next finds_handleRecord fun r same => ?_
  subst same
  refine .after fits.finds_typed (fun _ same => ?_) fun f failed => by cases failed
  cases same
  refine .next (Member.finds_findProperty sound.toLinked found) fun property same => ?_
  split
  · next p spelling =>
    exact avoids_writeProperty fits sound distinct (ownMember?_of_findProperty same rfl)
  · refine .next (Member.finds_findField sound.toLinked found) fun field same => ?_
    split
    · next p spelling =>
      split at same
      · obtain ⟨g, known, _⟩ := sound.named (Member.ownMember?_of_declared same.symm)
        exact avoids_writeField sound known
      · cases same
    · exact Bridge.avoids_throw (by simp [Failure.isRuntime])

end Handle

/-! ### Connections -/

namespace Signal

variable {h : HandleId} {info : Token} {signal : Token}

theorem mem_references_of_result {u : Token} (result : e.result? = some u) :
    u ∈ e.content.references := by
  unfold Entry.result? at result
  split at result
  · next content =>
    rw [content]
    exact List.mem_append_right _ (Option.mem_toList.mpr result)
  · next content =>
    cases result
    rw [content]
    exact List.mem_append_right _ (List.mem_singleton_self _)
  · cases result

theorem finds_answersTruth (linked : v.database.Linked)
    (found : v.database.entry? signal = some e) :
    Bridge.Finds (answersTruth signal) v fun r => ∀ f, r = .error f → f.isRuntime = false := by
  refine .region <| .next ((finds_entry found).next finds_take) ?_
  cases result : e.result? with
  | none => exact Bridge.finds_pure fun f failed => by cases failed
  | some t =>
    obtain ⟨u, known⟩ :=
      (Codec.has_of_reference linked found (mem_references_of_result result)).entry
    refine .next (finds_entry known) ?_
    split
    · exact Bridge.finds_pure fun f failed => by cases failed
    · exact Bridge.finds_pure fun f failed => by cases failed
    · exact .next (finds_entry found) (Bridge.finds_throw fun f failed => by cases failed; rfl)

theorem finds_argumentType {index : Nat} (linked : v.database.Linked)
    (found : v.database.entry? signal = some e) :
    Bridge.Finds (argumentType signal name index) v fun r =>
      ∀ f, r = .error f → f.isRuntime = false := by
  refine .region <| .next ((finds_entry found).next finds_take) ?_
  cases argument : e.arguments[index]? with
  | none => exact Bridge.finds_throw fun f failed => by cases failed; rfl
  | some t =>
    obtain ⟨u, known, _⟩ := linked.arguments _ _ found t (List.mem_of_getElem? argument)
    refine .next ((finds_entry known).next finds_take) ?_
    cases u.declared? with
    | none => exact Bridge.finds_throw fun f failed => by cases failed; rfl
    | some type => exact Bridge.finds_pure fun f failed => by cases failed

theorem finds_argumentTypes {indices : List Nat} (linked : v.database.Linked)
    (found : v.database.entry? signal = some e) :
    Bridge.Finds (Bridge.each (argumentType signal name) indices) v fun r =>
      ∀ f, r = .error f → f.isRuntime = false := by
  induction indices with
  | nil => exact Bridge.finds_pure fun f failed => by cases failed
  | cons index rest ih =>
    refine (finds_argumentType linked found).bind (fun _ _ => ?_) fun f fine _ same => ?_
    · refine ih.bind (fun _ _ => Bridge.finds_pure fun f failed => by cases failed)
        fun f fine _ same => ?_
      cases same
      exact fine f rfl
    · cases same
      exact fine f rfl

/-- A signal that is there can be attached. -/
theorem avoids_attach {reaction : Reaction} (live : v.store.instances.get? a = some i)
    (there : v.database.chainMember? i.number .signal name = some m) :
    Bridge.Avoids (attach a name reaction) v fun _ => True := by
  refine .next (finds_liveInstance live) fun _ same => ?_
  subst same
  refine .next finds_database fun _ same => ?_
  subst same
  rw [there]
  exact Bridge.avoids_lift

/-- Connecting through a handle fails without a failure of the runtime. -/
theorem avoids_connect {target : Script.Target} {userData : Option Value}
    (fits : Handle.Fits v (v.store.handle h) a i info) (sound : v.database.Sound)
    (distinct : v.database.Distinct) :
    Bridge.Avoids (connect h name target userData) v fun f => f.isRuntime = true := by
  obtain ⟨e, found⟩ := (fits.has sound.toLinked).entry
  refine .region <| .next finds_handleRecord fun r same => ?_
  subst same
  refine .after fits.finds_typed (fun _ same => ?_) fun f failed => by cases failed
  cases same
  refine .next (finds_entry found) fun _ same => ?_
  cases same
  dsimp only
  split
  · exact Bridge.avoids_lift_bind fun shown v => Bridge.avoids_throw (by simp [Failure.isRuntime])
  · refine .next (Member.finds_findSignal sound.toLinked (Database.has_of_entry found))
      fun found nearest => ?_
    cases found with
    | none => exact Bridge.avoids_throw (by simp [Failure.isRuntime])
    | some signal =>
      obtain ⟨_, _, declared⟩ := nearest.declared
      obtain ⟨s, known, named⟩ := sound.named declared
      obtain ⟨m, there⟩ := fits.chainMember sound distinct nearest
      have shown : s.shownName = name := by rw [Entry.shownName, named]; rfl
      refine .next (finds_entry known) fun _ same => ?_
      cases same
      split
      · exact Bridge.avoids_throw (by simp [Failure.isRuntime])
      · refine .after (finds_answersTruth sound.toLinked known) (fun truth _ => ?_)
          fun f fine => by simp [fine f rfl]
        refine .after (finds_argumentTypes sound.toLinked known) (fun types _ => ?_)
          fun f fine => by simp [fine f rfl]
        rw [shown, fits.bound.1]
        exact .ofRuntime fun calls w looked g failed _ =>
          avoids_attach fits.live there calls w looked g failed trivial

end Signal

/-- The walk of the bridge finds what the search of the object runtime finds, for a group of members
that both look for. -/
theorem eq_chainMember {group : MemberGroup} {p : Program (Option Token)}
    (finds : p.Finds v (v.database.Nearest group name t)) (sound : v.database.Sound)
    (distinct : v.database.Distinct) (found : v.database.entry? t = some e)
    (object : e.kind = .object) (calls : Calls) :
    (p.run calls v).1 = .done (v.database.chainMember? e.number group name)
      ∧ v.database.Nearest group name t (v.database.chainMember? e.number group name) := by
  have chained : v.database.Nearest group name t _ :=
    sound.nearest_chainMember distinct found (by rw [object]; rfl)
  obtain ⟨r, w', passes, _, nearest⟩ := finds calls v (.refl v)
  rw [passes.run, nearest.unique chained]
  exact ⟨rfl, chained⟩

/-- Where no two registered types share a type number, the bridge and the object runtime find the
same methods and signals, those that the nearest type declares first.  So on an instance, a handle
that is typed by the type of the instance or by an ancestor connects signals, and reads and writes
the properties that the bridge finds, without a failure that the runtime reports. -/
theorem searches_agree (calls : Calls) {w : World} (built : w.database.Built)
    (distinct : w.database.Distinct) :
    (∀ t e name, w.database.entry? t = some e → e.kind = .object →
        (((Member.findMethod t name).run calls w).1
              = .done (w.database.chainMember? e.number .method name)
            ∧ w.database.Nearest .method name t (w.database.chainMember? e.number .method name))
          ∧ ((Member.findSignal t name).run calls w).1
              = .done (w.database.chainMember? e.number .signal name)
            ∧ w.database.Nearest .signal name t (w.database.chainMember? e.number .signal name))
      ∧ ∀ h a i info, Handle.Fits w (w.store.handle h) a i info →
          (∀ name target userData f,
              ((Signal.connect h name target userData).run.run calls w).1
                ≠ .done (.error (.runtime f)))
            ∧ (∀ name m spelling,
                ((Member.findProperty info name).run calls w).1 = .done (some (m, spelling)) →
                (∀ f, ((Handle.readProperty (w.store.handle h) m spelling).run.run calls w).1
                    ≠ .done (.error (.runtime f)))
                  ∧ ∀ x f, ((Handle.writeProperty (w.store.handle h) m spelling x).run.run calls w).1
                    ≠ .done (.error (.runtime f)))
            ∧ (∀ name f, ((Handle.get h name).run.run calls w).1 ≠ .done (.error (.runtime f)))
            ∧ ∀ name x f, ((Handle.set h name x).run.run calls w).1
                ≠ .done (.error (.runtime f)) := by
  have sound := built.sound
  have spared {α : Type} {p : Bridge α} (avoids : Bridge.Avoids p w fun f => f.isRuntime = true)
      (f : RuntimeFailure) : (p.run.run calls w).1 ≠ .done (.error (.runtime f)) :=
    fun failed => avoids calls w (.refl w) _ failed rfl
  refine ⟨fun t e name found object => ⟨?_, ?_⟩, fun h a i info fits => ?_⟩
  · exact eq_chainMember (Member.finds_findMethod sound.toLinked found object) sound distinct found
      object calls
  · exact eq_chainMember (Member.finds_findSignal sound.toLinked (Database.has_of_entry found)) sound
      distinct found object calls
  · refine ⟨fun name target userData => spared (Signal.avoids_connect fits sound distinct),
      fun name m spelling found => ?_, fun name => spared (Handle.avoids_get fits sound distinct),
      fun name x => spared (Handle.avoids_set fits sound distinct)⟩
    obtain ⟨e, known⟩ := (fits.has sound.toLinked).entry
    have finds : (Member.findProperty info name).Finds w _ :=
      Member.finds_findProperty sound.toLinked known
    obtain ⟨property, w', passes, _, same⟩ := finds calls w (.refl w)
    rw [passes.run] at found
    have declared := Handle.ownMember?_of_findProperty same (Outcome.done.inj found)
    exact ⟨spared (Handle.avoids_readProperty fits sound distinct declared),
      fun x => spared (Handle.avoids_writeProperty fits sound distinct declared)⟩

/-- A new instance of a type that descends from another one. -/
def sampleInstance : Address × World :=
  World.createDirect { database := Member.sampleDatabase } 101

/-- A handle on the instance, which is typed by the ancestor. -/
def sampleHandle : World :=
  (sampleInstance.2.openHandle (some 1) (some ⟨sampleInstance.1, .retained⟩) none).2

theorem sampleHandle_fits :
    ∃ i, Handle.Fits sampleHandle (sampleHandle.store.handle 1) sampleInstance.1 i 1 := by
  have live : (sampleHandle.store.instances.get? sampleInstance.1).map Instance.number = some 101 := by
    decide +kernel
  have child : (sampleHandle.database.entry? 2).map (fun e => (e.kind, e.number))
      = some (.object, 101) := by decide +kernel
  obtain ⟨i, found, number⟩ := Option.map_eq_some_iff.mp live
  obtain ⟨e, known, same⟩ := Option.map_eq_some_iff.mp child
  obtain ⟨kind, equal⟩ := Prod.mk.inj same
  exact ⟨i, by decide +kernel, ⟨by decide +kernel, by decide +kernel⟩, found, 2, e, known,
    by rw [kind]; rfl, equal.trans number.symm, Member.sampleDatabase_descends⟩

theorem searches_agree_sample :
    ((Member.findMethod 2 "draw").run (Session.calls 0) sampleHandle).1 = .done (some 5)
      ∧ ∀ f, ((Handle.get 1 "width").run.run (Session.calls 0) sampleHandle).1
        ≠ .done (.error (.runtime f)) := by
  obtain ⟨found, spared⟩ := searches_agree (Session.calls 0) (w := sampleHandle)
    Member.sampleDatabase_built (by decide +kernel)
  have child : (sampleHandle.database.entry? 2).map (fun e => (e.kind, e.number))
      = some (.object, 101) := by decide +kernel
  obtain ⟨e, known, same⟩ := Option.map_eq_some_iff.mp child
  obtain ⟨kind, equal⟩ := Prod.mk.inj same
  obtain ⟨i, fits⟩ := sampleHandle_fits
  have chained : sampleHandle.database.chainMember? 101 .method "draw" = some 5 := by decide +kernel
  have drawn := (found 2 e "draw" known kind).1.1
  rw [equal, chained] at drawn
  exact ⟨drawn, (spared 1 sampleInstance.1 i 1 fits).2.2.1 "width"⟩

end ObjectBridge
