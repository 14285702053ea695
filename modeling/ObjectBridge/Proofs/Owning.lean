import ObjectBridge.Proofs.Ancestry
import ObjectBridge.Proofs.Opening

/-!
# What a decoded value owns

Decoding a slot opens a handle or gives a bare value.  The handle of a live instance retains it and
is typed after the runtime type of the instance; every other handle borrows, and is typed as was
declared.  Nothing else is counted, so dropping the value restores every count.
-/

namespace ObjectBridge

open Program Descriptor

variable {calls : Calls} {w w₁ w' : World} {a : Address} {t : Nat} {e : Entry} {slot : Slot}

namespace Database

variable {db : Database}

/-- The entry that a type number stands for is the only registered one of the number. -/
theorem Distinct.typeOf (distinct : db.Distinct) (sound : db.Sound)
    (found : db.entry? t = some e) (registered : e.kind.isRegistered = true)
    (numbered : e.number ≠ 0) : db.typeOf? e.number = some t := by
  obtain ⟨u, taken⟩ := sound.numbered t e found registered
  obtain ⟨f, there, kind, same⟩ := sound.registered e.number u taken
  rw [typeOf?, if_neg numbered, taken]
  exact congrArg some (distinct u t f e there found kind registered same)

/-- A record type is only found under its own type number. -/
theorem Distinct.record (distinct : db.Distinct) (sound : db.Sound)
    (found : db.entry? t = some e) (record : e.kind.isRecord = true) :
    (db.typeOf? e.number).getD t = t := by
  have registered : e.kind.isRegistered = true := by
    revert record
    cases e.kind <;> simp [EntryKind.isRecord, EntryKind.isRegistered]
  by_cases zero : e.number = 0
  · rw [typeOf?, if_pos zero]
    rfl
  · rw [distinct.typeOf sound found registered zero]
    rfl

end Database

/-- Everything counted is the same in a world that was left untouched. -/
theorem World.Untouched.restored (untouched : w.Untouched w') : w.Restored w' where
  toSteady := untouched.toSteady
  store := by rw [untouched.alike.rest]
  ledger := untouched.alike.ledger
  total := untouched.alike.total

/-- The record of a handle on an address, typed by an entry. -/
def Handle.on (info : Token) (a : Address) (ownership : Ownership) : HandleRecord :=
  { info := some info, attachment := if a = 0 then none else some ⟨a, ownership⟩ }

namespace Handle

variable {b : Address} {info : Token} {ownership : Ownership}

theorem free_on (unblocked : ownership ≠ .block) : World.Free (Handle.on info a ownership) := by
  refine ⟨rfl, fun b attached => unblocked ?_⟩
  rw [Handle.on, Option.ite_none_left_eq_some] at attached
  exact congrArg Attachment.ownership (Option.some.inj attached.2)

/-- A handle that is on an address takes a reference only there, and only if it retains. -/
theorem mem_takenBy_on (member : b ∈ World.takenBy (Handle.on info a ownership).attachment) :
    b = a ∧ ownership = .retained := by
  rw [Handle.on] at member
  split at member
  · exact absurd member List.not_mem_nil
  · cases ownership with
    | retained => exact ⟨List.mem_singleton.mp member, rfl⟩
    | borrowed | block => exact absurd member List.not_mem_nil

end Handle

namespace Codec

/-- Opening a handle after looking things up. -/
theorem hands_handle (calls : Calls) (looked : w.Looked w₁) (info : Token)
    {attachment : Option Attachment} (unblocked : ∀ a, attachment ≠ some ⟨a, .block⟩)
    (live : ∀ a ∈ World.takenBy attachment, w.store.isLive a = true) :
    ((request (.openHandle (some info) attachment none) : Program HandleId) >>=
        fun h => pure (.handle h) : Program Value).Hands calls w₁ (.handle w.store.nextHandle)
      { info := some info, attachment := attachment } := by
  obtain ⟨top, reading⟩ := looked.reading
  have next : w₁.store.nextHandle = w.store.nextHandle := by rw [reading.store]
  rw [← next]
  let r : HandleRecord := { info := some info, attachment := attachment }
  have free : World.Free r := ⟨rfl, unblocked⟩
  refine hands_open calls w₁ free rfl fun a member => ?_
  rw [Store.isLive, looked.instances]
  exact live a member

/-- The record of the handle of an instance: a live one has the type of its type number, if there
is one. -/
def instanceRecord (w : World) (a : Address) (declared : Token) (retain : Bool) : HandleRecord :=
  Handle.on (((w.typeAt a).bind w.database.typeOf?).getD declared) a
    (if retain then .retained else .borrowed)

/-- Wrapping an instance opens its handle. -/
theorem hands_wrapInstance (calls : Calls) (looked : w.Looked w₁) (present : a ≠ 0)
    (declared : Token) {retain : Bool} (live : retain = true → w.store.isLive a = true) :
    (wrapInstance a declared retain).Hands calls w₁ (.handle w.store.nextHandle)
      (instanceRecord w a declared retain) := by
  obtain ⟨top, reading⟩ := looked.reading
  have next : w₁.store.nextHandle = w.store.nextHandle := by rw [reading.store]
  refine Hands.region (by rw [next]; rfl) ?_
  rw [if_neg present]
  refine finds_store.hands spares_store fun s w₂ looked₂ memory₂ same => ?_
  have before := looked.trans looked₂
  have there : s.isLive a = w.store.isLive a := by
    rw [Store.isLive, same.1, looked.instances]
    rfl
  extract_lets give wrap
  have opened (info : Token) {w₃ : World} (later : w.Looked w₃) :
      (if retain then Handle.retained (some info) a >>= give
        else Handle.borrowed (some info) a >>= give).Hands calls w₃ (.handle w.store.nextHandle)
        (Handle.on info a (if retain then .retained else .borrowed)) := by
    rw [Handle.retained, Handle.borrowed, Handle.on, if_neg present, if_neg present,
      if_neg present]
    cases retain with
    | true =>
      exact hands_handle calls later info (by simp) fun b member =>
        List.mem_singleton.mp member ▸ live rfl
    | false =>
      exact hands_handle calls later info (by simp) fun b member =>
        absurd member List.not_mem_nil
  rw [there, instanceRecord]
  cases typed : w.typeAt a with
  | none =>
    have dead : w.store.isLive a = false := by rw [w.isLive_eq, typed]; rfl
    rw [dead]
    exact opened declared before
  | some number =>
    obtain ⟨i, found, rfl⟩ := Option.map_eq_some_iff.mp typed
    have alive : w.store.isLive a = true := by rw [w.isLive_eq, typed]; rfl
    rw [alive]
    refine (finds_liveInstance (before.instances ▸ found)).hands (spares_request rfl)
      fun j w₃ looked₃ _ same => ?_
    cases same
    refine finds_registered.hands spares_registered fun actual? w₄ looked₄ _ registered => ?_
    have later := (before.trans looked₃).trans looked₄
    rw [looked₃.database, before.database] at registered
    subst registered
    rw [Option.bind_some]
    cases w.database.typeOf? i.number with
    | some actual =>
      exact finds_trace.hands spares_trace fun _ w₅ last _ _ => opened actual (later.trans last)
    | none => exact opened declared later

/-- Wrapping a record opens a handle that borrows it. -/
theorem hands_wrapRecord (calls : Calls) (looked : w.Looked w₁) (present : a ≠ 0)
    (distinct : w.database.Distinct) (sound : w.database.Sound) {target : Nat} {f : Entry}
    (found : w.database.entry? target = some f) (record : f.kind.isRecord = true) :
    (wrapRecord a target).Hands calls w₁ (.handle w.store.nextHandle)
      (Handle.on target a .borrowed) := by
  obtain ⟨top, reading⟩ := looked.reading
  have next : w₁.store.nextHandle = w.store.nextHandle := by rw [reading.store]
  refine Hands.region (by rw [next]; rfl) ?_
  rw [if_neg present]
  refine (finds_entry (looked.database ▸ found)).hands spares_entry fun f' w₂ looked₂ _ same => ?_
  cases same
  refine finds_registered.hands spares_registered fun number? w₃ looked₃ _ registered => ?_
  have before := (looked.trans looked₂).trans looked₃
  have own : number?.getD target = target := by
    rw [registered, looked₂.database, looked.database, distinct.record sound found record]
  have plain : f.kind ≠ .object := fun object => by
    rw [object] at record
    cases record
  dsimp only
  rw [own]
  refine (finds_entry (before.database ▸ found)).hands spares_entry fun f' w₄ looked₄ _ same => ?_
  cases same
  rw [if_neg plain, Handle.borrowed, Handle.on, if_neg present]
  exact hands_handle calls (before.trans looked₄) target (by simp) fun b member =>
    absurd member List.not_mem_nil

/-- The type of a record is a record type. -/
theorem isRecord_of_shape {db : Database} {target u : Token} {f : Entry} {boxed : Bool}
    (shaped : shapeForTarget db target f = .ok (.record u boxed)) : f.kind.isRecord = true := by
  unfold shapeForTarget at shaped
  repeat' split at shaped
  all_goals first | assumption | cases shaped

/-- What decoding a slot does within its region. -/
def decodeWithin (slot : Slot) (t : Token) : Bridge Value := do
  let wanted ← shape t
  trace [t]
  decodeShape slot t wanted

theorem decode_eq (slot : Slot) (t : Token) :
    decode slot t = Bridge.region Value.claims (decodeWithin slot t) :=
  rfl

/-- Decoding a slot under a type opens the handle that the shape of the type opens. -/
theorem succeeds_decode_of_hands {wanted : Shape} {r : HandleRecord} (sound : w.database.Sound)
    (found : w.database.entry? t = some e) (shaped : shapeFor w.database e = .ok wanted)
    (hands : ∀ w₁, w.Looked w₁ →
      (decodeShape slot t wanted).Hands calls w₁ (.handle w.store.nextHandle) r) :
    ∃ w', Bridge.Succeeds calls (decode slot t) w (.handle w.store.nextHandle) w'
      ∧ w.Opens w' r [] := by
  have shapes : (shape t).run.Finds w (· = shapeFor w.database e) :=
    finds_shape sound.toLinked found
  have traces (w₁ : World) : (liftM (trace [t]) : Bridge Unit).run.Finds w₁ (· = .ok ()) :=
    finds_trace.bind fun _ _ => finds_pure rfl
  have body : (decodeWithin slot t).run.Hands calls w (.ok (.handle w.store.nextHandle)) r := by
    refine shapes.hands spares_shape fun r₁ w₁ looked _ same => ?_
    rw [shaped] at same
    cases same
    refine (traces w₁).hands (Bridge.spares_lift spares_trace) fun r₂ w₂ looked₂ _ same => ?_
    cases same
    obtain ⟨w', top, ran, opens⟩ := hands w₂ (looked.trans looked₂)
    exact ⟨w', top, Bridge.succeeds_lift.mpr ran, opens⟩
  have keeps : Bridge.keepOk Value.claims (.ok (.handle w.store.nextHandle) : Except Failure Value)
      = [.handle w.store.nextHandle] := rfl
  obtain ⟨w', ran, opens⟩ := body.closed keeps
  refine ⟨w', ?_, opens⟩
  rw [Bridge.Succeeds, decode_eq, Bridge.region_eq]
  exact ran

/-- Decoding a slot under a type whose shape gives a bare value leaves everything as it was. -/
theorem succeeds_decode_of_finds {wanted : Shape} {post : Value → Prop} (calls : Calls)
    (sound : w.database.Sound) (found : w.database.entry? t = some e)
    (shaped : shapeFor w.database e = .ok wanted) (bare : ∀ v, post v → v.claims = [])
    (finds : ∀ w₁, w.Looked w₁ → (decodeShape slot t wanted).Finds w₁ post) :
    ∃ v w', Bridge.Succeeds calls (decode slot t) w v w' ∧ post v ∧ w.Untouched w' := by
  have body : Bridge.Finds (decodeWithin slot t) w fun r => ∃ v, r = .ok v ∧ post v := by
    intro calls w₁ looked
    have shapes := finds_shape (v := w₁) (looked.database ▸ sound.toLinked)
      (looked.database ▸ found)
    rw [looked.database, shaped] at shapes
    have rest : Bridge.Finds (decodeWithin slot t) w₁ fun r => ∃ v, r = .ok v ∧ post v := by
      refine shapes.bind (fun wanted' same => ?_) fun f same => by cases same
      cases same
      refine Bridge.Finds.after finds_trace fun _ _ => ?_
      exact Bridge.finds_lift (finds w₁ looked) fun v holds => ⟨v, rfl, holds⟩
    exact rest calls w₁ (.refl w₁)
  obtain ⟨r, w', top, passes, reading, v, rfl, holds⟩ :=
    body.settled (Bridge.keepOk Value.claims) calls (.refl w)
  have kept : Bridge.keepOk Value.claims (.ok v : Except Failure Value) = [] := bare v holds
  rw [kept, Store.part_nil] at reading
  refine ⟨v, w', ?_, holds, reading.untouched passes.steady⟩
  rw [Bridge.Succeeds, decode_eq, Bridge.region_eq]
  exact passes.run

/-- Whether values travel as addresses in a shape. -/
def Shape.isPointer : Shape → Bool
  | .text | .array _ _ _ | .object _ | .interface _ | .record _ _ | .callback | .list => true
  | .void | .boolean | .scalar _ | .enumeration _ => false

/-- A slot that can be decoded in a shape: under an object type an address is null or that of a live
instance. -/
def Shape.Valid (w : World) (slot : Slot) : Shape → Prop
  | .object _ => slot.address = 0 ∨ w.store.isLive slot.address = true
  | _ => True

/-- The record of the handle that decoding a slot opens, if it opens one. -/
def opened? (w : World) (slot : Slot) (t : Token) : Shape → Option HandleRecord
  | .object target =>
    if slot.address = 0 then none else some (instanceRecord w slot.address target true)
  | .interface target =>
    if slot.address = 0 then none
    else some (instanceRecord w slot.address target (w.store.isLive slot.address))
  | .record target _ =>
    if slot.address = 0 then none else some (Handle.on target slot.address .borrowed)
  | .list => some (Handle.on t slot.address .borrowed)
  | _ => none

/-- What is opened is a handle on the address that borrows, or that retains a live instance under an
object type or an interface type. -/
theorem opened_on {wanted : Shape} {r : HandleRecord} (valid : wanted.Valid w slot)
    (opens : opened? w slot t wanted = some r) :
    ∃ info ownership, r = Handle.on info slot.address ownership ∧ ownership ≠ .block
      ∧ (ownership = .retained → w.store.isLive slot.address = true
        ∧ ∃ target, wanted = .object target ∨ wanted = .interface target) := by
  cases wanted with
  | object target =>
    obtain ⟨present, same⟩ := Option.ite_none_left_eq_some.mp opens
    exact ⟨_, .retained, (Option.some.inj same).symm, by simp,
      fun _ => ⟨valid.resolve_left present, target, .inl rfl⟩⟩
  | interface target =>
    obtain ⟨_, same⟩ := Option.ite_none_left_eq_some.mp opens
    refine ⟨_, _, (Option.some.inj same).symm, by split <;> simp, fun retained => ?_⟩
    cases live : w.store.isLive slot.address with
    | true => exact ⟨rfl, target, .inr rfl⟩
    | false =>
      rw [live] at retained
      cases retained
  | record target boxed =>
    obtain ⟨_, same⟩ := Option.ite_none_left_eq_some.mp opens
    exact ⟨_, .borrowed, (Option.some.inj same).symm, by simp, fun retained => by cases retained⟩
  | list =>
    exact ⟨_, .borrowed, (Option.some.inj opens).symm, by simp, fun retained => by cases retained⟩
  | _ => cases opens

/-- What is opened takes references to live instances only. -/
theorem opened_live {wanted : Shape} {r : HandleRecord} (valid : wanted.Valid w slot)
    (opens : opened? w slot t wanted = some r) :
    World.Free r ∧ r.shares = 1 ∧ ∀ a ∈ World.takenBy r.attachment, w.store.isLive a = true := by
  obtain ⟨info, ownership, rfl, unblocked, retains⟩ := opened_on valid opens
  refine ⟨Handle.free_on unblocked, rfl, fun a member => ?_⟩
  obtain ⟨rfl, retained⟩ := Handle.mem_takenBy_on member
  exact (retains retained).1

/-- Decoding opens the handle. -/
theorem hands_decodeShape (calls : Calls) (looked : w.Looked w₁) (distinct : w.database.Distinct)
    (sound : w.database.Sound) {wanted : Shape} {r : HandleRecord}
    (shaped : shapeFor w.database e = .ok wanted) (valid : wanted.Valid w slot)
    (opens : opened? w slot t wanted = some r) :
    (decodeShape slot t wanted).Hands calls w₁ (.handle w.store.nextHandle) r := by
  cases wanted with
  | object target =>
    obtain ⟨present, rfl⟩ := (Option.ite_none_left_eq_some.mp opens).imp_right Option.some.inj
    exact hands_wrapInstance calls looked present target fun _ => valid.resolve_left present
  | interface target =>
    obtain ⟨present, rfl⟩ := (Option.ite_none_left_eq_some.mp opens).imp_right Option.some.inj
    refine finds_store.hands spares_store fun s w₂ looked₂ _ same => ?_
    have there : (slot.address ≠ 0 && s.isLive slot.address) = w.store.isLive slot.address := by
      rw [decide_eq_true present, Bool.true_and, Store.isLive, same.1, looked.instances]
      rfl
    rw [there]
    exact hands_wrapInstance calls (looked.trans looked₂) present target id
  | record target boxed =>
    obtain ⟨present, rfl⟩ := (Option.ite_none_left_eq_some.mp opens).imp_right Option.some.inj
    obtain ⟨_, f, known, shape⟩ := target_of_shapeFor shaped rfl
    exact hands_wrapRecord calls looked present distinct sound known (isRecord_of_shape shape)
  | list =>
    cases opens
    have unblocked (b : Address) : (if slot.address = 0 then none
        else some (⟨slot.address, .borrowed⟩ : Attachment)) ≠ some ⟨b, .block⟩ := by
      split <;> simp
    refine hands_handle calls looked t unblocked fun b member => ?_
    split at member <;> exact absurd member List.not_mem_nil
  | _ => cases opens

/-- Decoding gives a bare value, which is the absent value for a null address. -/
theorem finds_decodeShape {wanted : Shape} (linked : w.database.Linked)
    (found : w.database.entry? t = some e) (shaped : shapeFor w.database e = .ok wanted)
    (looked : w.Looked w₁) (bare : opened? w slot t wanted = none) :
    (decodeShape slot t wanted).Finds w₁ fun v =>
      v.claims = [] ∧ (wanted.isPointer = true → slot.address = 0 → v = .nil) := by
  cases wanted with
  | void => exact finds_pure ⟨rfl, fun _ _ => rfl⟩
  | boolean => exact finds_pure ⟨rfl, fun pointer => by cases pointer⟩
  | scalar s | enumeration format =>
    exact finds_pure ⟨claims_decodeScalar _ slot, fun pointer => by cases pointer⟩
  | text =>
    exact finds_memory.bind fun m _ =>
      finds_pure ⟨claims_decodeText m _, fun _ null => if_pos null⟩
  | array element zeroTerminated fixedSize =>
    obtain ⟨f, known⟩ := (has_of_reference linked found
      (mem_references_of_part (mem_parts_of_shapeFor shaped))).entry
    refine finds_memory.bind fun m _ => (finds_entry (looked.database ▸ known)).next ?_
    exact finds_pure ⟨claims_decodeArray m _ _ _ _, fun _ null => if_pos null⟩
  | callback =>
    refine finds_pure ⟨?_, fun _ null => if_pos null⟩
    split <;> rfl
  | object target =>
    have null : slot.address = 0 := by
      by_contra present
      simp [opened?, present] at bare
    refine Finds.region ?_
    rw [if_pos null]
    exact finds_pure ⟨rfl, fun _ _ => rfl⟩
  | interface target =>
    have null : slot.address = 0 := by
      by_contra present
      simp [opened?, present] at bare
    refine finds_store.bind fun s _ => Finds.region ?_
    rw [if_pos null]
    exact finds_pure ⟨rfl, fun _ _ => rfl⟩
  | record target boxed =>
    have null : slot.address = 0 := by
      by_contra present
      simp [opened?, present] at bare
    refine Finds.region ?_
    rw [if_pos null]
    exact finds_pure ⟨rfl, fun _ _ => rfl⟩
  | list => cases bare

/-- What a decoded value is, and which references it takes. -/
structure Owned (w w' : World) (slot : Slot) (t : Token) (wanted : Shape) (v : Value) : Prop where
  /-- A null address is the absent value, and for a list a handle without an instance. -/
  null : wanted.isPointer = true → slot.address = 0 →
    v.shown w'.store = if wanted = .list then .handle (some t) none else .bare .nil
  /-- A live instance of a registered type is retained once, and its handle is typed by the entry of
  the type of the instance, whatever type was declared. -/
  retained : ∀ target i, (wanted = .object target ∨ wanted = .interface target) →
    slot.address ≠ 0 → w.store.instances.get? slot.address = some i → i.number ≠ 0 →
    ∀ own f, w.database.entry? own = some f → f.kind.isRegistered = true → f.number = i.number →
      v.shown w'.store = .handle (some own) (some ⟨slot.address, .retained⟩)
        ∧ w'.store.references slot.address = w.store.references slot.address + 1
  /-- What is no live instance is borrowed under an interface type, and everything is under a record
  type; the handle is typed as was declared. -/
  borrowed : ∀ target, (wanted = .interface target ∧ w.store.isLive slot.address = false
      ∨ ∃ boxed, wanted = .record target boxed) → slot.address ≠ 0 →
    v.shown w'.store = .handle (some target) (some ⟨slot.address, .borrowed⟩)
  /-- Only an object type or an interface type has a reference taken. -/
  untaken : (∀ target, wanted ≠ .object target ∧ wanted ≠ .interface target) →
    ∀ b, w'.store.references b = w.store.references b
  /-- No reference is taken to another instance. -/
  others : ∀ b, b ≠ slot.address → w'.store.references b = w.store.references b
  /-- The same instances are live. -/
  live : ∀ b, w'.store.isLive b = w.store.isLive b

/-- A value for an opened handle owns what the handle retains. -/
theorem owned_of_opens {wanted : Shape} {r : HandleRecord} (distinct : w.database.Distinct)
    (sound : w.database.Sound) (valid : wanted.Valid w slot)
    (opened : opened? w slot t wanted = some r) (opens : w.Opens w' r []) :
    Owned w w' slot t wanted (.handle w.store.nextHandle) := by
  obtain ⟨free, _, live⟩ := opened_live valid opened
  have references := opens.references free live
  have shown : (Value.handle w.store.nextHandle).shown w'.store = .handle r.info r.attachment := by
    rw [Value.shown, Store.handle, opens.store, Table.get?_insert_self]
    rfl
  have taken (b : Address) (member : b ∈ World.takenBy r.attachment) : b = slot.address
      ∧ ∃ target, wanted = .object target ∨ wanted = .interface target := by
    obtain ⟨info, ownership, rfl, _, retains⟩ := opened_on valid opened
    obtain ⟨there, retained⟩ := Handle.mem_takenBy_on member
    exact ⟨there, (retains retained).2⟩
  have untaken {b : Address} (none : b ∉ World.takenBy r.attachment) :
      w'.store.references b = w.store.references b := by
    rw [references, List.count_eq_zero.mpr none, Nat.add_zero]
  refine ⟨fun _ null => ?_,
    fun target i shape present found numbered own f known registered same => ?_,
    fun target shape present => ?_, fun other b => untaken fun member => ?_,
    fun b other => untaken fun member => other (taken b member).1, fun b => ?_⟩
  · cases wanted with
    | list =>
      cases opened
      rw [shown, Handle.on, if_pos null, if_pos rfl]
    | object target | interface target | record target boxed =>
      exact absurd null (Option.ite_none_left_eq_some.mp opened).1
    | _ => cases opened
  · have alive : w.store.isLive slot.address = true := by
      rw [Store.isLive, Table.contains, found]
      rfl
    have typed : w.database.typeOf? i.number = some own :=
      same ▸ distinct.typeOf sound known registered (same ▸ numbered)
    have number : w.typeAt slot.address = some i.number := by
      rw [World.typeAt, found]
      rfl
    have record : r = { info := some own, attachment := some ⟨slot.address, .retained⟩ } := by
      rcases shape with rfl | rfl
      all_goals
        obtain ⟨_, rfl⟩ := (Option.ite_none_left_eq_some.mp opened).imp_right Option.some.inj
        simp only [instanceRecord, Handle.on, number, Option.bind_some, typed, Option.getD_some,
          alive, if_true, if_neg present]
    rw [shown, references, record]
    exact ⟨rfl, by simp [World.takenBy]⟩
  · rw [shown]
    rcases shape with ⟨rfl, dead⟩ | ⟨boxed, rfl⟩
    · obtain ⟨_, rfl⟩ := (Option.ite_none_left_eq_some.mp opened).imp_right Option.some.inj
      have number : w.typeAt slot.address = none := by
        rw [w.isLive_eq] at dead
        exact Option.not_isSome_iff_eq_none.mp (ne_true_of_eq_false dead)
      simp [instanceRecord, Handle.on, number, dead, present]
    · obtain ⟨_, rfl⟩ := (Option.ite_none_left_eq_some.mp opened).imp_right Option.some.inj
      simp [Handle.on, present]
  · obtain ⟨_, target, shape⟩ := taken b member
    exact shape.elim (other target).1 (other target).2
  · rw [Store.isLive, opens.store]
    exact Store.isLive_claimAll b r.claims w.store

/-- A bare value owns nothing. -/
theorem owned_of_untouched {wanted : Shape} {v : Value}
    (absent : wanted.isPointer = true → slot.address = 0 → v = .nil)
    (unopened : opened? w slot t wanted = none) (untouched : w.Untouched w') :
    Owned w w' slot t wanted v := by
  have same (b : Address) : w'.store.references b = w.store.references b := by
    rw [Store.references, untouched.instances]
    rfl
  have null {target : Token} (shape : wanted = .object target ∨ wanted = .interface target
      ∨ ∃ boxed, wanted = .record target boxed) : slot.address = 0 := by
    by_contra present
    rcases shape with rfl | rfl | ⟨boxed, rfl⟩ <;> simp [opened?, present] at unopened
  refine ⟨fun pointer zero => ?_, fun target i shape present => ?_, fun target shape present => ?_,
    fun _ => same, fun b _ => same b, fun b => ?_⟩
  · rw [absent pointer zero, if_neg]
    · rfl
    · rintro rfl
      cases unopened
  · exact absurd (null (shape.imp_right .inl)) present
  · exact absurd (null (.inr (shape.imp_left And.left))) present
  · rw [Store.isLive, untouched.instances]
    rfl

/-- Decoding settles ownership by the declared type and by what lies at the address.  A null address
is the absent value, and for a list a handle without an instance.  A live instance of a registered
type is retained once under an object type or an interface type, with a handle of its own type;
under an interface type or a record type anything else is borrowed under the declared type.  Nothing
else takes a reference, and dropping the value restores every count. -/
theorem decode_owned (calls : Calls) {w : World} (orderly : w.Orderly) (built : w.database.Built)
    (distinct : w.database.Distinct) {t : Nat} {e : Entry} (found : w.database.entry? t = some e)
    {wanted : Shape} (shaped : shapeFor w.database e = .ok wanted) (slot : Slot)
    (valid : wanted.Valid w slot) :
    ∃ v w', Bridge.Succeeds calls (decode slot t) w v w' ∧ Owned w w' slot t wanted v
      ∧ ∃ w'', (drop v).run calls w' = (.done (), w'') ∧ w.Restored w'' := by
  have sound := built.sound
  cases opened : opened? w slot t wanted with
  | some r =>
    obtain ⟨free, single, live⟩ := opened_live valid opened
    obtain ⟨w', ran, opens⟩ := succeeds_decode_of_hands sound found shaped fun w₁ looked =>
      hands_decodeShape calls looked distinct sound shaped valid opened
    exact ⟨_, w', ran, owned_of_opens distinct sound valid opened opens,
      run_drop calls opens free single orderly live⟩
  | none =>
    obtain ⟨v, w', ran, ⟨bare, null⟩, untouched⟩ := succeeds_decode_of_finds calls sound found
      shaped (fun v holds => holds.1) fun w₁ looked =>
        finds_decodeShape sound.toLinked found shaped looked opened
    refine ⟨v, w', ran, owned_of_untouched null opened untouched, w', ?_,
      untouched.restored⟩
    rw [drop, bare]
    rfl

/-- An object type, a type that descends from it, and a type whose values are instances of the
first. -/
def sampleFamily : Database :=
  let base := (({} : Database).addObject "Demo" "Base" none false).2
  let child := (base.addObject "Demo" "Child" (some 1) false).2
  (child.addType (.reference 1)).2

theorem sampleFamily_built : sampleFamily.Built := by
  refine .next (.next (.next .empty (.object "Demo" "Base" false ?_))
    (.object "Demo" "Child" false ?_)) (.type ?_)
  all_goals decide

/-- A world with the types and no instance. -/
def sampleFamilyStart : World :=
  { database := sampleFamily, bench := { identifiers := [("Child", 2)] } }

/-- The world in which there is an instance of the second type. -/
def sampleChild : World := (Session.advanceAll 1 [.newInstance "Child" "x"] sampleFamilyStart).2

/-- The address of the instance. -/
def sampleChildAddress : Address := (sampleChild.bench.book.lookup "x").getD 0

theorem sampleChild_orderly : sampleChild.Orderly :=
  Session.boundaries_orderly 1 _
    ⟨Store.accounted_empty (by decide), fun a member => absurd member List.not_mem_nil⟩ _
    (Session.last_mem_boundaries 1 [.newInstance "Child" "x"] sampleFamilyStart)

theorem decode_owned_child :
    ∃ v w', Bridge.Succeeds (Session.calls 1) (decode (.ofAddress sampleChildAddress) 3)
        sampleChild v w'
      ∧ v.shown w'.store = .handle (some 2) (some ⟨sampleChildAddress, .retained⟩)
      ∧ w'.store.references sampleChildAddress
        = sampleChild.store.references sampleChildAddress + 1
      ∧ ∃ w'', (drop v).run (Session.calls 1) w' = (.done (), w'') ∧ sampleChild.Restored w'' := by
  have same : sampleChild.database = sampleFamily := by decide +kernel
  have distinct : sampleChild.database.Distinct := by
    rw [same]
    decide +kernel
  have typed : (sampleChild.database.entry? 3).map (shapeFor sampleChild.database)
      = some (.ok (.object 1)) := by decide +kernel
  obtain ⟨e, found, shaped⟩ := Option.map_eq_some_iff.mp typed
  have there : (sampleChild.store.instances.get? sampleChildAddress).map Instance.number
      = (sampleChild.database.entry? 2).map Entry.number := by decide +kernel
  have registered : ((sampleChild.database.entry? 2).any fun f =>
      f.kind.isRegistered && decide (f.number ≠ 0)) = true := by decide +kernel
  obtain ⟨f, known⟩ : ∃ f, sampleChild.database.entry? 2 = some f :=
    Option.isSome_iff_exists.mp (by decide +kernel)
  rw [known, Option.any_some, Bool.and_eq_true, decide_eq_true_eq] at registered
  obtain ⟨kind, numbered⟩ := registered
  rw [known] at there
  obtain ⟨i, live, number⟩ := Option.map_eq_some_iff.mp there
  have valid : (Shape.object 1).Valid sampleChild (.ofAddress sampleChildAddress) :=
    .inr (by decide +kernel)
  obtain ⟨v, w', ran, owned, dropped⟩ := decode_owned (Session.calls 1) sampleChild_orderly
    (same ▸ sampleFamily_built) distinct found shaped (.ofAddress sampleChildAddress) valid
  obtain ⟨shown, counted⟩ := owned.retained 1 i (.inl rfl) (by decide +kernel) live
    (number ▸ numbered) 2 f known kind number.symm
  exact ⟨v, w', ran, shown, counted, dropped⟩

end Codec
end ObjectBridge
