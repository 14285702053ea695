import ObjectBridge.Proofs.Gathering
import ObjectBridge.Proofs.Refusing

/-!
# Converting slots to values

Converting a slot makes at most one handle.  Which instance the handle retains depends on the
database alone: an instance of an object type, and a record whose type number stands for one.
-/

namespace ObjectBridge

/-- The entry that a type number stands for; zero is no type number. -/
def Database.typeOf? (db : Database) (number : TypeNumber) : Option Token :=
  if number = 0 then none else db.registered? number

/-- Whether the handle of a record retains it: the type number of the record stands for an object
type. -/
def Database.retains (db : Database) (target : Token) : Bool :=
  match db.entry? target with
  | some e => (db.entry? ((db.typeOf? e.number).getD target)).any fun f => f.kind = .object
  | none => false

/-- The instance that the value of a slot in a shape retains, if the shape is not that of an
instance of an object type or an interface. -/
def Codec.Shape.retained (db : Database) (slot : Slot) : Codec.Shape → List Address
  | .record target _ => if slot.address ≠ 0 && db.retains target then [slot.address] else []
  | _ => []

/-- The instance that the value of a slot under a type retains, if the type is no object type and no
interface. -/
def Database.retained (db : Database) (slot : Slot) (t : Token) : List Address :=
  match (db.entry? t).map (Codec.shapeFor db) with
  | some (.ok wanted) => wanted.retained db slot
  | _ => []

/-- The object or interface type that a type refers to. -/
def Database.viewed? (db : Database) (t : Token) : Option Token :=
  ((db.entry? t).bind Entry.target?).filter fun target =>
    (db.entry? target).any fun e => e.kind = .object || e.kind = .interface

theorem Database.viewed_iff {db : Database} {t : Nat} {e : Entry} (found : db.entry? t = some e)
    {target : Token} :
    db.viewed? t = some target
      ↔ e.target? = some target
        ∧ ∃ f, db.entry? target = some f ∧ (f.kind = .object ∨ f.kind = .interface) := by
  simp [viewed?, found, Option.filter_eq_some_iff, Option.any_eq_true]

open Program

theorem Descriptor.finds_registered {v : World} {number : TypeNumber} :
    Finds (registered? number) v (· = v.database.typeOf? number) := by
  unfold registered? Database.typeOf?
  split
  · exact finds_pure rfl
  · exact finds_database.next finds_take

namespace Codec

open Descriptor

variable {calls : Calls} {w : World} {a : Address} {t : Nat} {e : Entry} {slot : Slot}

/-- The handle of a live instance is typed by the entry that its type number stands for, if there
is one. -/
theorem yields_wrapInstance (calls : Calls) {i : Instance} (nonnull : a ≠ 0)
    (live : w.store.instances.get? a = some i) (declared : Token) :
    (wrapInstance a declared true).Yields calls w Value.claims [a] fun v w' =>
      ∃ h, v = .handle h
        ∧ w'.Stands h (some ((w.database.typeOf? i.number).getD declared))
          (some ⟨a, .retained⟩) := by
  have present {s : Store} (same : s.instances = w.store.instances) : s.isLive a = true := by
    rw [Store.isLive, Table.contains, same, live]
    rfl
  have made {w₁ : World} (looked : w.Looked w₁) (info : Token) :=
    yields_handle calls w₁ (some info) (some ⟨a, .retained⟩) (by simp)
      fun b member => List.mem_singleton.mp member ▸ present looked.instances
  refine Yields.region ?_ fun v w₁ w₂ stands given => by
    obtain ⟨h, same, stood⟩ := given
    exact ⟨h, same, stands h _ _ stood⟩
  rw [if_neg nonnull]
  refine finds_store.yields fun s w₁ looked₁ stored => ?_
  obtain ⟨same, _⟩ := stored
  extract_lets give wrap
  rw [if_pos (present same)]
  refine (finds_liveInstance (looked₁.instances ▸ live)).yields fun j w₂ looked₂ found => ?_
  cases found
  refine finds_registered.yields fun actual? w₃ looked₃ registered => ?_
  have looked := (looked₁.trans looked₂).trans looked₃
  have number : actual? = w.database.typeOf? i.number := by
    rw [registered, looked₂.database, looked₁.database]
  rw [← number]
  have retained (info : Token) :
      (Handle.retained (some info) a : Program HandleId)
        = request (.openHandle (some info) (some ⟨a, .retained⟩) none) := by
    rw [Handle.retained, if_neg nonnull]
  cases actual? with
  | some actual =>
    refine finds_trace.yields fun _ w₄ looked₄ _ => ?_
    dsimp only [give]
    rw [if_pos rfl, retained]
    exact made (looked.trans looked₄) actual
  | none =>
    dsimp only [wrap, give]
    rw [if_pos rfl, retained]
    exact made looked declared

/-- What a type number stands for is there. -/
theorem has_typeOf {db : Database} (sound : db.Sound) (number : TypeNumber) {declared : Token}
    (known : db.Has declared) : db.Has ((db.typeOf? number).getD declared) := by
  cases found : db.typeOf? number with
  | none => exact known
  | some t =>
    unfold Database.typeOf? at found
    split at found
    · cases found
    · obtain ⟨_, there, _⟩ := sound.registered number t found
      exact Database.has_of_entry there

/-- The handle of a record is only retained if its type number stands for an object type. -/
theorem yields_wrapRecord (calls : Calls) (sound : w.database.Sound) {target : Token}
    (known : w.database.Has target)
    (live : ∀ b ∈ if a ≠ 0 && w.database.retains target then [a] else [], w.store.isLive b = true) :
    (wrapRecord a target).Yields calls w Value.claims
      (if a ≠ 0 && w.database.retains target then [a] else []) fun _ _ => True := by
  obtain ⟨e, found⟩ := known.entry
  obtain ⟨f, info⟩ := (has_typeOf sound e.number known).entry
  have retains : w.database.retains target = decide (f.kind = .object) := by
    simp only [Database.retains, found, info, Option.any_some]
  refine Yields.region ?_ fun _ _ _ _ _ => trivial
  by_cases null : a = 0
  · rw [if_pos null, null]
    exact yields_pure calls w rfl trivial
  rw [if_neg null]
  refine (finds_entry found).yields fun e' w₁ looked₁ same => ?_
  cases same
  refine finds_registered.yields fun number? w₂ looked₂ registered => ?_
  have typed : (w₂.database.entry? (number?.getD target)) = some f := by
    rw [registered, looked₂.database, looked₁.database, info]
  refine (finds_entry typed).yields fun f' w₃ looked₃ same => ?_
  cases same
  have looked := (looked₁.trans looked₂).trans looked₃
  have isLive (b : Address) : w₃.store.isLive b = w.store.isLive b := by
    rw [Store.isLive, looked.instances]
    rfl
  dsimp only
  by_cases object : f.kind = .object
  · have taken : (if a ≠ 0 && w.database.retains target then [a] else []) = [a] := by
      simp [null, retains, object]
    rw [taken] at live ⊢
    rw [if_pos object, Handle.retained, if_neg null]
    exact (yields_handle calls w₃ _ (some ⟨a, .retained⟩) (by simp)
      fun b member => (isLive b).trans (live b member)).weaken fun _ _ _ => trivial
  · have taken : (if a ≠ 0 && w.database.retains target then [a] else []) = [] := by
      simp [retains, object]
    rw [taken, if_neg object, Handle.borrowed, if_neg null]
    exact (yields_handle calls w₃ _ (some ⟨a, .borrowed⟩) (by simp)
      fun b member => absurd member List.not_mem_nil).weaken fun _ _ _ => trivial

/-- The object or interface type of an instance, or the type of a record. -/
def Shape.target? : Shape → Option Token
  | object target | interface target | record target _ => some target
  | _ => none

theorem shapeForTarget_target {db : Database} {target u : Token} {f : Entry} {wanted : Shape}
    (shaped : shapeForTarget db target f = .ok wanted) (refers : wanted.target? = some u) :
    u = target := by
  unfold shapeForTarget at shaped
  repeat' split at shaped
  all_goals cases shaped
  all_goals cases refers
  all_goals rfl

/-- A type whose values are instances or records refers to their type. -/
theorem target_of_shapeFor {db : Database} {target : Token} {wanted : Shape}
    (shaped : shapeFor db e = .ok wanted) (refers : wanted.target? = some target) :
    e.target? = some target
      ∧ ∃ f, db.entry? target = some f ∧ shapeForTarget db target f = .ok wanted := by
  unfold shapeFor at shaped
  split at shaped
  case h_8 =>
    split at shaped
    · next target' named =>
      split at shaped
      · next f found =>
        cases shapeForTarget_target shaped refers
        exact ⟨named, f, found, shaped⟩
      · cases shaped
    · cases shaped
  case h_7 =>
    repeat' split at shaped
    all_goals cases shaped
    cases refers
  case h_9 =>
    split at shaped
    all_goals cases shaped
    cases refers
  all_goals
    cases shaped
    cases refers

/-- Only instances of object types and interfaces are viewed. -/
theorem viewed_of_shapeFor {db : Database} {target : Token} {wanted : Shape}
    (found : db.entry? t = some e) (shaped : shapeFor db e = .ok wanted)
    (instance_ : wanted = .object target ∨ wanted = .interface target) :
    db.viewed? t = some target := by
  have refers : wanted.target? = some target := by rcases instance_ with rfl | rfl <;> rfl
  obtain ⟨named, f, known, shape⟩ := target_of_shapeFor shaped refers
  have kind : f.kind = .object ∨ f.kind = .interface := by
    unfold shapeForTarget at shape
    repeat' split at shape
    all_goals cases shape
    all_goals simp_all
  exact (Database.viewed_iff found).mpr ⟨named, f, known, kind⟩

/-- An instance of an object type or an interface is not retained by its view. -/
theorem retained_of_viewed {db : Database} {target : Token} (viewed : db.viewed? t = some target)
    (slot : Slot) : db.retained slot t = [] := by
  cases found : db.entry? t with
  | none => simp [Database.retained, found]
  | some e =>
    obtain ⟨named, f, known, kind⟩ := (Database.viewed_iff found).mp viewed
    have tag : e.tag = .interface := by
      unfold Entry.target? at named
      split at named
      · next content => simp only [Entry.tag, content]
      · cases named
    have shaped : shapeFor db e = shapeForTarget db target f := by
      simp only [shapeFor, tag, named, known]
    rw [Database.retained, found, Option.map_some, shaped]
    rcases kind with same | same <;>
      simp [shapeForTarget, same, EntryKind.isEnumeration, Shape.retained]

/-- What a program gives that does not fail. -/
theorem Yields.lift {p : Program Value} {taken : List Address} {post : Value → World → Prop}
    (yields : p.Yields calls w Value.claims taken post) :
    (liftM p : Bridge Value).run.Yields calls w (Bridge.keepOk Value.claims) taken
      fun _ _ => True := by
  obtain ⟨v, w', entries, collects, only, _⟩ := yields
  exact ⟨.ok v, w', entries, collects.map (Except.ok : Value → Except Failure Value), only, trivial⟩

/-- A borrowed handle retains nothing. -/
theorem yields_borrowed (calls : Calls) (w : World) (info : Option Token) (a : Address) :
    (Handle.borrowed info a >>= fun h => pure (.handle h) : Program Value).Yields calls w
      Value.claims [] fun v w' =>
        ∃ h, v = .handle h
          ∧ w'.Stands h info (if a = 0 then none else some ⟨a, .borrowed⟩) := by
  have unblocked : ∀ b, (if a = 0 then none else some (⟨a, .borrowed⟩ : Attachment))
      ≠ some ⟨b, .block⟩ := fun b => by split <;> simp
  have taken : World.takenBy (if a = 0 then none else some ⟨a, .borrowed⟩) = [] := by
    split <;> rfl
  have yields := yields_handle calls w info _ unblocked fun b member => by
    rw [taken] at member
    exact absurd member List.not_mem_nil
  rw [taken] at yields
  exact yields

/-- A value that holds nothing. -/
theorem yields_bare (calls : Calls) (w : World) {v : Value} (bare : v.claims = []) :
    (pure v : Program Value).Yields calls w Value.claims [] fun _ _ => True :=
  yields_pure calls w bare trivial

theorem yields_decodeShape (calls : Calls) (slot : Slot) (sound : w.database.Sound)
    (found : w.database.entry? t = some e) {wanted : Shape}
    (shaped : shapeFor w.database e = .ok wanted) (direct : w.database.viewed? t = none)
    (live : ∀ b ∈ wanted.retained w.database slot, w.store.isLive b = true) :
    (decodeShape slot t wanted).Yields calls w Value.claims (wanted.retained w.database slot)
      fun _ _ => True := by
  cases wanted with
  | object target | interface target =>
    have viewed : w.database.viewed? t = some target :=
      viewed_of_shapeFor found shaped (by simp)
    rw [direct] at viewed
    cases viewed
  | record target boxed =>
    obtain ⟨_, f, known, _⟩ := target_of_shapeFor shaped rfl
    exact yields_wrapRecord calls sound (Database.has_of_entry known) live
  | list => exact (yields_borrowed calls w (some t) slot.address).weaken fun _ _ _ => trivial
  | text => exact finds_memory.yields fun m w₁ _ _ => yields_bare calls w₁ (claims_decodeText m _)
  | array element zeroTerminated fixedSize =>
    obtain ⟨f, known⟩ := (has_of_reference sound.toLinked found
      (mem_references_of_part (mem_parts_of_shapeFor shaped))).entry
    refine finds_memory.yields fun m w₁ looked _ => ?_
    exact Finds.yields (finds_entry (looked.database ▸ known)) fun f w₂ _ _ =>
      yields_bare calls w₂ (claims_decodeArray m _ _ _ _)
  | callback =>
    refine yields_bare calls w ?_
    split <;> rfl
  | scalar s | enumeration format => exact yields_bare calls w (claims_decodeScalar _ slot)
  | void | boolean => exact yields_bare calls w rfl

/-- Converting a slot to a value gathers what the value keeps. -/
theorem yields_decode (calls : Calls) (slot : Slot) (sound : w.database.Sound)
    (known : w.database.Has t) (direct : w.database.viewed? t = none)
    (live : ∀ b ∈ w.database.retained slot t, w.store.isLive b = true) :
    (decode slot t).run.Yields calls w (Bridge.keepOk Value.claims) (w.database.retained slot t)
      fun _ _ => True := by
  obtain ⟨e, found⟩ := known.entry
  have shapes : (shape t).run.Finds w (· = shapeFor w.database e) :=
    finds_shape sound.toLinked found
  rw [decode, Bridge.region_eq]
  refine Yields.region (shapes.yields fun shaped w₁ looked same => ?_) fun _ _ _ _ _ => trivial
  cases same
  have retained : w.database.retained slot t = match shapeFor w.database e with
      | .ok wanted => wanted.retained w.database slot
      | .error _ => [] := by
    rw [Database.retained, found, Option.map_some]
    cases shapeFor w.database e <;> rfl
  rw [retained] at live ⊢
  cases shaped : shapeFor w.database e with
  | error f => exact yields_pure calls w₁ rfl trivial
  | ok wanted =>
    rw [shaped] at live
    have traces : (liftM (trace [t]) : Bridge Unit).run.Finds w₁ fun r => r = .ok () :=
      finds_trace.bind fun _ _ => finds_pure rfl
    refine traces.yields fun r w₂ looked₂ same => ?_
    cases same
    have later := looked.trans looked₂
    have given := yields_decodeShape calls slot (later.database ▸ sound)
      (later.database.symm ▸ found) (later.database.symm ▸ shaped) (later.database.symm ▸ direct)
      fun b member => by
        rw [later.database] at member
        rw [Store.isLive, later.instances]
        exact live b member
    rw [later.database] at given
    exact Yields.lift given

end Codec
end ObjectBridge
