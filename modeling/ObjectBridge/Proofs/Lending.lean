import ObjectBridge.Proofs.Ending
import ObjectBridge.Proofs.Gathering
import ObjectBridge.Proofs.Holding

/-!
# What a decoded value lends

Decoding copies texts and the elements of arrays of a known length, and takes a reference to an
instance of an object type.  Of any other type that travels as an address, the value lends the
address in the slot, whatever is stored there and for however long.
-/

namespace ObjectBridge

/-- Whether an array with elements of a tag is decoded as its bare address. -/
def Tag.lends (element : Tag) (zeroTerminated : Bool) : Option Nat → Bool
  | some _ => !element.isString && element.scalar?.isNone
  | none => !(element.isString && zeroTerminated)

/-- Whether values in a shape stand for the address in the slot, whatever is stored there. -/
def Codec.Shape.lends (db : Database) : Codec.Shape → Bool
  | .array element zeroTerminated fixedSize =>
    (db.entry? element).any fun e => e.tag.lends zeroTerminated fixedSize
  | .interface _ | .record _ _ | .callback | .list => true
  | _ => false

/-- Whether values of a type stand for the address in the slot, whatever is stored there. -/
def Database.lends (db : Database) (t : Token) : Bool := (db.shape? t).any (Codec.Shape.lends db)

open Program Bridge Descriptor

variable {calls : Calls} {w w' : World} {a b : Address} {v : Value}

/-- Giving claims back lets nothing occur in a value that did not occur before. -/
theorem Value.Mentions.of_shrunk {s s' : Store} (mentions : v.Mentions s' a)
    (shrunk : s.Shrunk s') : v.Mentions s a := by
  cases v with
  | handle h =>
    obtain ⟨ownership, attached⟩ := mentions
    cases found : s'.handles.get? h with
    | none =>
      rw [Store.handle, found] at attached
      cases attached
    | some r' =>
      rw [Store.handle, found] at attached
      obtain ⟨r, before, attachment, _⟩ := shrunk.handles h r' found
      exact ⟨ownership, by rw [Store.handle, before]; exact attachment ▸ attached⟩
  | _ => exact mentions

theorem World.shrunk_settle (w : World) (mark : Nat) (kept : List Claim) :
    w.store.Shrunk (w.settle mark kept).2.store := by
  refine Store.Shrunk.trans ?_ (Store.release_shrunk _ _)
  exact Store.shrunk_of_eq rfl rfl rfl

namespace Program

variable {info : Option Token} {attachment : Option Attachment} {h : HandleId}

/-- A handle is made for what is asked; it takes a reference only to a live instance. -/
theorem run_openHandle {keeper : Option HandleId}
    (ran : (request (.openHandle info attachment keeper)).run calls w = (.done h, w')) :
    h = w.store.nextHandle ∧ h < w'.store.nextHandle
      ∧ (w'.store.handle h).attachment = attachment
      ∧ ∀ a, attachment = some ⟨a, .retained⟩ → w.store.isLive a = true := by
  have answered : (request (.openHandle info attachment keeper)).run calls w
      = w.openHandle info attachment keeper := run_request
  rw [answered] at ran
  let r : HandleRecord := { info := info, attachment := attachment, keeper := keeper }
  have added (made : (Outcome.done w.store.nextHandle, w.withStore (w.store.addHandle r).2)
      = (.done h, w')) :
      h = w.store.nextHandle ∧ h < w'.store.nextHandle
        ∧ (w'.store.handle h).attachment = attachment := by
    cases made
    refine ⟨rfl, Nat.lt_succ_self _, ?_⟩
    simp [Store.handle, World.withStore, Store.addHandle, Table.get?_insert_self, r]
  rcases attachment with _ | ⟨a, _ | _ | _⟩
  · exact ⟨(added ran).1, (added ran).2.1, (added ran).2.2, fun a same => by cases same⟩
  · by_cases live : w.store.isLive a = true
    · have made := ran
      simp only [World.openHandle, live, if_true] at made
      refine ⟨(added made).1, (added made).2.1, (added made).2.2, fun b same => ?_⟩
      cases same
      exact live
    · simp only [World.openHandle, live] at ran
      cases ran
  · exact ⟨(added ran).1, (added ran).2.1, (added ran).2.2, fun a same => by cases same⟩
  · exact ⟨(added ran).1, (added ran).2.1, (added ran).2.2, fun a same => by cases same⟩

/-- What a new handle on an address stands for. -/
theorem mentions_of_handle {ownership : Ownership}
    (ran : (request (.openHandle info (if a = 0 then none else some ⟨a, ownership⟩) none)
      >>= fun h : HandleId => pure (Value.handle h)).run calls w = (.done v, w'))
    (mentions : v.Mentions w'.store b) :
    b = a ∧ (ownership = .retained → w.store.isLive a = true) := by
  obtain ⟨h, w₁, made, last⟩ := run_bind_done.mp ran
  cases last
  obtain ⟨_, _, attached, live⟩ := run_openHandle made
  obtain ⟨kind, stands⟩ := mentions
  rw [attached] at stands
  by_cases null : a = 0
  · rw [if_pos null] at stands
    cases stands
  · rw [if_neg null] at stands live
    cases stands
    exact ⟨rfl, fun retained => live _ (by rw [retained])⟩

end Program

namespace Codec

variable {slot : Slot} {t declared : Token}

theorem mentions_decodeArray {m : Memory} {element : Tag} {zeroTerminated : Bool}
    {fixedSize : Option Nat} {s : Store}
    (mentions : (decodeArray m a element zeroTerminated fixedSize).Mentions s b) :
    b = a ∧ element.lends zeroTerminated fixedSize = true := by
  unfold decodeArray at mentions
  split at mentions
  · exact absurd mentions id
  · split at mentions
    · split at mentions
      · exact absurd mentions id
      · next other =>
        split at mentions
        · exact absurd mentions id
        · next none =>
          exact ⟨mentions.symm, by simp [Tag.lends, other, none]⟩
    · split at mentions
      · exact absurd mentions id
      · next other =>
        rw [Bool.not_eq_true] at other
        exact ⟨mentions.symm, by rw [Tag.lends, other]; rfl⟩

/-- What a handle on an address stands for that is made after looking around. -/
theorem mentions_of_retain {info : Option Token} {retain : Bool} {w₁ : World} (looked : w.Looked w₁)
    (ran : (if retain = true
        then Handle.retained info a >>= fun h => pure (Value.handle h)
        else Handle.borrowed info a >>= fun h => pure (Value.handle h)).run calls w₁ = (.done v, w'))
    (mentions : v.Mentions w'.store b) :
    b = a ∧ (retain = true → w.store.isLive a = true) := by
  cases retain with
  | true =>
    obtain ⟨same, live⟩ := mentions_of_handle ran mentions
    refine ⟨same, fun _ => ?_⟩
    rw [Store.isLive, ← looked.instances]
    exact live rfl
  | false => exact ⟨(mentions_of_handle ran mentions).1, fun retained => by cases retained⟩

/-- A wrapped instance is the one in the slot, and live if it is retained. -/
theorem mentions_wrapInstance {retain : Bool}
    (ran : (wrapInstance a declared retain).run calls w = (.done v, w'))
    (mentions : v.Mentions w'.store b) :
    b = a ∧ (retain = true → w.store.isLive a = true) := by
  obtain ⟨w₁, inside, rfl⟩ := run_region_done ran
  replace mentions := mentions.of_shrunk (w₁.shrunk_settle _ _)
  split at inside
  · cases inside
    exact absurd mentions id
  · obtain ⟨s, w₂, looked, rest⟩ := run_bind_done.mp inside
    obtain ⟨_, rfl⟩ := run_store.mp looked
    extract_lets give wrap at rest
    have wrapped (actual? : Option Token) {w₂ : World} (looked : w.Looked w₂)
        (ran : (wrap actual?).run calls w₂ = (.done v, w₁)) :
        b = a ∧ (retain = true → w.store.isLive a = true) := by
      cases actual? with
      | none => exact mentions_of_retain looked ran mentions
      | some actual =>
        obtain ⟨_, w₃, traced, opened⟩ := run_bind_done.mp ran
        exact mentions_of_retain (looked.trans (looked_of_run silent_trace reading_trace traced))
          opened mentions
    split at rest
    · obtain ⟨i, w₃, found, rest⟩ := run_bind_done.mp rest
      obtain ⟨_, rfl⟩ := run_liveInstance.mp found
      obtain ⟨actual?, w₄, registered, rest⟩ := run_bind_done.mp rest
      exact wrapped actual? (looked_of_run silent_registered reading_registered registered) rest
    · exact wrapped none (.refl w) rest

/-- A wrapped record is the one in the slot. -/
theorem mentions_wrapRecord (ran : (wrapRecord a declared).run calls w = (.done v, w'))
    (mentions : v.Mentions w'.store b) : b = a := by
  obtain ⟨w₁, inside, rfl⟩ := run_region_done ran
  replace mentions := mentions.of_shrunk (w₁.shrunk_settle _ _)
  split at inside
  · cases inside
    exact absurd mentions id
  · obtain ⟨_, w₂, _, rest⟩ := run_bind_done.mp inside
    obtain ⟨_, w₃, _, rest⟩ := run_bind_done.mp rest
    obtain ⟨_, w₄, _, rest⟩ := run_bind_done.mp rest
    split at rest <;> exact (mentions_of_handle rest mentions).1

/-- What a decoded value stands for is the address in the slot; of an object type, only if an
instance lives there. -/
theorem mentions_decodeShape {wanted : Shape}
    (ran : (decodeShape slot t wanted).run calls w = (.done v, w'))
    (mentions : v.Mentions w'.store b) :
    b = slot.address ∧ (wanted.lends w.database = true ∨ w.store.isLive b = true) := by
  cases wanted with
  | object target =>
    obtain ⟨rfl, live⟩ := mentions_wrapInstance ran mentions
    exact ⟨rfl, .inr (live rfl)⟩
  | interface target =>
    obtain ⟨_, _, looked, rest⟩ := run_bind_done.mp ran
    exact ⟨(mentions_wrapInstance rest mentions).1, .inl rfl⟩
  | record target boxed => exact ⟨mentions_wrapRecord ran mentions, .inl rfl⟩
  | list => exact ⟨(mentions_of_handle ran mentions).1, .inl rfl⟩
  | array element zeroTerminated fixedSize =>
    obtain ⟨m, w₁, looked, rest⟩ := run_bind_done.mp ran
    obtain ⟨_, rfl⟩ := run_memory.mp looked
    obtain ⟨e, w₂, found, last⟩ := run_bind_done.mp rest
    obtain ⟨known, rfl⟩ := run_entry.mp found
    cases last
    obtain ⟨same, lends⟩ := mentions_decodeArray mentions
    exact ⟨same, .inl (by simp only [Shape.lends, known, Option.any_some, lends])⟩
  | callback =>
    cases ran
    split at mentions
    · exact absurd mentions id
    · exact ⟨mentions.symm, .inl rfl⟩
  | scalar s =>
    cases ran
    cases s <;> exact absurd mentions id
  | text =>
    obtain ⟨m, w₁, _, last⟩ := run_bind_done.mp ran
    cases last
    unfold decodeText at mentions
    split at mentions <;> exact absurd mentions id
  | _ =>
    cases ran
    exact absurd mentions id

/-- What a decoded value stands for is the address in the slot, of a type whose values stand for
any address or of a live instance. -/
theorem mentions_decode (ran : Succeeds calls (decode slot t) w v w')
    (mentions : v.Mentions w'.store b) :
    b = slot.address ∧ (w.database.lends t = true ∨ w.store.isLive b = true) := by
  obtain ⟨w₁, inside, rfl⟩ := ran.region
  replace mentions := mentions.of_shrunk (w₁.shrunk_settle _ _)
  obtain ⟨wanted, w₂, shaped, rest⟩ := succeeds_bind.mp inside
  obtain ⟨_, w₃, traced, decoded⟩ := succeeds_bind.mp rest
  have looked := (shaped.looked silent_shape reading_shape).trans
    (traced.looked (silent_lift silent_trace) (reading_lift reading_trace))
  obtain ⟨same, lends⟩ := mentions_decodeShape (succeeds_lift.mp decoded) mentions
  rw [looked.database, Store.isLive, looked.instances] at lends
  refine ⟨same, lends.imp_left fun lends => ?_⟩
  rw [Database.lends, shape?_of_succeeds shaped, Option.any_some, lends]

end Codec
end ObjectBridge
