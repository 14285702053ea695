import ObjectBridge.Proofs.Copying
import ObjectBridge.Proofs.Displaying

/-!
# What is kept of a value

The slot of a value stands for it as long as the string that it may lead to is there.  Truth values
become one or zero, integers keep their low bits, texts lie in storage of their own, and instances
and records travel as their addresses.  Decoded later, such a slot shows the value as its type
normalizes it.
-/

namespace ObjectBridge

open Program Bridge

variable {calls : Calls} {w w₁ w' : World} {m m' : Memory} {t : Nat} {e : Entry} {v : Value}
  {slot kept : Slot} {s : Store}

namespace Codec

variable {wanted : Shape}

/-- The shapes of truth values, integers, texts, and of instances and records other than generic
value boxes. -/
def Shape.isLasting : Shape → Bool
  | .boolean | .scalar (.integer _) | .enumeration _ | .text => true
  | .object _ | .interface _ | .record _ false => true
  | _ => false

/-- A slot stands for a value in a shape. -/
def StandsFor (s : Store) (v : Value) (m : Memory) (slot : Slot) : Shape → Prop
  | .boolean => slot = .ofBool (truthy s v)
  | .scalar (.integer f) | .enumeration f =>
    ∃ n, v.toInt? = some n ∧ slot = .ofInteger f n.toInt
  | .text => (v = .nil ∧ slot = .zero)
    ∨ ∃ text, v = .str text ∧ slot.address ≠ 0 ∧ m.Holds slot.address (Text.encode text)
  | .object _ | .interface _ | .record _ _ => addressOf s v = .ok slot.address
  | _ => False

theorem truthy_congr {s s' : Store} (same : s'.handles = s.handles) (v : Value) :
    truthy s' v = truthy s v := by
  cases v with
  | handle h => simp only [truthy, Store.handle, same]
  | _ => rfl

/-- What is encoded as an integer. -/
theorem encodeScalar_integer {f : IntegerFormat}
    (encoded : encodeScalar (.integer f) v = .ok slot) :
    ∃ n, v.toInt? = some n ∧ slot = .ofInteger f n.toInt := by
  rw [encodeScalar] at encoded
  cases number : v.toInt? with
  | none => rw [number] at encoded; cases encoded
  | some n => rw [number] at encoded; exact ⟨n, rfl, (Except.ok.inj encoded).symm⟩

/-- What is encoded in a lasting shape other than that of texts stands for the value. -/
theorem standsFor_of_encodeShape {block block' : ArgumentBlock} (looked : w.Looked w₁)
    (lasting : wanted.isLasting = true) (other : wanted ≠ .text)
    (ran : Succeeds calls (encodeShape v wanted block) w₁ (slot, block') w') :
    StandsFor w.store v m slot wanted := by
  have address (ran : Succeeds calls (do
      let s ← Program.store
      let a ← addressOf s v
      return (Slot.ofAddress a, block) : Bridge (Slot × ArgumentBlock)) w₁ (slot, block') w') :
      addressOf w.store v = .ok slot.address := by
    obtain ⟨s, w₂, looks, ran⟩ := succeeds_bind.mp ran
    obtain ⟨a, w₃, found, ran⟩ := succeeds_bind.mp ran
    cases succeeds_lift.mp looks
    obtain ⟨found, rfl⟩ := succeeds_except.mp found
    obtain ⟨same, rfl⟩ := succeeds_pure.mp ran
    cases same
    rwa [← addressOf_congr looked.handles]
  have integer {f : IntegerFormat} (ran : Succeeds calls (do
      let slot ← encodeScalar (.integer f) v
      return (slot, block) : Bridge (Slot × ArgumentBlock)) w₁ (slot, block') w') :
      ∃ n, v.toInt? = some n ∧ slot = .ofInteger f n.toInt := by
    obtain ⟨_, w₂, first, ran⟩ := succeeds_bind.mp ran
    obtain ⟨encoded, _⟩ := succeeds_except.mp first
    obtain ⟨same, _⟩ := succeeds_pure.mp ran
    cases same
    exact encodeScalar_integer encoded
  match wanted, lasting with
  | .boolean, _ =>
    obtain ⟨s, w₂, looks, ran⟩ := succeeds_bind.mp ran
    cases succeeds_lift.mp looks
    obtain ⟨same, rfl⟩ := succeeds_pure.mp ran
    cases same
    exact congrArg Slot.ofBool (truthy_congr looked.handles v)
  | .scalar (.integer f), _ => exact integer ran
  | .enumeration f, _ => exact integer ran
  | .text, _ => exact absurd rfl other
  | .object target, _ => exact address ran
  | .interface target, _ => exact address ran
  | .record target false, _ => exact address ran

/-- The tags of the types that have a shape. -/
def Shape.Tagged (tag : Tag) : Shape → Prop
  | .void => tag = .void
  | .boolean => tag = .boolean
  | .scalar s => tag.scalar? = some s
  | .text => tag.isString = true
  | .array _ _ _ => tag = .array
  | .list => tag = .glist ∨ tag = .gslist
  | .enumeration _ | .object _ | .interface _ | .record _ _ | .callback => tag = .interface

/-- Only texts have the tag of a string. -/
theorem Shape.Tagged.plain {tag : Tag} (tagged : wanted.Tagged tag) (other : wanted ≠ .text) :
    tag.isString = false := by
  cases wanted with
  | text => exact absurd rfl other
  | scalar s =>
    revert tagged
    cases tag <;> simp [Tagged, Tag.isString, Tag.scalar?]
  | list => rcases tagged with rfl | rfl <;> rfl
  | _ => cases tagged; rfl

theorem tagged_of_shapeForTarget {db : Database} {target : Token}
    (shaped : shapeForTarget db target e = .ok wanted) : wanted.Tagged .interface := by
  unfold shapeForTarget at shaped
  split at shaped
  · split at shaped <;> cases shaped
    rfl
  · repeat' split at shaped
    all_goals cases shaped
    all_goals rfl

theorem tagged_of_shapeFor {db : Database} (shaped : shapeFor db e = .ok wanted) :
    wanted.Tagged e.tag := by
  unfold shapeFor at shaped
  cases tagged : e.tag <;> rw [tagged] at shaped
  case interface =>
    dsimp only at shaped
    repeat' split at shaped
    · exact tagged_of_shapeForTarget shaped
    all_goals cases shaped
  case array =>
    dsimp only at shaped
    repeat' split at shaped
    all_goals cases shaped
    rfl
  case glist => cases shaped; exact .inl rfl
  case gslist => cases shaped; exact .inr rfl
  all_goals cases shaped <;> rfl

/-- What is encoded under a type of a lasting shape stands for the value. -/
theorem standsFor_of_encode {block block' : ArgumentBlock} (linked : w.database.Linked)
    (reserved : 0 < w.memory.next) (found : w.database.entry? t = some e)
    (shaped : shapeFor w.database e = .ok wanted) (lasting : wanted.isLasting = true)
    (looked : w.Looked w₁)
    (ran : Succeeds calls (encode v t block) w₁ (slot, block') w') :
    StandsFor w.store v w'.memory slot wanted := by
  have database : w₁.database = w.database := looked.database
  by_cases text : wanted = .text
  · subst text
    have string : e.tag.isString = true := tagged_of_shapeFor shaped
    have tagged : tag? w₁.database t = some e.tag := by rw [tag?, database, found]; rfl
    rcases encoded_string (database ▸ linked) tagged string ran with
      absent | ⟨text, same, fresh, held⟩
    · exact .inl absent
    · have present : slot.address ≠ 0 := by
        rw [fresh]
        exact Nat.ne_of_gt (Nat.lt_of_lt_of_le reserved looked.next)
      exact .inr ⟨text, same, present, held⟩
  · obtain ⟨w₂, body, _⟩ := ran.region
    obtain ⟨wanted', w₃, first, body⟩ := succeeds_bind.mp body
    have same : Except.ok wanted' = shapeFor w.database e :=
      (finds_shape linked found).of_run looked first
    cases same.trans shaped
    have looked₃ : w.Looked w₃ := looked.trans (first.looked silent_shape reading_shape)
    obtain ⟨_, w₄, traced, body⟩ := succeeds_bind.mp body
    have looked₄ : w.Looked w₄ := looked₃.trans
      (traced.looked (silent_lift silent_trace) (reading_lift reading_trace))
    exact standsFor_of_encodeShape looked₄ lasting text body

theorem StandsFor.mono (stands : StandsFor s v m slot wanted) (grown : m.Extends m') :
    StandsFor s v m' slot wanted := by
  match wanted, stands with
  | .boolean, stands | .scalar (.integer f), stands | .enumeration f, stands
  | .object _, stands | .interface _, stands | .record _ _, stands => exact stands
  | .text, .inl absent => exact .inl absent
  | .text, .inr ⟨text, same, present, held⟩ => exact .inr ⟨text, same, present, held.mono grown⟩

end Codec

namespace Runtime

variable {tag : Tag}

/-- What is kept of a slot: the slot itself, but of a native text a copy in new storage. -/
structure CopiedText (m m' : Memory) (tag : Tag) (slot kept : Slot) : Prop where
  /-- Anything but a native string is kept as it is. -/
  plain : tag.isString = false ∨ slot.isNull = true → kept = slot
  /-- A copy lies in new storage, and it has the same text. -/
  text : tag.isString = true → slot.isNull = false → m.next ≤ kept.address
    ∧ ∀ text, m.Holds slot.address (Text.encode text) → m'.Holds kept.address (Text.encode text)

theorem Copied.text (copied : Copied m m' tag slot kept) : CopiedText m m' tag slot kept where
  plain := copied.plain
  text string there := ⟨(copied.string string there).1, fun _ => (copied.string string there).2 _⟩

/-- A field keeps a copy of a text, which it reads and stores again. -/
theorem run_fieldSlot (calls : Calls) (tag : Tag) (slot : Slot) (w : World) :
    ∃ kept m, (fieldSlot tag slot).run calls w = (.done kept, { w with memory := m })
      ∧ w.memory.Extends m ∧ CopiedText w.memory m tag slot kept := by
  unfold fieldSlot
  by_cases text : (tag.isString && !slot.isNull) = true
  · rw [if_pos text]
    rw [Bool.and_eq_true, Bool.not_eq_true'] at text
    let cells := Cell.ofBytes (Text.encode (w.memory.text slot.address) ++ [0])
    refine ⟨.ofAddress w.memory.next, (w.memory.place cells cells.length).2, rfl,
      w.memory.extends_place cells _, fun other => ?_, fun _ _ => ⟨Nat.le_refl _, ?_⟩⟩
    · rcases other with plain | null
      · exact absurd (text.1.symm.trans plain) (by decide)
      · exact absurd (null.symm.trans text.2) (by decide)
    · intro bytes holds
      have same : cells = Cell.ofBytes (Text.encode bytes ++ [0]) := by rw [← holds.text]
      rw [same]
      exact w.memory.holds_place holds.plain _
  · rw [if_neg text]
    refine ⟨slot, w.memory, rfl, .refl _, fun _ => rfl, fun string there => ?_⟩
    exact absurd (by rw [string, there]; rfl) text

/-- What is kept of a slot stands for the value that the slot stands for. -/
theorem CopiedText.standsFor {wanted : Codec.Shape} (copied : CopiedText m m' tag slot kept)
    (reserved : 0 < m.next) (grown : m.Extends m') (tagged : wanted.Tagged tag)
    (stands : Codec.StandsFor s v m slot wanted) : Codec.StandsFor s v m' kept wanted := by
  by_cases text : wanted = .text
  · subst text
    rcases stands with ⟨rfl, rfl⟩ | ⟨text, rfl, present, held⟩
    · exact .inl ⟨rfl, copied.plain (.inr rfl)⟩
    · have there : slot.isNull = false := decide_eq_false present
      obtain ⟨fresh, same⟩ := copied.text tagged there
      exact .inr ⟨text, rfl, Nat.ne_of_gt (Nat.lt_of_lt_of_le reserved fresh), same text held⟩
  · rw [copied.plain (.inl (tagged.plain text))]
    exact stands.mono grown

end Runtime

/-- The absent value is seen for the null address, and else a handle on the address. -/
def Shown.On (a : Address) : Shown → Prop
  | .bare v => a = 0 ∧ v = .nil
  | .handle _ attachment => a ≠ 0 ∧ ∃ ownership, attachment = some ⟨a, ownership⟩

namespace Codec

variable {wanted : Shape} {y : Shown}

/-- What is seen of a value that its type normalizes: a truth value is one or zero, an integer is
the one in range with the same low bits, a text is the same, and an address is that of a handle,
which is typed and owned as a decoded one. -/
def Normalized (s : Store) (v : Value) (w : World) (t : Token) (y : Shown) : Shape → Prop
  | .boolean => y = .bare (.int (if truthy s v then 1 else 0))
  | .scalar (.integer f) | .enumeration f =>
    ∃ n, v.toInt? = some n ∧ y = .bare (.int (f.given (f.wrap n.toInt)))
  | .text => y = .bare v
  | .object target => ∃ a, addressOf s v = .ok a ∧ y.On a
    ∧ w.shapeShown (.ofAddress a) t (.object target) = .done y
  | .interface target => ∃ a, addressOf s v = .ok a ∧ y.On a
    ∧ w.shapeShown (.ofAddress a) t (.interface target) = .done y
  | .record target boxed => ∃ a, addressOf s v = .ok a ∧ y.On a
    ∧ w.shapeShown (.ofAddress a) t (.record target boxed) = .done y
  | _ => False

/-- An address that a handle of the shape can be made on: under an object type, and under a record
type whose type number stands for an object type, it is null or that of a live instance. -/
def Shape.Takes (w : World) (a : Address) : Shape → Prop
  | .object _ => a = 0 ∨ w.store.isLive a = true
  | .record target _ => w.database.retains target = true → a = 0 ∨ w.store.isLive a = true
  | _ => True

/-- A handle can be made on an address without a reference, or on a live instance. -/
theorem handleShown_done {a : Address} (info : Token) {retain : Bool}
    (live : retain = true → w.store.isLive a = true) :
    ∃ ownership,
      w.handleShown info a retain = .done (.handle (some info) (some ⟨a, ownership⟩)) := by
  cases retain with
  | false => exact ⟨.borrowed, rfl⟩
  | true =>
    have typed : (w.typeAt a).isSome = true := by rw [← w.isLive_eq, live rfl]
    exact ⟨.retained, by rw [World.handleShown, if_pos rfl, if_pos typed]⟩

theorem instanceShown_done {a : Address} (target : Token) {retain : Bool}
    (live : a ≠ 0 → retain = true → w.store.isLive a = true) :
    ∃ y, w.instanceShown a target retain = .done y ∧ y.On a := by
  unfold World.instanceShown
  by_cases null : a = 0
  · exact ⟨.bare .nil, if_pos null, null, rfl⟩
  · rw [if_neg null]
    obtain ⟨ownership, shown⟩ := handleShown_done _ (live null)
    exact ⟨_, shown, null, ownership, rfl⟩

theorem recordShown_done {a : Address} (target : Token)
    (live : a ≠ 0 → w.database.retains target = true → w.store.isLive a = true) :
    ∃ y, w.recordShown a target = .done y ∧ y.On a := by
  unfold World.recordShown
  by_cases null : a = 0
  · exact ⟨.bare .nil, if_pos null, null, rfl⟩
  · rw [if_neg null]
    obtain ⟨ownership, shown⟩ := handleShown_done _ (live null)
    exact ⟨_, shown, null, ownership, rfl⟩

/-- A slot that stands for a value shows the value as its type normalizes it. -/
theorem StandsFor.shown (t : Token) (stands : StandsFor s v w.memory slot wanted)
    (takes : wanted.Takes w slot.address) :
    ∃ y, w.shapeShown slot t wanted = .done y ∧ Normalized s v w t y wanted := by
  match wanted, stands with
  | .boolean, stands =>
    refine ⟨_, rfl, ?_⟩
    subst stands
    rw [Normalized]
    cases truthy s v <;> rfl
  | .scalar (.integer f), ⟨n, number, same⟩ | .enumeration f, ⟨n, number, same⟩ =>
    subst same
    exact ⟨_, rfl, n, number, rfl⟩
  | .text, .inl ⟨nil, zero⟩ =>
    subst nil zero
    exact ⟨_, rfl, rfl⟩
  | .text, .inr ⟨text, same, present, held⟩ =>
    subst same
    refine ⟨_, rfl, ?_⟩
    rw [Normalized, decodeText, if_neg present, held.text]
  | .object target, addressed =>
    have live : slot.address ≠ 0 → true = true → w.store.isLive slot.address = true :=
      fun present _ => takes.resolve_left present
    obtain ⟨y, shown, on⟩ := instanceShown_done target live
    exact ⟨y, shown, slot.address, addressed, on, shown⟩
  | .interface target, addressed =>
    have live : slot.address ≠ 0 → (slot.address ≠ 0 && (w.typeAt slot.address).isSome) = true →
        w.store.isLive slot.address = true := fun _ retained => by
      rw [Bool.and_eq_true] at retained
      rw [w.isLive_eq, retained.2]
    obtain ⟨y, shown, on⟩ := instanceShown_done target live
    exact ⟨y, shown, slot.address, addressed, on, shown⟩
  | .record target boxed, addressed =>
    have live : slot.address ≠ 0 → w.database.retains target = true →
        w.store.isLive slot.address = true :=
      fun present retained => (takes retained).resolve_left present
    obtain ⟨y, shown, on⟩ := recordShown_done target live
    exact ⟨y, shown, slot.address, addressed, on, shown⟩

end Codec
end ObjectBridge
