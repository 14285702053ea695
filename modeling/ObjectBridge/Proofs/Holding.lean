import ObjectBridge.Proofs.Encoding
import ObjectBridge.Proofs.Parts
import ObjectBridge.Proofs.Refusing
import ObjectBridge.Proofs.RoundTrip
import ObjectBridge.Proofs.Silence

/-!
# What an argument block owns

Encoding a native string, an array or a generic value box reserves storage that the argument block
owns.  It is storage that was never reserved before.  A value of any other type needs none: its slot
is a number or the address that the value itself stands for.
-/

namespace ObjectBridge

/-- An address occurs in a value of the host: the value is the address itself, or a handle on it. -/
def Value.Mentions (s : Store) (v : Value) (a : Address) : Prop :=
  match v with
  | .pointer b => b = a
  | .handle h => ∃ ownership, (s.handle h).attachment = some ⟨a, ownership⟩
  | _ => False

/-- Only the table of handles matters. -/
theorem Value.Mentions.of_handles {s s' : Store} {v : Value} {a : Address}
    (mentions : v.Mentions s' a) (handles : s'.handles = s.handles) : v.Mentions s a := by
  cases v with
  | handle h =>
    obtain ⟨ownership, attached⟩ := mentions
    exact ⟨ownership, by rwa [Store.handle, handles] at attached⟩
  | _ => exact mentions

/-- Whether values in a shape may need storage of a block: native strings, arrays and generic value
boxes. -/
def Codec.Shape.holds : Codec.Shape → Bool
  | .text | .array _ _ _ | .record _ true => true
  | _ => false

/-- The shape of a type, if it has one. -/
def Database.shape? (db : Database) (t : Token) : Option Codec.Shape :=
  match db.entry? t with
  | some e =>
    match Codec.shapeFor db e with
    | .ok wanted => some wanted
    | .error _ => none
  | none => none

/-- Whether values of a type may need storage of a block. -/
def Database.holds (db : Database) (t : Token) : Bool := (db.shape? t).any Codec.Shape.holds

open Program Bridge

variable {calls : Calls} {w w₁ w' : World}

namespace Program

theorem done_eq {α : Type} {x y : α} :
    ((Outcome.done x, w) = (Outcome.done y, w')) ↔ x = y ∧ w = w' := by
  simp

theorem run_entry {t : Token} {e : Entry} :
    (entry t).run calls w = (.done e, w') ↔ w.database.entry? t = some e ∧ w = w' := by
  have answered : (entry t).run calls w = w.answer calls (.entry t) := run_request
  rw [answered, World.answer]
  cases w.database.entry? t with
  | none => exact ⟨fun ran => (by cases ran), fun found => (by cases found.1)⟩
  | some known => exact done_eq.trans (and_congr_left' (Option.some.injEq _ _ ▸ Iff.rfl))

theorem run_store {s : Store} : store.run calls w = (.done s, w') ↔ w.store = s ∧ w = w' := by
  have answered : store.run calls w = (.done w.store, w) := run_request
  simp [answered]

theorem run_memory {m : Memory} :
    memory.run calls w = (.done m, w') ↔ w.memory = m ∧ w = w' := by
  have answered : memory.run calls w = (.done w.memory, w) := run_request
  simp [answered]

theorem run_liveInstance {a : Address} {i : Instance} :
    (liveInstance a).run calls w = (.done i, w')
      ↔ w.store.instances.get? a = some i ∧ w = w' := by
  have answered : (liveInstance a).run calls w = w.answer calls (.liveInstance a) := run_request
  rw [answered, World.answer, World.withInstance]
  cases w.store.instances.get? a with
  | none => exact ⟨fun ran => (by cases ran), fun found => (by cases found.1)⟩
  | some known => exact done_eq.trans (and_congr_left' (Option.some.injEq _ _ ▸ Iff.rfl))

theorem run_database {db : Database} :
    database.run calls w = (.done db, w') ↔ w.database = db ∧ w = w' := by
  have answered : database.run calls w = (.done w.database, w) := run_request
  simp [answered]

/-- What is asked of an entry and taken is what the entry has. -/
theorem run_take {t : Token} (part : Entry → Option Token) {found : Option Token}
    (ran : (entry t >>= fun e => Descriptor.take (part e)).run calls w = (.done found, w')) :
    ∃ e, w.database.entry? t = some e ∧ found = part e ∧ w'.database = w.database := by
  obtain ⟨e, w₁, looked, taken⟩ := run_bind_done.mp ran
  obtain ⟨known, rfl⟩ := run_entry.mp looked
  have steady := (Descriptor.silent_take calls w : (Descriptor.take (part e)).Quiet calls w).steady
  rw [taken] at steady
  refine ⟨e, known, ?_, steady.database⟩
  cases here : part e with
  | none =>
    rw [here] at taken
    cases taken
    rfl
  | some u =>
    rw [here] at taken
    cases taken
    rfl

/-- Cells are placed in new storage. -/
theorem run_placeCells {cells : List Cell} {a : Address}
    (ran : (placeCells cells).run calls w = (.done a, w')) :
    w.memory.next ≤ a ∧ a + cells.length ≤ w'.memory.next := by
  have answered : (placeCells cells).run calls w
      = (.done (w.place cells cells.length).1, (w.place cells cells.length).2) := run_request
  rw [answered] at ran
  cases ran
  have room : cells.length ≤ 16 * (max cells.length cells.length / 16 + 1) := by omega
  refine ⟨Nat.le_refl _, Nat.add_le_add (Nat.le_add_right _ _) room⟩

theorem run_place {bytes : List UInt8} {a : Address}
    (ran : (place bytes).run calls w = (.done a, w')) :
    w.memory.next ≤ a ∧ a + bytes.length ≤ w'.memory.next :=
  Cell.length_ofBytes bytes ▸ run_placeCells ran

end Program

namespace Codec

variable {block block' : ArgumentBlock} {slot : Slot} {v : Value} {t : Token} {e : Entry}

/-- An address lies in storage that a block owns. -/
def ArgumentBlock.Owns (block : ArgumentBlock) (a : Address) : Prop :=
  ∃ holding ∈ block, ∃ piece ∈ holding.pieces, piece.1 ≤ a ∧ a < piece.1 + piece.2

/-- The empty block owns nothing. -/
theorem not_owns_nil {a : Address} : ¬ArgumentBlock.Owns [] a :=
  fun ⟨_, member, _⟩ => absurd member List.not_mem_nil

/-- Whatever a block owns beyond another one was reserved between two worlds. -/
def ArgumentBlock.Grown (block : ArgumentBlock) (w : World) (block' : ArgumentBlock) (w' : World) :
    Prop :=
  ∀ a, block'.Owns a → block.Owns a ∨ (w.memory.next ≤ a ∧ a < w'.memory.next)

theorem grown_refl (block : ArgumentBlock) (w w' : World) : block.Grown w block w' :=
  fun _ owned => .inl owned

/-- What is done with the block as it was leaves it as it was. -/
theorem grown_of_pure {α : Type} {x y : α}
    (ran : Succeeds calls (pure (x, block) : Bridge (α × ArgumentBlock)) w (y, block') w') :
    block.Grown w block' w' := by
  obtain ⟨same, _⟩ := succeeds_pure.mp ran
  cases same
  exact grown_refl block w w'

theorem ArgumentBlock.Grown.trans {middle : ArgumentBlock} (first : block.Grown w middle w₁)
    (second : middle.Grown w₁ block' w') (earlier : w.memory.next ≤ w₁.memory.next)
    (later : w₁.memory.next ≤ w'.memory.next) : block.Grown w block' w' := fun a owned => by
  rcases second a owned with before | ⟨above, below⟩
  · rcases first a before with old | ⟨above, below⟩
    · exact .inl old
    · exact .inr ⟨above, Nat.lt_of_lt_of_le below later⟩
  · exact .inr ⟨Nat.le_trans earlier above, below⟩

/-- A holding whose pieces were reserved between two worlds. -/
theorem grown_cons {pieces : List (Address × Nat)}
    (within : ∀ piece ∈ pieces, w.memory.next ≤ piece.1 ∧ piece.1 + piece.2 ≤ w'.memory.next) :
    block.Grown w (⟨pieces⟩ :: block) w' := by
  rintro a ⟨holding, member, piece, inside, above, below⟩
  rcases List.mem_cons.mp member with rfl | old
  · obtain ⟨least, room⟩ := within piece inside
    exact .inr ⟨Nat.le_trans least above, Nat.lt_of_lt_of_le below room⟩
  · exact .inl ⟨holding, old, piece, inside, above, below⟩

theorem grown_holdText {text : String}
    (ran : Succeeds calls (holdText text block) w (slot, block') w') : block.Grown w block' w' := by
  obtain ⟨bytes, w₁, given, rest⟩ := succeeds_bind.mp ran
  obtain ⟨_, rfl⟩ := succeeds_except.mp given
  obtain ⟨a, w₂, placed, last⟩ := succeeds_bind.mp rest
  obtain ⟨same, rfl⟩ := succeeds_pure.mp last
  cases same
  have room := run_place (succeeds_lift.mp placed)
  exact grown_cons fun piece member => List.mem_singleton.mp member ▸ room

/-- Strings that are placed one after the other lie in new storage. -/
theorem run_placeAll {strings : List (List UInt8)} {pieces : List (Address × Nat)}
    (ran : (placeAll strings).run calls w = (.done pieces, w')) :
    w.memory.next ≤ w'.memory.next
      ∧ ∀ piece ∈ pieces, w.memory.next ≤ piece.1 ∧ piece.1 + piece.2 ≤ w'.memory.next := by
  induction strings generalizing w pieces with
  | nil =>
    cases ran
    exact ⟨Nat.le_refl _, fun piece member => absurd member List.not_mem_nil⟩
  | cons bytes rest ih =>
    obtain ⟨a, w₁, placed, later⟩ := run_bind_done.mp ran
    obtain ⟨others, w₂, more, last⟩ := run_bind_done.mp later
    cases last
    obtain ⟨least, room⟩ := run_place placed
    obtain ⟨next, within⟩ := ih more
    have first : w.memory.next ≤ w₁.memory.next :=
      Nat.le_trans least (Nat.le_trans (Nat.le_add_right _ _) room)
    refine ⟨Nat.le_trans first next, fun piece member => ?_⟩
    rcases List.mem_cons.mp member with rfl | other
    · exact ⟨least, Nat.le_trans room next⟩
    · exact ⟨Nat.le_trans first (within piece other).1, (within piece other).2⟩

theorem grown_holdTexts {texts : List String}
    (ran : Succeeds calls (holdTexts texts block) w (slot, block') w') :
    block.Grown w block' w' := by
  obtain ⟨strings, w₁, given, rest⟩ := succeeds_bind.mp ran
  have start := (given.looked (silent_mapM fun _ => silent_except)
    (reading_mapM fun _ => reading_except)).next
  obtain ⟨pieces, w₂, strung, rest⟩ := succeeds_bind.mp rest
  obtain ⟨next, within⟩ := run_placeAll (succeeds_lift.mp strung)
  extract_lets vector at rest
  obtain ⟨a, w₃, placed, last⟩ := succeeds_bind.mp rest
  obtain ⟨same, rfl⟩ := succeeds_pure.mp last
  cases same
  obtain ⟨least, room⟩ := run_placeCells (succeeds_lift.mp placed)
  have later := Nat.le_trans least (Nat.le_trans (Nat.le_add_right _ _) room)
  refine grown_cons fun piece member => ?_
  rcases List.mem_cons.mp member with rfl | string
  · exact ⟨Nat.le_trans (Nat.le_trans start next) least, room⟩
  · exact ⟨Nat.le_trans start (within piece string).1, Nat.le_trans (within piece string).2 later⟩

theorem grown_holdNumbers {s : Scalar} {items : List Number}
    (ran : Succeeds calls (holdNumbers s items block) w (slot, block') w') :
    block.Grown w block' w' := by
  unfold holdNumbers at ran
  extract_lets bytes at ran
  split at ran
  · obtain ⟨same, rfl⟩ := succeeds_pure.mp ran
    cases same
    exact grown_cons fun piece member => absurd member List.not_mem_nil
  · obtain ⟨a, w₁, placed, last⟩ := succeeds_bind.mp ran
    obtain ⟨same, rfl⟩ := succeeds_pure.mp last
    cases same
    have room := run_place (succeeds_lift.mp placed)
    exact grown_cons fun piece member => List.mem_singleton.mp member ▸ room

/-- Storage that the callee frees is not owned by the block. -/
theorem grown_handOver {items : List Number}
    (ran : Succeeds calls (handOver items block) w (slot, block') w') :
    block.Grown w block' w' := by
  obtain ⟨a, w₁, _, last⟩ := succeeds_bind.mp ran
  obtain ⟨same, rfl⟩ := succeeds_pure.mp last
  cases same
  exact grown_refl block w _

theorem grown_encodeElements {elements : Elements} {element : Tag}
    (ran : Succeeds calls (encodeElements elements element block) w (slot, block') w') :
    block.Grown w block' w' := by
  unfold encodeElements at ran
  split at ran
  · split at ran
    · exact grown_holdTexts ran
    · exact absurd ran not_succeeds_throw
  · split at ran
    · split at ran
      · split at ran
        · exact grown_handOver ran
        · exact grown_holdNumbers ran
      · exact absurd ran not_succeeds_throw
    · split at ran
      · exact absurd ran not_succeeds_throw
      · exact absurd ran not_succeeds_throw

theorem grown_encodeArray {element : Token}
    (ran : Succeeds calls (encodeArray v element block) w (slot, block') w') :
    block.Grown w block' w' := by
  obtain ⟨e, w₁, looked, rest⟩ := succeeds_bind.mp ran
  obtain ⟨_, rfl⟩ := run_entry.mp (succeeds_lift.mp looked)
  split at rest
  · exact grown_of_pure rest
  · exact grown_of_pure rest
  · exact grown_encodeElements rest
  · exact grown_encodeElements rest
  · exact absurd rest not_succeeds_throw

theorem grown_encodeBox (ran : Succeeds calls (encodeBox v block) w (slot, block') w') :
    block.Grown w block' w' := by
  unfold encodeBox at ran
  split at ran
  · exact grown_of_pure ran
  · obtain ⟨s, w₁, looked, rest⟩ := succeeds_bind.mp ran
    obtain ⟨_, rfl⟩ := run_store.mp (succeeds_lift.mp looked)
    obtain ⟨a, w₂, given, rest⟩ := succeeds_bind.mp rest
    obtain ⟨_, rfl⟩ := succeeds_except.mp given
    split at rest
    · exact absurd rest not_succeeds_throw_bind
    · obtain ⟨i, w₃, found, rest⟩ := succeeds_bind.mp rest
      obtain ⟨_, rfl⟩ := run_liveInstance.mp (succeeds_lift.mp found)
      extract_lets cells at rest
      obtain ⟨box, w₄, placed, last⟩ := succeeds_bind.mp rest
      obtain ⟨same, rfl⟩ := succeeds_pure.mp last
      cases same
      have room := run_placeCells (succeeds_lift.mp placed)
      exact grown_cons fun piece member => List.mem_singleton.mp member ▸ room

/-- The slot of a value that needs no storage: a number, or an address that occurs in the value. -/
def Plain (s : Store) (v : Value) (slot : Slot) : Prop :=
  slot.word < UInt64.size ∨ v.Mentions s slot.address

theorem plain_encodeScalar {s : Scalar} (native : ∀ f, s = .integer f → f.Native)
    (encoded : encodeScalar s v = .ok slot) (store : Store) : Plain store v slot := by
  refine .inl ?_
  unfold encodeScalar at encoded
  cases s with
  | integer f =>
    dsimp only at encoded
    split at encoded
    · next n _ =>
      cases encoded
      have positive : (0 : Int) < f.count := Int.natCast_pos.mpr IntegerFormat.count_pos
      have below := Int.emod_lt_of_pos n.toInt positive
      have bound := IntegerFormat.count_le (native f rfl)
      simp only [Slot.ofInteger, IntegerFormat.wrap, UInt64.size]
      omega
    · cases encoded
  | float =>
    dsimp only at encoded
    split at encoded
    · cases encoded
      exact Nat.lt_of_lt_of_le (UInt32.toNat_lt _) (by decide)
    · cases encoded
  | double =>
    dsimp only at encoded
    split at encoded
    · cases encoded
      exact UInt64.toNat_lt _
    · cases encoded

theorem plain_addressOf {s : Store} {a : Address} (given : addressOf s v = .ok a) :
    Plain s v (.ofAddress a) := by
  cases v with
  | nil =>
    cases given
    exact .inl (by decide)
  | pointer b =>
    cases given
    exact .inr rfl
  | handle h =>
    cases given
    cases attached : (s.handle h).attachment with
    | none =>
      refine .inl ?_
      simp only [Slot.ofAddress, HandleRecord.address, attached]
      decide
    | some attachment =>
      refine .inr ⟨attachment.ownership, ?_⟩
      simp only [attached, Slot.ofAddress, Slot.address, HandleRecord.address]
  | _ => cases given

/-- What encoding a value does to the block: it owns new storage, or the slot of the value is
plain. -/
structure Held (w : World) (v : Value) (block : ArgumentBlock) (holds : Bool) (slot : Slot)
    (block' : ArgumentBlock) (w' : World) : Prop where
  /-- What the block owns now, it owned before or is new. -/
  grown : block.Grown w block' w'
  /-- A value of a type that needs no storage leaves the block as it was. -/
  plain : holds = false → block' = block ∧ Plain w.store v slot

theorem held_of_holds {wanted : Shape} (holds : wanted.holds = true)
    (grown : block.Grown w block' w') : Held w v block wanted.holds slot block' w' :=
  ⟨grown, fun plain => by rw [holds] at plain; cases plain⟩

/-- Encoding an address reserves nothing. -/
theorem held_encodeAddress {holds : Bool}
    (ran : Succeeds calls (do
      let s ← store
      let a ← addressOf s v
      return (Slot.ofAddress a, block) : Bridge (Slot × ArgumentBlock)) w (slot, block') w') :
    Held w v block holds slot block' w' := by
  obtain ⟨s, w₁, looked, rest⟩ := succeeds_bind.mp ran
  obtain ⟨rfl, rfl⟩ := run_store.mp (succeeds_lift.mp looked)
  obtain ⟨a, w₂, given, last⟩ := succeeds_bind.mp rest
  obtain ⟨found, rfl⟩ := succeeds_except.mp given
  obtain ⟨same, rfl⟩ := succeeds_pure.mp last
  cases same
  exact ⟨grown_refl block w w, fun _ => ⟨rfl, plain_addressOf found⟩⟩

/-- Encoding a number reserves nothing. -/
theorem held_encodeScalar {s : Scalar} {holds : Bool} (native : ∀ f, s = .integer f → f.Native)
    (ran : Succeeds calls (do
      let slot ← encodeScalar s v
      return (slot, block) : Bridge (Slot × ArgumentBlock)) w (slot, block') w') :
    Held w v block holds slot block' w' := by
  obtain ⟨given, w₁, encoded, last⟩ := succeeds_bind.mp ran
  obtain ⟨found, rfl⟩ := succeeds_except.mp encoded
  obtain ⟨same, rfl⟩ := succeeds_pure.mp last
  cases same
  exact ⟨grown_refl block w w, fun _ => ⟨rfl, plain_encodeScalar native found w.store⟩⟩

theorem held_encodeShape {wanted : Shape} (native : ∀ f, wanted.integer? = some f → f.Native)
    (ran : Succeeds calls (encodeShape v wanted block) w (slot, block') w') :
    Held w v block wanted.holds slot block' w' := by
  cases wanted with
  | void =>
    simp only [encodeShape] at ran
    split at ran
    · obtain ⟨same, rfl⟩ := succeeds_pure.mp ran
      cases same
      exact ⟨grown_refl block w w, fun _ => ⟨rfl, .inl (by decide)⟩⟩
    · exact absurd ran not_succeeds_throw
  | boolean =>
    obtain ⟨s, w₁, looked, last⟩ := succeeds_bind.mp ran
    obtain ⟨_, rfl⟩ := run_store.mp (succeeds_lift.mp looked)
    obtain ⟨same, rfl⟩ := succeeds_pure.mp last
    cases same
    refine ⟨grown_refl block w w, fun _ => ⟨rfl, .inl ?_⟩⟩
    unfold Slot.ofBool
    split <;> decide
  | scalar s => exact held_encodeScalar (fun f same => native f (by rw [same]; rfl)) ran
  | enumeration format =>
    exact held_encodeScalar (fun f same => native f (by cases same; rfl)) ran
  | text =>
    refine held_of_holds rfl ?_
    cases v with
    | str text => exact grown_holdText ran
    | nil => exact grown_of_pure ran
    | _ => exact absurd ran not_succeeds_throw
  | array element zeroTerminated fixedSize => exact held_of_holds rfl (grown_encodeArray ran)
  | record target boxed =>
    cases boxed with
    | true => exact held_of_holds rfl (grown_encodeBox ran)
    | false => exact held_encodeAddress ran
  | object | interface | callback | list => exact held_encodeAddress ran

variable {wanted : Shape}

theorem shapeForTarget_of_succeeds {target : Token}
    (ran : Succeeds calls (shapeOfTarget target) w wanted w') :
    ∃ f, w.database.entry? target = some f ∧ shapeForTarget w.database target f = .ok wanted := by
  obtain ⟨f, w₁, looked, rest⟩ := succeeds_bind.mp ran
  obtain ⟨known, rfl⟩ := run_entry.mp (succeeds_lift.mp looked)
  refine ⟨f, known, ?_⟩
  unfold shapeForTarget
  split at rest
  · next enumeration =>
    rw [if_pos enumeration]
    cases format : f.storage.integer? with
    | some format =>
      simp only [format] at rest
      exact congrArg Except.ok (succeeds_pure.mp rest).1
    | none =>
      simp only [format] at rest
      exact absurd rest not_succeeds_throw
  · next other =>
    rw [if_neg other]
    split at rest
    · next object =>
      rw [if_pos object]
      exact congrArg Except.ok (succeeds_pure.mp rest).1
    · next object =>
      rw [if_neg object]
      split at rest
      · next interface =>
        rw [if_pos interface]
        exact congrArg Except.ok (succeeds_pure.mp rest).1
      · next interface =>
        rw [if_neg interface]
        split at rest
        · next callback =>
          rw [if_pos callback]
          exact congrArg Except.ok (succeeds_pure.mp rest).1
        · next callback =>
          rw [if_neg callback]
          split at rest
          · next record =>
            obtain ⟨db, w₂, seen, last⟩ := succeeds_bind.mp rest
            obtain ⟨rfl, _⟩ := run_database.mp (succeeds_lift.mp seen)
            rw [if_pos record]
            exact congrArg Except.ok (succeeds_pure.mp last).1
          · exact absurd rest not_succeeds_throw

theorem shapeFor_of_array (known : w.database.entry? t = some e)
    (ran : Succeeds calls (shapeOfArray t e) w wanted w') (tagged : e.tag = .array) :
    shapeFor w.database e = .ok wanted := by
  simp only [shapeFor, tagged]
  unfold shapeOfArray at ran
  split at ran
  · exact absurd ran not_succeeds_throw_bind
  · next plain =>
    rw [if_pos (not_not.mp plain)]
    obtain ⟨part, w₁, found, rest⟩ := succeeds_bind.mp ran
    obtain ⟨e', same, rfl, _⟩ := run_take (fun e => e.parts[0]?) (succeeds_lift.mp found)
    cases known.symm.trans same
    cases first : e.parts[0]? with
    | some element =>
      simp only [first] at rest
      exact congrArg Except.ok (succeeds_pure.mp rest).1
    | none =>
      simp only [first] at rest
      exact absurd rest not_succeeds_throw

/-- The shape that is found for a type is the one that the database has. -/
theorem shapeFor_of_succeeds (ran : Succeeds calls (shape t) w wanted w') :
    ∃ e, w.database.entry? t = some e ∧ shapeFor w.database e = .ok wanted := by
  obtain ⟨e, w₁, looked, rest⟩ := succeeds_bind.mp ran
  obtain ⟨known, rfl⟩ := run_entry.mp (succeeds_lift.mp looked)
  refine ⟨e, known, ?_⟩
  cases tagged : e.tag with
  | array =>
    rw [tagged] at rest
    exact shapeFor_of_array known rest tagged
  | interface =>
    rw [tagged] at rest
    obtain ⟨target?, w₁, found, rest⟩ := succeeds_bind.mp rest
    obtain ⟨e', same, rfl, database⟩ := run_take Entry.target? (succeeds_lift.mp found)
    cases known.symm.trans same
    simp only [shapeFor, tagged]
    cases refers : e.target? with
    | some target =>
      simp only [refers] at rest
      obtain ⟨f, there, shaped⟩ := shapeForTarget_of_succeeds rest
      rw [database] at there shaped
      simp only [there, shaped]
    | none =>
      simp only [refers] at rest
      exact absurd rest not_succeeds_throw
  | gtype | ghash | error | unichar =>
    rw [tagged] at rest
    exact absurd rest not_succeeds_throw
  | _ =>
    rw [tagged] at rest
    simp only [shapeFor, tagged]
    exact congrArg Except.ok (succeeds_pure.mp rest).1

theorem shape?_of_succeeds (ran : Succeeds calls (shape t) w wanted w') :
    w.database.shape? t = some wanted := by
  obtain ⟨e, known, shaped⟩ := shapeFor_of_succeeds ran
  simp only [Database.shape?, known, shaped]

/-- The integer formats of shapes are those of native code. -/
theorem native_of_shapeFor {db : Database} {f : IntegerFormat} (shaped : shapeFor db e = .ok wanted)
    (format : wanted.integer? = some f) : f.Native := by
  unfold shapeFor at shaped
  split at shaped
  case h_9 =>
    split at shaped
    · next s scalar =>
      cases shaped
      cases s with
      | integer g =>
        cases format
        exact Tag.native_of_integer (by rw [Tag.integer?, scalar])
      | _ => cases format
    · cases shaped
  case h_8 =>
    split at shaped
    · split at shaped
      · unfold shapeForTarget at shaped
        repeat' split at shaped
        all_goals cases shaped
        all_goals try cases format
        next found => exact Tag.native_of_integer found
      · cases shaped
    · cases shaped
  case h_7 =>
    repeat' split at shaped
    all_goals cases shaped
    cases format
  all_goals
    cases shaped
    cases format

/-- Encoding a value under a type: what the block owns beyond what it owned is new, and only types
that need storage have a block own anything. -/
theorem held_encode (ran : Succeeds calls (encode v t block) w (slot, block') w') :
    Held w v block (w.database.holds t) slot block' w' := by
  obtain ⟨w₁, inside, rfl⟩ := ran.region
  obtain ⟨wanted, w₂, shaped, rest⟩ := succeeds_bind.mp inside
  obtain ⟨e, known, found⟩ := shapeFor_of_succeeds shaped
  obtain ⟨_, w₃, traced, encoded⟩ := succeeds_bind.mp rest
  have looked := (shaped.looked silent_shape reading_shape).trans
    (traced.looked (silent_lift silent_trace) (reading_lift reading_trace))
  have held := held_encodeShape (fun f => native_of_shapeFor found) encoded
  have holds : w.database.holds t = wanted.holds := by
    rw [Database.holds, shape?_of_succeeds shaped, Option.any_some]
  rw [holds]
  refine ⟨fun a owned => ?_, fun none => ⟨(held.plain none).1, ?_⟩⟩
  · exact (held.grown a owned).imp_right fun ⟨above, below⟩ =>
      ⟨Nat.le_trans looked.next above, below⟩
  · exact (held.plain none).2.imp_right fun mentions => mentions.of_handles looked.handles

end Codec
end ObjectBridge
