import ObjectBridge.Proofs.Initializing
import ObjectBridge.Proofs.Refusing
import ObjectBridge.Proofs.RoundTrip

/-!
# Copies of strings

A text that is encoded under a string type lies in storage that is never written again, so it is
read there in every later world.  The runtime stores a copy of it, in storage of its own, and any
other slot as it is.
-/

namespace ObjectBridge

open Program Bridge

namespace Memory

variable {m m' m'' : Memory} {a : Address} {bytes : List UInt8}

/-- Memory to which only new storage was added. -/
structure Extends (m m' : Memory) : Prop where
  /-- No storage is given up. -/
  next : m.next ≤ m'.next
  /-- What was stored is the same. -/
  cells : ∀ a < m.next, m'.cell a = m.cell a
  /-- At least as many cells were written. -/
  extent : m.extent ≤ m'.extent

theorem Extends.refl (m : Memory) : m.Extends m := ⟨Nat.le_refl _, fun _ _ => rfl, Nat.le_refl _⟩

theorem Extends.trans (first : m.Extends m') (second : m'.Extends m'') : m.Extends m'' where
  next := Nat.le_trans first.next second.next
  cells a below :=
    (second.cells a (Nat.lt_of_lt_of_le below first.next)).trans (first.cells a below)
  extent := Nat.le_trans first.extent second.extent

theorem extends_place (m : Memory) (cells : List Cell) (size : Nat) :
    m.Extends (m.place cells size).2 where
  next := (({ memory := m } : World).steady_place cells size).next
  cells := (({ memory := m } : World).steady_place cells size).cells
  extent := Nat.le_add_left _ _

/-- New storage has room for the cells. -/
theorem place_room (m : Memory) (cells : List Cell) (size : Nat) :
    (m.place cells size).1 = m.next ∧ m.next + cells.length ≤ (m.place cells size).2.next := by
  refine ⟨rfl, ?_⟩
  have most : cells.length ≤ UInt64.size + 16 * (max size cells.length / 16 + 1) := by omega
  exact (Nat.add_le_add_left most m.next).trans_eq (Nat.add_assoc _ _ _).symm

theorem Extends.read (grown : m.Extends m') {count : Nat} (below : a + count ≤ m.next) :
    m'.read a count = m.read a count := by
  refine List.map_congr_left fun i member => ?_
  have inside := List.mem_range.mp member
  have room : a + i < m.next := Nat.lt_of_lt_of_le (Nat.add_lt_add_left inside a) below
  rw [byte, byte, grown.cells (a + i) room]

/-- A native string with some bytes lies in reserved storage. -/
structure Holds (m : Memory) (a : Address) (bytes : List UInt8) : Prop where
  /-- No byte of the string is zero. -/
  plain : 0 ∉ bytes
  /-- The bytes and a zero byte are what lies there. -/
  read : m.read a (bytes.length + 1) = bytes ++ [0]
  /-- The storage is reserved. -/
  reserved : a + (bytes.length + 1) ≤ m.next
  /-- So many cells were written. -/
  extent : bytes.length < m.extent

theorem Holds.mono (holds : m.Holds a bytes) (grown : m.Extends m') : m'.Holds a bytes where
  plain := holds.plain
  read := (grown.read holds.reserved).trans holds.read
  reserved := Nat.le_trans holds.reserved grown.next
  extent := Nat.lt_of_lt_of_le holds.extent grown.extent

theorem Holds.stringBytes (holds : m.Holds a bytes) : m.stringBytes a = bytes :=
  untilZero_of_read holds.plain holds.read holds.extent

theorem Holds.text {text : String} (holds : m.Holds a (Text.encode text)) : m.text a = text := by
  rw [Memory.text, holds.stringBytes, Text.decode_encode]

/-- A string that is placed lies there. -/
theorem holds_place (m : Memory) (plain : 0 ∉ bytes) (size : Nat) :
    (m.place (Cell.ofBytes (bytes ++ [0])) size).2.Holds m.next bytes := by
  have length : (Cell.ofBytes (bytes ++ [0])).length = bytes.length + 1 := by
    rw [Cell.length_ofBytes, List.length_append, List.length_singleton]
  have read := m.read_place (bytes ++ [0]) size
  rw [List.length_append, List.length_singleton] at read
  refine ⟨plain, read, ?_, ?_⟩
  · exact length ▸ (m.place_room (Cell.ofBytes (bytes ++ [0])) size).2
  · have room := m.length_le_extent (Cell.ofBytes (bytes ++ [0])) size
    rwa [length] at room

end Memory

/-- Quiet requests only add new storage. -/
theorem World.extends_answer (calls : Calls) {r : Request} (quiet : r.quiet = true) (w : World) :
    w.memory.Extends (w.answer calls r).2.memory := by
  cases r with
  | place cells size => exact w.memory.extends_place cells size
  | entry t =>
    simp only [answer]
    split <;> exact .refl _
  | liveInstance a =>
    simp only [answer, withInstance]
    split <;> exact .refl _
  | letGo c =>
    by_cases held : w.store.held.contains c = true
    · have answered : w.answer calls (.letGo c) = (w.withStore (w.store.dropHeld c)).release [c] :=
        if_pos held
      rw [answered]
      exact .refl _
    · have answered : w.answer calls (.letGo c) = (.done (), w) := if_neg held
      rw [answered]
      exact .refl _
  | openHandle info attachment keeper =>
    simp only [answer, openHandle]
    split
    · split <;> exact .refl _
    · exact .refl _
  | trace entries =>
    simp only [answer]
    split
    · rw [(memory_trace entries w).1]
      exact .refl _
    · exact .refl _
  | database | memory | store | bench | options | required | mark | tracing | stop _ | hold _
  | settle _ _ => exact .refl _
  | _ => simp [Request.quiet] at quiet

namespace Program

variable {α : Type} {calls : Calls} {w w' : World} {p : Program α} {x : α}

theorem Quiet.extends (quiet : p.Quiet calls w) : w.memory.Extends (p.run calls w).2.memory := by
  induction p generalizing w with
  | done x => exact .refl _
  | ask request next ih =>
    simp only [Quiet, moments, List.mem_cons, forall_eq_or_imp] at quiet
    have first := w.extends_answer calls quiet.1
    simp only [run]
    revert first quiet
    cases w.answer calls request with
    | mk outcome w' =>
      cases outcome with
      | done reply => exact fun quiet first => first.trans (ih reply quiet.2)
      | stopped why => exact fun _ first => first

theorem Passes.extends (passes : p.Passes calls w x w') : w.memory.Extends w'.memory := by
  have grown := passes.quiet.extends
  rwa [passes.run] at grown

theorem Silent.extends (silent : p.Silent) (ran : p.run calls w = (.done x, w')) :
    w.memory.Extends w'.memory :=
  Passes.extends ⟨ran, silent calls w⟩

/-- What a program finds is what its run ends with. -/
theorem Finds.of_run {v : World} {post : α → Prop} (finds : p.Finds v post) (looked : v.Looked w)
    (ran : p.run calls w = (.done x, w')) : post x := by
  obtain ⟨y, _, passes, _, holds⟩ := finds calls w looked
  rw [passes.run] at ran
  cases ran
  exact holds

end Program

namespace Codec

variable {calls : Calls} {w w' : World} {t : Token} {v : Value} {slot : Slot}
  {block block' : ArgumentBlock}

/-- A string type takes the absent value and texts. -/
theorem refusal_string {tag : Tag} (found : tag? w.database t = some tag)
    (string : tag.isString = true) :
    refusal w v t = match v with
      | .nil => none
      | .str text => failure? (stringBytes text)
      | other => some (.mismatch "string" other.typeName) := by
  obtain ⟨e, known, tagged⟩ := entry_of_tag found
  have shaped : shapeFor w.database e = .ok .text := by
    unfold shapeFor
    rw [tagged]
    cases tag
    case utf8 => rfl
    case filename => rfl
    all_goals cases string
  rw [refusal, known]
  dsimp only
  rw [shaped]
  rfl

/-- What is encoded under a string type: the absent value as the null address, or a text, which lies
at the address. -/
theorem encoded_string (linked : w.database.Linked) {tag : Tag}
    (found : tag? w.database t = some tag) (string : tag.isString = true)
    (encoded : Succeeds calls (encode v t block) w (slot, block') w') :
    (v = .nil ∧ slot = .zero) ∨ ∃ text, v = .str text ∧ slot.address = w.memory.next
      ∧ w'.memory.Holds slot.address (Text.encode text) := by
  obtain ⟨e, known, _⟩ := entry_of_tag found
  have accepted : none = refusal w v t :=
    (finds_encode linked (Database.has_of_entry known)).of_run (.refl w) encoded
  rw [refusal_string found string] at accepted
  cases v with
  | nil =>
    refine .inl ⟨rfl, ?_⟩
    have given : Bridge.Gives calls (encode .nil t block) w (.ok (.zero, block)) w.memory :=
      gives_encode (gives_textShape found string rfl) fun w₁ reached =>
        Bridge.gives_pure reached.memory
    obtain ⟨_, ran, _⟩ := given
    have same := encoded.symm.trans ran
    simp only [Prod.mk.injEq, Outcome.done.injEq, Except.ok.injEq] at same
    exact same.1.1
  | str text =>
    refine .inr ⟨text, rfl, ?_⟩
    have plain : '\x00' ∉ text.toList := fun zero => by
      dsimp only at accepted
      rw [stringBytes_zero zero] at accepted
      cases accepted
    have given : Bridge.Gives calls (encode (.str text) t block) w _ _ :=
      gives_encode_text found string plain
    obtain ⟨_, ran, reached⟩ := given
    have same := encoded.symm.trans ran
    simp only [Prod.mk.injEq, Outcome.done.injEq, Except.ok.injEq] at same
    obtain ⟨⟨rfl, _⟩, rfl⟩ := same
    refine ⟨rfl, ?_⟩
    rw [reached.memory]
    exact w.memory.holds_place (Text.zero_not_mem_encode plain) _
  | _ => cases accepted

end Codec

namespace Runtime

variable {calls : Calls} {w : World} {tag : Tag} {slot kept : Slot} {m m₁ m₂ m' : Memory}

/-- What is kept of a slot: the slot itself, but of a native string a copy in new storage. -/
structure Copied (m m' : Memory) (tag : Tag) (slot kept : Slot) : Prop where
  /-- Anything but a native string is kept as it is. -/
  plain : tag.isString = false ∨ slot.isNull = true → kept = slot
  /-- A copy lies in new storage, and it is a string with the same bytes. -/
  string : tag.isString = true → slot.isNull = false → m.next ≤ kept.address
    ∧ ∀ bytes, m.Holds slot.address bytes → m'.Holds kept.address bytes

theorem Copied.mono (copied : Copied m₁ m₂ tag slot kept) (before : m.Extends m₁)
    (after : m₂.Extends m') : Copied m m' tag slot kept where
  plain := copied.plain
  string text there := by
    obtain ⟨fresh, same⟩ := copied.string text there
    exact ⟨Nat.le_trans before.next fresh, fun bytes holds =>
      (same bytes (holds.mono before)).mono after⟩

theorem run_copyString (calls : Calls) (tag : Tag) (slot : Slot) (w : World) :
    ∃ kept m, (copyString tag slot).run calls w = (.done kept, { w with memory := m })
      ∧ w.memory.Extends m ∧ Copied w.memory m tag slot kept := by
  unfold copyString
  by_cases text : (tag.isString && !slot.isNull) = true
  · rw [if_pos text]
    rw [Bool.and_eq_true, Bool.not_eq_true'] at text
    let cells := Cell.ofBytes (w.memory.stringBytes slot.address ++ [0])
    refine ⟨.ofAddress w.memory.next, (w.memory.place cells cells.length).2, rfl,
      w.memory.extends_place cells _, fun other => ?_, fun _ _ => ⟨Nat.le_refl _, ?_⟩⟩
    · rcases other with plain | null
      · exact absurd (text.1.symm.trans plain) (by decide)
      · exact absurd (null.symm.trans text.2) (by decide)
    · intro bytes holds
      have same : cells = Cell.ofBytes (bytes ++ [0]) := by rw [← holds.stringBytes]
      rw [same]
      exact w.memory.holds_place holds.plain _
  · rw [if_neg text]
    refine ⟨slot, w.memory, rfl, .refl _, fun _ => rfl, fun string there => ?_⟩
    exact absurd (by rw [string, there]; rfl) text

end Runtime
end ObjectBridge
