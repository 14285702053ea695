import ObjectBridge.Proofs.Fields
import ObjectBridge.Proofs.Owning
import ObjectBridge.Proofs.Seeking
import ObjectBridge.Proofs.Supporting

/-!
# Which types are unsupported

A type without a shape is rejected by both directions alike: with the same text, for every value and
every slot, and before anything is stored or counted.  Under a type that has a shape, decoding
succeeds wherever a handle can be made, and encoding fails for want of support only where the
elements of an array have no encoding.
-/

namespace ObjectBridge

open Program

variable {calls : Calls} {w : World} {db : Database} {t : Nat} {e : Entry} {x : Value} {f : Failure}

namespace Codec

/-- What begins with the shape of an unsupported type fails before it changes anything. -/
theorem fails_of_unsupported {α : Type} (calls : Calls) (linked : w.database.Linked)
    (found : w.database.entry? t = some e) {text : String}
    (unsupported : Unsupported w.database e text) (keep : α → List Claim)
    (rest : Shape → Bridge α) :
    ∃ w', Bridge.Fails calls (Bridge.region keep (shape t >>= rest)) w (.unsupported text) w'
      ∧ w.Alike w' := by
  have shaped := (shapeFor_error_iff linked found).mpr ⟨text, rfl, unsupported⟩
  obtain ⟨r, u, passes, looked, rfl⟩ := finds_shape linked found calls w (.refl w)
  have shapeless : Bridge.Fails calls (shape t) w (.unsupported text) u := by
    rw [Bridge.Fails, ← shaped]
    exact passes.run
  have failed : Bridge.Fails calls (shape t >>= rest) w (.unsupported text) u :=
    Bridge.fails_bind.mpr (.inl shapeless)
  obtain ⟨w', ended, untouched⟩ :
      ∃ w', Bridge.Fails calls (Bridge.region keep (shape t >>= rest)) w (.unsupported text) w'
        ∧ w.Untouched w' := Bridge.fails_of_looked failed looked
  have memory : w'.memory = w.memory := by
    have kept := memory_region (Bridge.keepOk keep) (shape t >>= rest).run calls w
    have spared := spares_shape (t := t) calls w
    rw [← Bridge.region_eq, ended, failed] at kept
    rw [shapeless] at spared
    exact kept.trans spared
  refine ⟨w', ended, ?_, untouched.alike⟩
  have frame := untouched.frame
  rwa [memory] at frame

/-! ### Encoding under a type that has a shape -/

/-- A type has the shape of an array if it is an array type, and of its elements. -/
theorem array_shape_iff {wanted : Shape} {element : Token} (shaped : shapeFor db e = .ok wanted) :
    (∃ zero size, wanted = .array element zero size) ↔ e.tag = .array ∧ element ∈ e.parts := by
  constructor
  · rintro ⟨zero, size, rfl⟩
    exact ⟨tagged_of_shapeFor shaped, mem_parts_of_shapeFor shaped⟩
  · rintro ⟨array, part⟩
    have single : e.parts = [element] := by
      unfold Entry.parts at part ⊢
      split at part
      · rw [List.mem_singleton.mp part]
      · rw [List.mem_singleton.mp part]
      · cases part
    simp only [shapeFor, array, single] at shaped
    split at shaped <;> cases shaped
    exact ⟨_, _, rfl⟩

/-- Under a type that has a shape, encoding fails for want of support exactly if a host array has
elements without an encoding. -/
theorem encode_unsupported_iff (linked : w.database.Linked) (found : w.database.entry? t = some e)
    {wanted : Shape} (shaped : shapeFor w.database e = .ok wanted) (block : ArgumentBlock)
    (text : String) :
    (∃ w', Bridge.Fails calls (encode x t block) w (.unsupported text) w')
      ↔ ∃ element zero size, wanted = .array element zero size ∧ x.isArray = true
        ∧ (w.database.tagOf element).isElement = false
        ∧ text = "array of " ++ (w.database.tagOf element).name := by
  have refused : refusal w x t = refusalInShape w x wanted := by
    simp only [refusal, found, shaped]
  have ends : Bridge.Finds (encode x t block) w _ :=
    finds_encode linked (Database.has_of_entry found)
  obtain ⟨r, w', passes, _, ended⟩ := ends calls w (.refl w)
  rw [refused] at ended
  constructor
  · rintro ⟨w'', failed⟩
    obtain ⟨same, _⟩ := Prod.mk.inj (passes.run.symm.trans failed)
    rw [Outcome.done.inj same] at ended
    rcases refusalInShape_cases ended.symm with
      mismatch | ⟨element, zero, size, shape, array, other, same⟩
    · cases mismatch
    · exact ⟨element, zero, size, shape, array, other, Failure.unsupported.inj same⟩
  · rintro ⟨element, zero, size, rfl, array, other, rfl⟩
    have failed : refusalInShape w x (.array element zero size)
        = some (.unsupported ("array of " ++ (w.database.tagOf element).name)) := by
      cases x with
      | str text => exact refusalOfElements_eq other (.string [text])
      | array elements => exact refusalOfElements_eq other elements
      | _ => cases array
    rw [failed] at ended
    cases r with
    | ok result => cases ended
    | error g =>
      cases ended
      exact ⟨w', passes.run⟩

/-! ### Decoding under a type that has a shape -/

/-- A slot that is null or valid under a type: under a type of instances, which is one that refers
to an object type or to a record type whose number stands for an object type, its address is that of
a live instance. -/
def ValidSlot (w : World) (e : Entry) (slot : Slot) : Prop :=
  slot.address = 0 ∨ ∀ target f, e.target? = some target → w.database.entry? target = some f →
    f.kind = .object ∨ (f.kind.isRecord = true ∧ w.database.retains target = true) →
      w.store.isLive slot.address = true

theorem object_of_shape {target u : Token} {g : Entry}
    (shaped : shapeForTarget db target g = .ok (.object u)) : g.kind = .object := by
  unfold shapeForTarget at shaped
  repeat' split at shaped
  all_goals first | assumption | cases shaped

theorem ValidSlot.takes {slot : Slot} {wanted : Shape} (valid : ValidSlot w e slot)
    (shaped : shapeFor w.database e = .ok wanted) : wanted.Takes w slot.address := by
  cases wanted with
  | object target =>
    obtain ⟨refers, f, known, shape⟩ := target_of_shapeFor shaped rfl
    exact valid.imp_right fun live => live target f refers known (.inl (object_of_shape shape))
  | record target boxed =>
    obtain ⟨refers, f, known, shape⟩ := target_of_shapeFor shaped rfl
    exact fun retains => valid.imp_right fun live =>
      live target f refers known (.inr ⟨isRecord_of_shape shape, retains⟩)
  | _ => trivial

/-- Something is seen of a slot that a handle of its shape can be made on. -/
theorem shapeShown_done {slot : Slot} {wanted : Shape} (t : Token)
    (takes : wanted.Takes w slot.address) : ∃ y, w.shapeShown slot t wanted = .done y := by
  cases wanted with
  | object target =>
    exact (instanceShown_done target fun present _ => takes.resolve_left present).imp
      fun _ => And.left
  | interface target =>
    refine (instanceShown_done (w := w) (a := slot.address) target fun _ retained => ?_).imp
      fun _ => And.left
    rw [Bool.and_eq_true] at retained
    rw [w.isLive_eq, retained.2]
  | record target boxed =>
    exact (recordShown_done target fun present retained =>
      (takes retained).resolve_left present).imp fun _ => And.left
  | _ => exact ⟨_, rfl⟩

theorem succeeds_of_shown {p : Bridge Value} {y : Shown}
    (shown : Bridge.shown calls p w = .done (.ok y)) :
    ∃ v w', Bridge.Succeeds calls p w v w' := by
  unfold Bridge.shown at shown
  cases ended : (p.run.run calls w).1 with
  | stopped why => rw [ended] at shown; cases shown
  | done r =>
    cases r with
    | error f => rw [ended] at shown; cases shown
    | ok v => exact ⟨v, _, Prod.ext ended rfl⟩

/-- Both directions reject the same types.  Under an unsupported type encoding fails for every value
and decoding for every slot, with the same text, and everything is left as it was.  Under any other
type, decoding succeeds for every slot that is null or valid, and encoding fails for want of support
only for a host array, where the elements of the type have no encoding. -/
theorem codec_support (calls : Calls) (w : World) (built : w.database.Built) (t : Token) (e : Entry)
    (found : w.database.entry? t = some e) :
    (∀ text, Unsupported w.database e text →
        (∀ x block, ∃ w', Bridge.Fails calls (encode x t block) w (.unsupported text) w'
          ∧ w.Alike w')
        ∧ ∀ slot, ∃ w', Bridge.Fails calls (decode slot t) w (.unsupported text) w' ∧ w.Alike w')
      ∧ ((∀ text, ¬Unsupported w.database e text) →
        (∀ slot, ValidSlot w e slot → ∃ v w', Bridge.Succeeds calls (decode slot t) w v w')
        ∧ ∀ x block text, (∃ w', Bridge.Fails calls (encode x t block) w (.unsupported text) w')
          ↔ ∃ element, e.tag = .array ∧ element ∈ e.parts ∧ x.isArray = true
            ∧ (w.database.tagOf element).isElement = false
            ∧ text = "array of " ++ (w.database.tagOf element).name) := by
  have linked := built.sound.toLinked
  refine ⟨fun text unsupported => ⟨fun x block => ?_, fun slot => ?_⟩, fun supported => ?_⟩
  · exact fails_of_unsupported calls linked found unsupported keepNothing _
  · exact fails_of_unsupported calls linked found unsupported Value.claims _
  · obtain ⟨wanted, shaped⟩ : ∃ wanted, shapeFor w.database e = .ok wanted := by
      cases shaped : shapeFor w.database e with
      | ok wanted => exact ⟨wanted, rfl⟩
      | error f =>
        obtain ⟨text, _, unsupported⟩ := (shapeFor_error_iff linked found).mp shaped
        exact absurd unsupported (supported text)
    refine ⟨fun slot valid => ?_, fun x block text => ?_⟩
    · obtain ⟨y, shown⟩ := shapeShown_done t (valid.takes shaped)
      refine succeeds_of_shown (y := y) ?_
      rw [(displays_decode slot built.sound found).shown, World.decoding, shaped]
      exact congrArg (Outcome.map Except.ok) shown
    · rw [encode_unsupported_iff linked found shaped]
      refine exists_congr fun element => ⟨?_, ?_⟩
      · rintro ⟨zero, size, shape, refused⟩
        obtain ⟨array, part⟩ := (array_shape_iff shaped).mp ⟨zero, size, shape⟩
        exact ⟨array, part, refused⟩
      · rintro ⟨array, part, refused⟩
        obtain ⟨zero, size, shape⟩ := (array_shape_iff shaped).mpr ⟨array, part⟩
        exact ⟨zero, size, shape, refused⟩

/-- A type that has a shape is supported. -/
theorem supported_of_shape (wanted : Shape) (linked : w.database.Linked)
    (found : w.database.entry? t = some e) (shaped : shapeFor w.database e = .ok wanted)
    (text : String) : ¬Unsupported w.database e text := fun unsupported => by
  cases shaped.symm.trans ((shapeFor_error_iff linked found).mpr ⟨text, rfl, unsupported⟩)

/-- A type without values here, and the type of arrays of truth values. -/
def sampleRejected : Database :=
  let table := (({} : Database).addType (.plain .ghash)).2
  let flag := (table.addType (.plain .boolean)).2
  (flag.addType (.array 2 .plain false none none)).2

theorem sampleRejected_built : sampleRejected.Built := by
  refine .next (.next (.next .empty (.type ?_)) (.type ?_)) (.type ?_)
  all_goals decide

theorem codec_support_sample :
    (∃ w', Bridge.Fails (Session.calls 0) (encode .nil 1 []) { database := sampleRejected }
        (.unsupported "ghash") w' ∧ World.Alike { database := sampleRejected } w')
      ∧ ∃ w', Bridge.Fails (Session.calls 0) (encode (.str "on") 3 [])
        { database := sampleRejected } (.unsupported "array of boolean") w' := by
  let w : World := { database := sampleRejected }
  let table : Entry := { name := none, home := none, content := .type (.plain .ghash) }
  let flags : Entry :=
    { name := none, home := none, content := .type (.array 2 .plain false none none) }
  have found : w.database.entry? 3 = some flags := by decide +kernel
  have supported : ∀ text, ¬Unsupported w.database flags text :=
    supported_of_shape (.array 2 false none) sampleRejected_built.sound.toLinked found rfl
  have rejected := (codec_support (Session.calls 0) w sampleRejected_built 1 table
    (by decide +kernel)).1 "ghash" (.tag (.inr (.inl rfl)))
  have accepted :=
    (codec_support (Session.calls 0) w sampleRejected_built 3 flags found).2 supported
  exact ⟨rejected.1 .nil [], (accepted.2 (.str "on") [] _).mpr
    ⟨2, rfl, by decide, rfl, by decide +kernel, by decide +kernel⟩⟩

/-- A record is a valid value of its type, and still it has no value where the number of the type
stands for an object type: decoding its address panics, because it is no live instance. -/
theorem record_not_decoded :
    ¬∀ (w : World) (t : Token) (e : Entry) (slot : Slot), w.database.Built →
      w.database.entry? t = some e → (∀ text, ¬Unsupported w.database e text) →
      (slot.address = 0 ∨ ∀ target f, e.target? = some target →
        w.database.entry? target = some f →
        (f.kind = .object → w.store.isLive slot.address = true)
          ∧ (f.kind.isRecord = true →
            UInt64.size ≤ slot.address ∧ slot.address + f.size ≤ w.memory.next)) →
      ∃ v w', Bridge.Succeeds (Session.calls 1) (decode slot t) w v w' := by
  intro succeeds
  let slot : Slot := .ofAddress ((Handle.sampleRecord.bench.book.lookup "N").getD 0)
  let e : Entry := { name := none, home := none, content := .type (.reference 2) }
  have same := Handle.sampleRecord_database
  have built : Handle.sampleRecord.database.Built := same ▸ Handle.sampleHolder_built
  have found : Handle.sampleRecord.database.entry? 4 = some e := by decide +kernel
  have shaped : shapeFor Handle.sampleRecord.database e = .ok (.record 2 false) := by
    decide +kernel
  obtain ⟨v, w', ran⟩ := succeeds Handle.sampleRecord 4 e slot built found
    (supported_of_shape _ built.sound.toLinked found shaped) (.inr fun target f refers known => by
      cases refers
      have box : (Handle.sampleRecord.database.entry? 2).map (fun f => (f.kind, f.size))
          = some (.boxed, 8) := by decide +kernel
      rw [known] at box
      obtain ⟨kind, size⟩ := Prod.mk.inj (Option.some.inj box)
      rw [kind, size]
      exact ⟨nofun, fun _ => by decide +kernel⟩)
  have stopped : (match ((decode slot 4).run.run (Session.calls 1) Handle.sampleRecord).1 with
      | .stopped _ => true
      | .done _ => false) = true := by decide +kernel
  rw [ran] at stopped
  cases stopped

end Codec
end ObjectBridge
