import ObjectBridge.Proofs.Revealing

/-!
# What setting a member leaves

Setting a member looks it up, encodes the value and has the runtime store the slot.  It always ends.
Where it fails it changed nothing, and where it succeeds the world is the same but for what was
stored: the bytes of a field, or a property of an instance, and the storage of a copied text.
-/

namespace ObjectBridge

open Program Bridge

variable {calls : Calls} {w w₁ w' u v : World}

namespace World

/-- What was left untouched was only looked at. -/
theorem Untouched.looked (untouched : w.Untouched w') : w.Looked w' where
  toSteady := untouched.toSteady
  reading := ⟨[], by simp, untouched.alike.rest, fun t => by simp [untouched.alike.ledger t],
    by simp [untouched.alike.total], untouched.next⟩

/-- A change of memory commutes with looking. -/
theorem Looked.with_memory (looked : w.Looked w') (m : Memory) :
    ({ w with memory := m }).Looked { w' with memory := m } where
  frame := by
    rw [looked.frame]
  next := Nat.le_refl _
  cells _ _ := rfl
  reading := by
    obtain ⟨top, reading⟩ := looked.reading
    exact ⟨top, reading.entries, reading.store, reading.ledger, reading.total, Nat.le_refl _⟩

end World

namespace Bridge

variable {α β : Type} {good good' : α → World → Prop}

/-- A program that may fail ends: it fails after looking at things, or it succeeds and leaves
something good. -/
def Concludes (calls : Calls) (p : Bridge α) (w : World) (good : α → World → Prop) : Prop :=
  (∃ f w', Fails calls p w f w' ∧ w.Looked w') ∨ ∃ x w', Succeeds calls p w x w' ∧ good x w'

theorem Succeeds.concludes {p : Bridge α} {x : α} (ran : Succeeds calls p w x w')
    (holds : good x w') : Concludes calls p w good :=
  .inr ⟨x, w', ran, holds⟩

/-- What follows a result that is found. -/
theorem Finds.concludes {p : Bridge β} {g : β → Bridge α} {post : Except Failure β → Prop}
    (finds : Finds p v post) (looked : v.Looked w)
    (rest : ∀ x w₁, Succeeds calls p w x w₁ → w.Looked w₁ → w.memory.Extends w₁.memory →
      post (.ok x) → Concludes calls (g x) w₁ good) : Concludes calls (p >>= g) w good := by
  obtain ⟨r, w₁, passes, looked₁, holds⟩ := finds calls w looked
  cases r with
  | error f => exact .inl ⟨f, w₁, fails_bind.mpr (.inl passes.run), looked₁⟩
  | ok x =>
    rcases rest x w₁ passes.run looked₁ passes.extends holds with
      ⟨f, w', failed, looked₂⟩ | ⟨y, w', ran, fine⟩
    · exact .inl ⟨f, w', fails_bind.mpr (.inr ⟨x, w₁, passes.run, failed⟩), looked₁.trans looked₂⟩
    · exact .inr ⟨y, w', succeeds_bind.mpr ⟨x, w₁, passes.run, ran⟩, fine⟩

theorem Concludes.weaken {p : Bridge α} (concludes : Concludes calls p w good)
    (holds : ∀ x w', good x w' → good' x w') : Concludes calls p w good' :=
  concludes.imp id fun ⟨x, w', ran, fine⟩ => ⟨x, w', ran, holds x w' fine⟩

/-- What is found in a world is found in whatever looking makes of it. -/
theorem Finds.later {p : Bridge β} {post : Except Failure β → Prop} (finds : Finds p v post)
    (looked : v.Looked w) : Finds p w post :=
  fun calls w₁ looked₁ => finds calls w₁ (looked.trans looked₁)

/-- What follows something that is found without fail. -/
theorem concludes_after {p : Program β} {g : β → Bridge α} {x : β} (finds : p.Finds v (· = x))
    (looked : v.Looked w)
    (rest : ∀ w₁, w.Looked w₁ → w.memory.Extends w₁.memory → Concludes calls (g x) w₁ good) :
    Concludes calls (liftM p >>= g : Bridge α) w good := by
  have lifted : Finds (liftM p : Bridge β) v (· = .ok x) :=
    finds_lift finds fun _ same => congrArg Except.ok same
  refine lifted.concludes looked fun _ w₁ _ looked₁ grown same => ?_
  cases same
  exact rest w₁ looked₁ grown

/-- The region around a program that changes a world gives its temporaries back and leaves the
change. -/
theorem Succeeds.settled {p : Bridge α} {x : α} (ran : Succeeds calls p w x w₁)
    (looked : u.Looked w₁) (held : u.store.held = w.store.held) :
    ∃ w', Succeeds calls (Bridge.region keepNothing p) w x w' ∧ u.Untouched w'
      ∧ w'.memory = w₁.memory := by
  obtain ⟨top, reading⟩ := looked.reading
  obtain ⟨done, settled⟩ := reading.settle []
  rw [Store.part_nil] at settled
  rw [held] at done settled
  refine ⟨(w₁.settle w.store.held.length []).2, ?_,
    settled.untouched (looked.toSteady.trans (World.steady_settle w₁ _ _)), rfl⟩
  rw [Succeeds, region_eq, run_region, ran]
  exact close_done.mpr ⟨w₁, rfl, Prod.ext done rfl⟩

/-- The region around a program that concludes. -/
theorem Concludes.region {p : Bridge α} (concludes : Concludes calls p w good)
    (settles : ∀ x w₁, good x w₁ → ∃ u : World, u.Looked w₁ ∧ u.store.held = w.store.held
      ∧ ∀ w', u.Untouched w' → w'.memory = w₁.memory → good' x w') :
    Concludes calls (Bridge.region keepNothing p) w good' := by
  rcases concludes with ⟨f, w₁, failed, looked⟩ | ⟨x, w₁, ran, fine⟩
  · obtain ⟨top, reading⟩ := looked.reading
    obtain ⟨done, settled⟩ := reading.settle []
    refine .inl ⟨f, (w₁.settle w.store.held.length []).2, ?_,
      looked.toSteady.trans (World.steady_settle w₁ _ _), _, settled⟩
    rw [Fails, region_eq, run_region, failed]
    exact close_done.mpr ⟨w₁, rfl, Prod.ext done rfl⟩
  · obtain ⟨u, looked, held, settled⟩ := settles x w₁ fine
    obtain ⟨w', ended, untouched, memory⟩ := Succeeds.settled ran looked held
    exact Succeeds.concludes ended (settled w' untouched memory)

end Bridge

namespace Codec

variable {x : Value} {t : Nat} {tag : Tag} {kept : Slot} {m : Memory} {e : Entry} {wanted : Shape}

/-- What is kept of a value under a type lies in memory: the value was encoded, and of a text a copy
was made. -/
def Lodges (calls : Calls) (w : World) (x : Value) (t : Token) (tag : Tag) (kept : Slot)
    (m : Memory) : Prop :=
  ∃ slot block w₁ w₂, w.Looked w₁ ∧ Succeeds calls (encode x t []) w₁ (slot, block) w₂
    ∧ w.memory.Extends w₁.memory ∧ w₂.memory.Extends m
    ∧ Runtime.CopiedText w₂.memory m tag slot kept

theorem Lodges.mono (lodges : Lodges calls w₁ x t tag kept m) (looked : w.Looked w₁)
    (grown : w.memory.Extends w₁.memory) : Lodges calls w x t tag kept m := by
  obtain ⟨slot, block, w₂, w₃, looked₂, encoded, first, rest⟩ := lodges
  exact ⟨slot, block, w₂, w₃, looked.trans looked₂, encoded, grown.trans first, rest⟩

theorem Lodges.extends (lodges : Lodges calls w x t tag kept m) : w.memory.Extends m := by
  obtain ⟨slot, block, w₁, w₂, _, encoded, first, last, _⟩ := lodges
  exact first.trans (((silent_encode.extends encoded)).trans last)

/-- What is kept of a value in a lasting shape stands for the value. -/
theorem Lodges.standsFor (lodges : Lodges calls w x t e.tag kept m) (linked : w.database.Linked)
    (reserved : 0 < w.memory.next) (found : w.database.entry? t = some e)
    (shaped : shapeFor w.database e = .ok wanted) (lasting : wanted.isLasting = true) :
    StandsFor w.store x m kept wanted := by
  obtain ⟨slot, block, w₁, w₂, looked, encoded, first, last, copied⟩ := lodges
  have grown : w.memory.Extends w₂.memory := first.trans (silent_encode.extends encoded)
  exact copied.standsFor (Nat.lt_of_lt_of_le reserved grown.next) last (tagged_of_shapeFor shaped)
    (standsFor_of_encode linked reserved found shaped lasting looked encoded)

end Codec

namespace Handle

variable {h : HandleId} {r : HandleRecord} {name spelling : String} {a : Address} {member t : Nat}
  {f e : Entry} {i : Instance} {x : Value}

/-- The runtime writes the bytes of a field. -/
theorem succeeds_writeField {field : Token} (calls : Calls) (slot : Slot)
    (declared : Declared w.database field f t e) (present : a ≠ 0) :
    ∃ kept m, Succeeds calls (Runtime.writeField field a slot) w ()
        { w with memory := m.write (a + f.offset) (Cell.ofSlot e.tag.fieldWidth kept) }
      ∧ w.memory.Extends m ∧ Runtime.CopiedText w.memory m e.tag slot kept := by
  obtain ⟨kept, m, ran, grown, copied⟩ := Runtime.run_fieldSlot calls e.tag slot w
  refine ⟨kept, m, ?_, grown, copied⟩
  refine succeeds_bind.mpr ⟨f, w, succeeds_lift.mpr (run_entry.mpr ⟨declared.known, rfl⟩), ?_⟩
  rw [if_neg present]
  refine succeeds_bind.mpr ⟨w.database, w, succeeds_lift.mpr rfl, ?_⟩
  dsimp only
  rw [declared.tag]
  exact succeeds_bind.mpr ⟨kept, _, succeeds_lift.mpr ran, rfl⟩

/-- What setting a field leaves: the bytes of the field are those of what is kept of the value, and
everything else is as before. -/
structure SetField (calls : Calls) (w : World) (x : Value) (b : Address) (t : Token) (tag : Tag)
    (w' : World) (kept : Slot) (m : Memory) : Prop where
  /-- What is kept of the value. -/
  lodged : Codec.Lodges calls w x t tag kept m
  /-- The bytes. -/
  memory : w'.memory = m.write b (Cell.ofSlot tag.fieldWidth kept)
  /-- Everything else is the same. -/
  untouched : ({ w with memory := w'.memory }).Untouched w'

/-- What is left before the temporaries are given back, when a field was set. -/
def StoresField (calls : Calls) (w : World) (x : Value) (b : Address) (t : Token) (tag : Tag)
    (w' : World) : Prop :=
  ∃ kept m, Codec.Lodges calls w x t tag kept m
    ∧ w'.memory = m.write b (Cell.ofSlot tag.fieldWidth kept)
    ∧ ({ w with memory := w'.memory }).Looked w'

/-- The region around a program that sets a field. -/
theorem concludes_region_field {p : Bridge Unit} {b : Address} {tag : Tag}
    (concludes : Concludes calls p w fun _ => StoresField calls w x b t tag) :
    Concludes calls (Bridge.region keepNothing p) w fun _ w' =>
      ∃ kept m, SetField calls w x b t tag w' kept m := by
  refine concludes.region ?_
  rintro _ w₁ ⟨kept, m, lodged, memory, looked⟩
  exact ⟨_, looked, rfl, fun w' untouched same =>
    ⟨kept, m, lodged, same.trans memory, same ▸ untouched⟩⟩

/-- Writing a field. -/
theorem concludes_writeField {field : Token} (linked : w.database.Linked)
    (declared : Declared w.database field f t e) (present : a ≠ 0)
    (receives : Bridge.Finds (receiver r name) w (· = .ok a)) :
    Concludes calls (writeField r field name x) w fun _ w' =>
      ∃ kept m, SetField calls w x (a + f.offset) t e.tag w' kept m := by
  refine concludes_region_field ?_
  refine receives.concludes (.refl w) fun _ w₁ _ looked₁ grown₁ same => ?_
  cases same
  refine declared.finds_type.concludes looked₁ fun _ w₂ _ looked₂ grown₂ same => ?_
  cases same
  refine (Codec.finds_encode linked (Database.has_of_entry declared.type)).concludes
    (looked₁.trans looked₂) fun made w₃ encoded looked₃ grown₃ _ => ?_
  have looked : w.Looked w₃ := (looked₁.trans looked₂).trans looked₃
  obtain ⟨kept, m, wrote, grown, copied⟩ := succeeds_writeField (a := a) calls made.1
    (looked.database ▸ declared : Declared w₃.database field f t e) present
  refine Succeeds.concludes (succeeds_ofRuntime.mpr wrote) ⟨kept, m, ?_, rfl, ?_⟩
  · exact ⟨made.1, made.2, w₂, w₃, looked₁.trans looked₂, encoded, grown₁.trans grown₂, grown,
      copied⟩
  · exact looked.with_memory _

/-- Setting a member that is found as a field. -/
theorem concludes_set_field (calls : Calls) (x : Value) {field : Token} (sound : w.database.Sound)
    (on : OnField w h name a field f t e) :
    Concludes calls (set h name x) w fun _ w' =>
      ∃ kept m, SetField calls w x (a + f.offset) t e.tag w' kept m := by
  obtain ⟨info, spelling, bound, hidden, named, known⟩ := on.has
  refine concludes_region_field ?_
  refine concludes_after finds_handleRecord (.refl w) fun w₁ looked₁ grown₁ => ?_
  refine bound.finds_typed.concludes looked₁ fun _ w₂ _ looked₂ grown₂ same => ?_
  cases same
  have looked := looked₁.trans looked₂
  refine concludes_after (Member.finds_property sound.toLinked known) looked
    fun w₃ looked₃ grown₃ => ?_
  rw [hidden]
  refine concludes_after (Member.finds_field sound.toLinked known) (looked.trans looked₃)
    fun w₄ looked₄ grown₄ => ?_
  rw [named]
  have before : w.Looked w₄ := (looked.trans looked₃).trans looked₄
  have database : w₄.database = w.database := before.database
  refine (concludes_writeField (database ▸ sound.toLinked)
    (database ▸ on.toDeclared : Declared w₄.database field f t e) on.present
    (bound.finds_receiver.later before)).weaken fun _ w' set => ?_
  obtain ⟨kept, m, lodged, memory, untouched⟩ := set
  exact ⟨kept, m, lodged.mono before ((grown₁.trans grown₂).trans (grown₃.trans grown₄)), memory,
    (before.with_memory _).trans untouched.looked⟩

/-- What setting a property leaves: the instance has what is kept of the value under the spelling
with which the property was found, and everything else is as before. -/
structure SetProperty (calls : Calls) (w : World) (x : Value) (a : Address) (i : Instance)
    (spelling : String) (t : Token) (tag : Tag) (w' : World) (kept : Slot) : Prop where
  /-- What is kept of the value. -/
  lodged : Codec.Lodges calls w x t tag kept w'.memory
  /-- Everything else is the same. -/
  untouched :
    (Runtime.filled w w'.memory a i (assign spelling kept i.properties)).Untouched w'

/-- What is left before the temporaries are given back, when a property was set. -/
def StoresProperty (calls : Calls) (w : World) (x : Value) (a : Address) (i : Instance)
    (spelling : String) (t : Token) (tag : Tag) (w' : World) : Prop :=
  ∃ kept, Codec.Lodges calls w x t tag kept w'.memory
    ∧ (Runtime.filled w w'.memory a i (assign spelling kept i.properties)).Looked w'

/-- The region around a program that sets a property. -/
theorem concludes_region_property {p : Bridge Unit} {tag : Tag}
    (concludes : Concludes calls p w fun _ => StoresProperty calls w x a i spelling t tag) :
    Concludes calls (Bridge.region keepNothing p) w fun _ w' =>
      ∃ kept, SetProperty calls w x a i spelling t tag w' kept := by
  refine concludes.region ?_
  rintro _ w₁ ⟨kept, lodged, looked⟩
  exact ⟨_, looked, rfl, fun w' untouched same => ⟨kept, same ▸ lodged, same ▸ untouched⟩⟩

/-- Changing the properties of an instance commutes with looking. -/
theorem looked_filled (looked : w.Looked w') (m : Memory) (a : Address) (i : Instance)
    (properties : List (String × Slot)) :
    (Runtime.filled w m a i properties).Looked (Runtime.filled w' m a i properties) where
  frame := by
    rw [looked.frame]
    rfl
  next := Nat.le_refl _
  cells _ _ := rfl
  reading := by
    obtain ⟨top, reading⟩ := looked.reading
    refine ⟨top, reading.entries, ?_, reading.ledger, reading.total, Nat.le_refl _⟩
    simp only [Runtime.filled, World.setInstance, World.withStore]
    rw [reading.store]

/-- Writing a property. -/
theorem concludes_writeProperty {property : Token} (linked : w.database.Linked)
    (declared : Declared w.database property f t e) (live : w.store.instances.get? a = some i)
    (there : w.database.chainMember? i.number .property spelling = some property)
    (writable : f.propertyFlags.contains PropertyFlag.writable = true)
    (receives : Bridge.Finds (receiver r spelling) w (· = .ok a)) :
    Concludes calls (writeProperty r property spelling x) w fun _ w' =>
      ∃ kept, SetProperty calls w x a i spelling t e.tag w' kept := by
  refine concludes_region_property ?_
  refine receives.concludes (.refl w) fun _ w₁ _ looked₁ grown₁ same => ?_
  cases same
  refine concludes_after (finds_entry declared.known) looked₁ fun w₂ looked₂ grown₂ => ?_
  rw [writable]
  have before := looked₁.trans looked₂
  refine declared.finds_type.concludes before fun _ w₃ _ looked₃ grown₃ same => ?_
  cases same
  refine (Codec.finds_encode linked (Database.has_of_entry declared.type)).concludes
    (before.trans looked₃) fun made w₄ encoded looked₄ grown₄ _ => ?_
  have looked : w.Looked w₄ := (before.trans looked₃).trans looked₄
  have database : w₄.database = w.database := looked.database
  have live : w₄.store.instances.get? a = some i := looked.instances ▸ live
  obtain ⟨kept, m, stored, grown, copied⟩ :=
    Runtime.run_storeProperty_live live property spelling made.1
  rw [database, declared.tag] at copied
  have found : Succeeds calls (Runtime.findProperty a spelling) w₄ property w₄ := by
    refine succeeds_bind.mpr ⟨i, w₄, succeeds_lift.mpr
      (run_liveInstance.mpr ⟨live, rfl⟩), ?_⟩
    refine succeeds_bind.mpr ⟨w₄.database, w₄, succeeds_lift.mpr rfl, ?_⟩
    rw [database, there]
    exact succeeds_pure.mpr ⟨rfl, rfl⟩
  refine Succeeds.concludes (succeeds_ofRuntime.mpr (succeeds_bind.mpr
    ⟨property, w₄, found, succeeds_lift.mpr stored⟩)) ⟨kept, ?_, looked_filled looked _ _ _ _⟩
  exact ⟨made.1, made.2, w₃, w₄, before.trans looked₃, encoded,
    (grown₁.trans grown₂).trans grown₃, grown, copied.text⟩

/-- Setting a member that is found as a property. -/
theorem concludes_set_property (calls : Calls) (x : Value) {property : Token}
    (sound : w.database.Sound) (on : OnProperty w h name a i property spelling f t e)
    (writable : f.propertyFlags.contains PropertyFlag.writable = true) :
    Concludes calls (set h name x) w fun _ w' =>
      ∃ kept, SetProperty calls w x a i spelling t e.tag w' kept := by
  obtain ⟨info, bound, registered, named⟩ := on.found
  have known : w.database.Has info := Member.has_of_property named
  refine concludes_region_property ?_
  refine concludes_after finds_handleRecord (.refl w) fun w₁ looked₁ grown₁ => ?_
  refine bound.finds_typed.concludes looked₁ fun _ w₂ _ looked₂ grown₂ same => ?_
  cases same
  have looked := looked₁.trans looked₂
  refine concludes_after (Member.finds_property sound.toLinked known) looked
    fun w₃ looked₃ grown₃ => ?_
  rw [named]
  have before : w.Looked w₃ := looked.trans looked₃
  have database : w₃.database = w.database := before.database
  refine (concludes_writeProperty (database ▸ sound.toLinked)
    (database ▸ on.toDeclared : Declared w₃.database property f t e)
    (before.instances ▸ on.live) (database ▸ on.chainMember) writable
    (bound.finds_receiver.later before)).weaken fun _ w' set => ?_
  obtain ⟨kept, lodged, untouched⟩ := set
  exact ⟨kept, lodged.mono before ((grown₁.trans grown₂).trans grown₃),
    (looked_filled before _ _ _ _).trans untouched.looked⟩

end Handle
end ObjectBridge
