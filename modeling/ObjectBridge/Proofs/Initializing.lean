import ObjectBridge.Proofs.Assigning
import ObjectBridge.Proofs.Constructing

/-!
# What a construction stores

The initial values of a construction are encoded with storage of one argument block, and the runtime
stores the slots in the new instance, of strings as copies.  The instance itself lies in storage of
its own.
-/

namespace ObjectBridge

open Program Bridge Descriptor

variable {calls : Calls} {w w₁ w' : World} {a b : Address}

namespace Runtime

variable {number : TypeNumber} {slot : Slot} {name : String}

/-- Every initial property is found on the type that is constructed. -/
theorem mem_findInitial {db : Database} {className : String} {initial : List Initial}
    {found : List (Token × Initial)} (finds : findInitial db number className initial = .ok found) :
    ∀ row ∈ found, row.2 ∈ initial ∧ db.chainMember? number .property row.2.name = some row.1 := by
  induction initial generalizing found with
  | nil =>
    cases finds
    exact fun row member => absurd member List.not_mem_nil
  | cons first rest ih =>
    simp only [findInitial] at finds
    split at finds
    · cases finds
    · next property known =>
      cases others : findInitial db number className rest with
      | error f => simp [others, Except.map] at finds
      | ok rows =>
        simp only [others, Except.map, Except.ok.injEq] at finds
        subst finds
        intro row member
        rcases List.mem_cons.mp member with rfl | later
        · exact ⟨List.mem_cons_self, known⟩
        · obtain ⟨inside, declared⟩ := ih others row later
          exact ⟨List.mem_cons_of_mem first inside, declared⟩

end Runtime

namespace Handle

variable {info : Token} {name : String} {v : Value} {block block' : Codec.ArgumentBlock}

/-- An initial value of a construction. -/
structure Item where
  /-- The name of the property. -/
  name : String
  /-- The value. -/
  value : Value
  /-- The declared type of the property. -/
  type : Token
  /-- The slot of the value. -/
  slot : Slot

/-- What the runtime gets of an initial value. -/
def Item.initial (x : Item) : Runtime.Initial := ⟨x.name, x.slot⟩

/-- Encode an initial value. -/
def encodeItem (info : Token) (name : String) (v : Value) (block : Codec.ArgumentBlock) :
    Bridge (Item × Codec.ArgumentBlock) :=
  Bridge.region keepNothing do
    match ← Member.findProperty info name with
    | none => throw (.noMember name)
    | some (property, spelling) =>
      let type ← memberType property spelling
      let (slot, block) ← Codec.encode v type block
      return (⟨spelling, v, type, slot⟩, block)

/-- Encode the initial values, in order. -/
def encodeItems (info : Token) :
    Nat → List Argument → Codec.ArgumentBlock → Bridge (List Item × Codec.ArgumentBlock)
  | 0, _, block => return ([], block)
  | limit + 1, arguments, block => do
    match ← initializer arguments with
    | none => return ([], block)
    | some (name, v, rest) =>
      let (item, block) ← encodeItem info name v block
      let (others, block) ← encodeItems info limit rest block
      return (item :: others, block)

/-- Build an instance from initial properties. -/
def build (info : Token) (initial : List Runtime.Initial) : Bridge HandleId := do
  trace [info]
  let e ← entry info
  let name ← qualifiedName info
  let reading (f : RuntimeFailure) : Failure :=
    .constructionFailed (name ++ " (" ++ f.message ++ ")")
  let a ← Bridge.ofRuntime reading (Runtime.construct e.number initial)
  let i ← liveInstance a
  if i.floating then request (.sink a)
  retained (some info) a

theorem encodeInitial_eq :
    encodeInitial info name v block
      = encodeItem info name v block >>= fun r => pure (r.1.initial, r.2) := by
  unfold encodeInitial encodeItem
  rw [← region_map]
  simp only [bind_assoc]
  congr 1
  refine bind_congr fun found => ?_
  cases found with
  | none => rfl
  | some named =>
    simp only [bind_assoc, pure_bind]
    rfl

theorem encodeInitials_eq {limit : Nat} {arguments : List Argument} :
    encodeInitials info limit arguments block
      = encodeItems info limit arguments block >>= fun r => pure (r.1.map Item.initial) := by
  induction limit generalizing arguments block with
  | zero => rfl
  | succ limit ih =>
    unfold encodeInitials encodeItems
    rw [bind_assoc]
    refine congrArg _ (funext fun next => ?_)
    cases next with
    | none => rfl
    | some initial =>
      simp only [encodeInitial_eq, ih, bind_assoc, pure_bind]
      rfl

/-- A construction encodes the initial values, and then it builds the instance without the argument
block. -/
theorem constructObject_eq {arguments : List Argument} :
    constructObject info arguments
      = region claims (encodeItems info arguments.length arguments [] >>= fun r =>
          build info (r.1.map Item.initial)) := by
  unfold constructObject
  rw [encodeInitials_eq]
  simp only [bind_assoc, pure_bind]
  rfl

theorem silent_encodeItem : Bridge.Silent (encodeItem info name v block) := by
  refine .region ((silent_lift Member.silent_findProperty).bind fun found => ?_)
  split
  · exact silent_throw
  · exact silent_memberType.bind fun _ => Codec.silent_encode.bind fun _ => Bridge.silent_pure

theorem reading_encodeItem : Bridge.Reading (encodeItem info name v block) := by
  refine .region ((reading_lift Member.reading_findProperty).bind fun found => ?_)
  split
  · exact reading_throw
  · exact reading_memberType.bind fun _ => Codec.reading_encode.bind fun _ => Bridge.reading_pure

/-- What becomes of the argument block of a construction. -/
structure ConstructionContained (calls : Calls) (w : World) (info : Token)
    (arguments : List Argument) : Prop where
  /-- An address of the block that is stored is the slot of an initial value; the value is that
  address itself, or its type needs storage, and in either case the property is no string. -/
  stores : ∀ a, (constructObject info arguments).run.Stores calls w a →
    ∃ items block w₁,
      Succeeds calls (encodeItems info arguments.length arguments []) w (items, block) w₁
        ∧ (block.Owns a → ∃ x ∈ items, a = x.slot.address
          ∧ (x.value.Mentions w.store a ∨ w₁.database.holds x.type = true)
          ∧ ∃ e tag, w₁.database.entry? info = some e
            ∧ w₁.database.propertyTag? e.number x.name = some tag ∧ tag.isString = false)
  /-- The handle that is made stands for no address of the block. -/
  value : ∀ h w', Succeeds calls (constructObject info arguments) w h w' →
    ∃ items block w₁,
      Succeeds calls (encodeItems info arguments.length arguments []) w (items, block) w₁
        ∧ ∀ a, block.Owns a → ¬(Value.handle h).Mentions w'.store a

end Handle
end ObjectBridge
