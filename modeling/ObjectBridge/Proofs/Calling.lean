import ObjectBridge.Library
import ObjectBridge.Proofs.Constructing

/-!
# Calling and evaluating is tame

Everything but the native function itself only reads until the result is decoded.  A handle that an
evaluation names is one of its arguments or its receiver, so it was made before.
-/

namespace ObjectBridge

open Program Descriptor

variable {z z' : Horizon}

/-- An argument that a program may use once a horizon is reached. -/
def Argument.Known (z : Horizon) : Argument → Prop
  | .value v => v.Known z
  | _ => True

theorem Argument.Known.mono (later : z ≤ z') {x : Argument} (known : x.Known z) : x.Known z' := by
  cases x with
  | value v => exact Value.Known.mono later known
  | _ => trivial

namespace Call

theorem reading_encodeArguments {parameters : List SignatureParameter} {arguments : List Value}
    {slots : Slots} {block : Codec.ArgumentBlock} :
    Bridge.Reading (encodeArguments parameters arguments slots block) := by
  induction parameters generalizing arguments slots block with
  | nil =>
    cases arguments <;> exact Bridge.reading_pure
  | cons p ps ih =>
    cases arguments with
    | nil => exact Bridge.reading_pure
    | cons v vs => exact Codec.reading_encode.bind fun _ => ih

theorem reading_receiverSlots {s : Signature} {name : String} {receiver : Address} :
    Bridge.Reading (receiverSlots s name receiver) := by
  unfold receiverSlots
  split
  · split
    · exact Bridge.reading_throw
    · exact Bridge.reading_pure
  · exact Bridge.reading_pure

theorem reading_warnOfOutputs {name : String} {outputs : List Slot} :
    Reading (warnOfOutputs name outputs) := by
  unfold warnOfOutputs
  split
  · exact reading_pure
  · exact reading_warn

/-- Calling a native function is tame. -/
theorem tame_invoke {callable : Token} {receiver : Address} {arguments : List Value} :
    Bridge.Tame (invoke callable receiver arguments) z fun z v => v.Known z := by
  refine .region ?_
  refine Signature.reading_ofCallable.tame.bind fun _ signature _ _ => ?_
  refine (Bridge.tame_lift reading_qualifiedName.tame).bind fun _ name _ _ => ?_
  dsimp only
  split
  · exact Bridge.tame_throw_bind
  · refine reading_receiverSlots.tame.bind fun _ start _ _ => ?_
    refine reading_encodeArguments.tame.bind fun _ encoded _ _ => ?_
    refine (Bridge.tame_lift <| tame_request (r := .invoke callable encoded.1.inputs
      encoded.1.outputs) trivial).bind fun _ reply _ _ => ?_
    refine Bridge.reading_except.tame.bind fun _ slot _ _ => ?_
    refine (Bridge.tame_lift reading_warnOfOutputs.tame).bind fun _ _ _ _ => ?_
    split
    · exact Codec.tame_decode
    · exact Bridge.tame_pure fun _ _ => Value.known_of_claims rfl

end Call

namespace Runtime

/-- Storing a property of an instance is tame. -/
theorem tame_storeProperty {a : Address} {property : Token} {name : String} {slot : Slot} :
    Tame (storeProperty a property name slot) z plain :=
  tame_database.bind fun _ _ _ _ => tame_liveInstance.bind fun _ _ _ _ =>
    reading_copyString.tame.bind fun _ kept _ _ =>
      (tame_request (r := .storeProperty a name kept) trivial).plain

/-- Writing a property of an instance is tame. -/
theorem tame_writeProperty {a : Address} {name : String} {slot : Slot} :
    Bridge.Tame (writeProperty a name slot) z plain :=
  reading_findProperty.tame.bind fun _ _ _ _ => Bridge.tame_lift tame_storeProperty

end Runtime

namespace Handle

/-- A handle that is made, or a failure to make it, is a value that is known. -/
theorem tame_made {p : Bridge HandleId} (tame : Bridge.Tame p z fun z h => h < z.1) :
    Bridge.Tame (p >>= fun h => pure (Value.handle h)) z fun z v => v.Known z :=
  tame.bind fun _ _ _ made => Bridge.tame_pure fun _ later =>
    Value.known_handle (Nat.lt_of_lt_of_le made later.1)

theorem tame_readProperty {r : HandleRecord} {property : Token} {name : String} :
    Bridge.Tame (readProperty r property name) z fun z v => v.Known z := by
  refine .region (reading_receiver.tame.bind fun _ a _ _ => ?_)
  refine (Bridge.tame_lift tame_entry).bind fun _ e _ _ => ?_
  dsimp only
  split
  · exact Bridge.tame_throw_bind
  · exact reading_memberType.tame.bind fun _ type _ _ =>
      (Bridge.reading_ofRuntime Runtime.reading_readProperty).tame.bind fun _ slot _ _ =>
        Codec.tame_decode

theorem tame_writeProperty {r : HandleRecord} {property : Token} {name : String} {v : Value} :
    Bridge.Tame (writeProperty r property name v) z plain := by
  refine .region (reading_receiver.tame.bind fun _ a _ _ => ?_)
  refine (Bridge.tame_lift tame_entry).bind fun _ e _ _ => ?_
  dsimp only
  split
  · exact Bridge.tame_throw_bind
  · exact reading_memberType.tame.bind fun _ type _ _ => Codec.reading_encode.tame.bind
      fun _ encoded _ _ => Bridge.tame_ofRuntime Runtime.tame_writeProperty

theorem tame_readField {r : HandleRecord} {field : Token} {name : String} :
    Bridge.Tame (readField r field name) z fun z v => v.Known z :=
  .region <| reading_receiver.tame.bind fun _ _ _ _ => reading_memberType.tame.bind
    fun _ _ _ _ => (Bridge.reading_ofRuntime Runtime.reading_readField).tame.bind
      fun _ _ _ _ => Codec.tame_decode

theorem reading_writeField {r : HandleRecord} {field : Token} {name : String} {v : Value} :
    Bridge.Reading (writeField r field name v) :=
  .region <| reading_receiver.bind fun _ => reading_memberType.bind fun _ =>
    Codec.reading_encode.bind fun _ =>
      Bridge.reading_ofRuntime Runtime.reading_writeField

theorem tame_bindMethod {h : HandleId} {r : HandleRecord} {method : Token} (own : h < z.1) :
    Tame (bindMethod h r method) z fun z h => h < z.1 := by
  refine tame_entry.bind fun z₁ e later _ => ?_
  have still : h < z₁.1 := Nat.lt_of_lt_of_le own later.1
  dsimp only
  split
  · exact tame_unbound
  · split
    · exact tame_entry.bind fun z₂ _ later₂ _ =>
        tame_derived (Nat.lt_of_lt_of_le still later₂.1)
    · exact reading_pure.tame.bind fun z₂ _ later₂ _ =>
        tame_derived (Nat.lt_of_lt_of_le still later₂.1)

/-- Extracting a member of a handle is tame. -/
theorem tame_extract {h : HandleId} {name : String} (own : h < z.1) :
    Bridge.Tame (extract h name) z fun z v => v.Known z := by
  refine .region ((Bridge.tame_lift tame_handleRecord).bind fun z₁ r later₁ _ => ?_)
  refine reading_typed.tame.bind fun z₂ info later₂ _ => ?_
  refine (Bridge.tame_lift tame_entry).bind fun z₃ e later₃ _ => ?_
  split
  · exact ListCursor.tame_extract
  · refine Member.reading_resolve.tame.bind fun z₄ member later₄ _ => ?_
    split
    · exact Bridge.tame_pure fun _ _ => Value.known_of_claims rfl
    · refine tame_made (Bridge.tame_lift (tame_bindMethod ?_))
      exact Nat.lt_of_lt_of_le own (le_trans (le_trans later₁ later₂) (le_trans later₃ later₄)).1
    · exact tame_readProperty
    · exact tame_readField
    · exact tame_made (Bridge.tame_lift tame_unbound)

theorem tame_get {h : HandleId} {name : String} :
    Bridge.Tame (get h name) z fun z v => v.Known z := by
  refine .region ((Bridge.tame_lift tame_handleRecord).bind fun _ r _ _ => ?_)
  refine reading_typed.tame.bind fun _ info _ _ => ?_
  refine (Bridge.tame_lift Member.reading_findProperty.tame).bind fun _ found _ _ => ?_
  split
  · exact tame_readProperty
  · refine (Bridge.tame_lift Member.reading_findField.tame).bind fun _ found _ _ => ?_
    split
    · exact tame_readField
    · exact Bridge.tame_throw

theorem tame_set {h : HandleId} {name : String} {v : Value} :
    Bridge.Tame (set h name v) z plain := by
  refine .region ((Bridge.tame_lift tame_handleRecord).bind fun _ r _ _ => ?_)
  refine reading_typed.tame.bind fun _ info _ _ => ?_
  refine (Bridge.tame_lift Member.reading_findProperty.tame).bind fun _ found _ _ => ?_
  split
  · exact tame_writeProperty
  · refine (Bridge.tame_lift Member.reading_findField.tame).bind fun _ found _ _ => ?_
    split
    · exact reading_writeField.tame
    · exact Bridge.tame_throw

/-- A handle of another type on the instance of a handle is tame. -/
theorem tame_cast {info : Token} {source : HandleId} (own : source < z.1) :
    Tame (cast info source) z fun z h => h < z.1 := by
  refine tame_handleRecord.bind fun z₁ r later₁ _ => tame_entry.bind fun z₂ target later₂ _ => ?_
  have still : source < z₂.1 := Nat.lt_of_lt_of_le own (le_trans later₁ later₂).1
  dsimp only
  split
  · exact tame_entry.bind fun z₃ e later₃ _ => tame_trace.bind fun z₄ _ later₄ _ =>
      tame_derived (Nat.lt_of_lt_of_le still (le_trans later₃ later₄).1)
  · exact reading_pure.tame.bind fun z₃ _ later₃ _ => tame_trace.bind fun z₄ _ later₄ _ =>
      tame_derived (Nat.lt_of_lt_of_le still (le_trans later₃ later₄).1)

theorem tame_constructRecord {info : Token} :
    Tame (constructRecord info) z fun z h => h < z.1 :=
  tame_entry.bind fun _ e _ _ => tame_trace.bind fun _ _ _ _ =>
    tame_request (r := .openBlock info (max e.size 1)) trivial

theorem tame_access {h : HandleId} {arguments : List Argument} :
    Bridge.Tame (access h arguments) z plain := by
  unfold access
  split
  · exact Bridge.reading_pure.tame
  · exact tame_set.bind fun _ _ _ _ => Bridge.reading_pure.tame
  · split
    · exact Bridge.tame_throw
    · split
      · exact .region <| tame_get.bind fun _ v _ known => (Bridge.tame_lift <|
          tame_request (r := .assignGlobal _ v) known).bind fun _ _ _ _ => Bridge.reading_pure.tame
      · exact Bridge.tame_throw

theorem tame_accessAll {h : HandleId} {limit : Nat} {arguments : List Argument} :
    Bridge.Tame (accessAll h limit arguments) z plain := by
  induction limit generalizing arguments z with
  | zero => exact Bridge.reading_pure.tame
  | succ limit ih =>
    cases arguments with
    | nil => exact Bridge.reading_pure.tame
    | cons x rest => exact tame_access.bind fun _ _ _ _ => ih

theorem tame_finish {h : HandleId} {arguments : List Argument} (own : h < z.1) :
    Bridge.Tame (finish h arguments) z fun z v => v.Known z := by
  unfold finish
  split
  · exact Bridge.tame_pure fun _ later => Value.known_handle (Nat.lt_of_lt_of_le own later.1)
  · exact tame_accessAll.bind fun _ _ later _ => Bridge.tame_pure fun _ later' =>
      Value.known_handle (Nat.lt_of_lt_of_le own (le_trans later later').1)

theorem tame_evalInstance {h : HandleId} {r : HandleRecord} {info : Token} {kind : EntryKind}
    {arguments : List Argument} (own : h < z.1) (known : ∀ x ∈ arguments, x.Known z) :
    Bridge.Tame (evalInstance h r info kind arguments) z fun z v => v.Known z := by
  unfold evalInstance
  split
  · exact (Bridge.tame_lift (tame_hold (c := .handle h) own)).bind fun _ _ later _ =>
      tame_finish (Nat.lt_of_lt_of_le own later.1)
  · split
    · next source rest =>
      have made : (Value.handle source).Known z := known _ List.mem_cons_self
      have older : source < z.1 := made _ (List.mem_singleton_self _)
      exact (Bridge.tame_lift (tame_cast older)).bind fun _ _ _ => tame_finish
    · split
      · exact tame_made tame_constructObject
      · split
        · exact (Bridge.tame_lift tame_constructRecord).bind fun _ _ _ => tame_finish
        · exact (Bridge.tame_lift reading_qualifiedName.tame).bind fun _ _ _ _ => Bridge.tame_throw

/-- Evaluating a handle is tame. -/
theorem tame_eval {h : HandleId} {arguments : List Argument} (own : h < z.1)
    (known : ∀ x ∈ arguments, x.Known z) :
    Bridge.Tame (eval h arguments) z fun z v => v.Known z := by
  refine .region ((Bridge.tame_lift tame_handleRecord).bind fun z₁ r later₁ _ => ?_)
  refine reading_typed.tame.bind fun z₂ info later₂ _ => ?_
  refine (Bridge.tame_lift tame_entry).bind fun z₃ e later₃ _ => ?_
  have later := le_trans (le_trans later₁ later₂) later₃
  split
  · exact ListCursor.tame_nth
  · split
    · exact Bridge.reading_except.tame.bind fun _ values _ _ => Call.tame_invoke
    · split
      · exact tame_evalInstance (Nat.lt_of_lt_of_le own later.1)
          fun x member => (known x member).mono later
      · exact (Bridge.tame_lift reading_qualifiedName.tame).bind fun _ _ _ _ => Bridge.tame_throw

end Handle

namespace Library

/-- Loading a namespace is tame. -/
theorem tame_load {name : String} {version directory : Option String} :
    Bridge.Tame (load name version directory) z fun z v => v.Known z := by
  refine (Bridge.tame_lift tame_database).bind fun _ db _ _ => ?_
  split
  · exact Bridge.tame_throw
  · next found catalog _ =>
    exact (Bridge.tame_lift (tame_request (r := .setDatabase _) trivial)).bind fun _ _ _ _ =>
      (Bridge.tame_lift (tame_request (r := .recordRequired name found) trivial)).bind
        fun _ _ _ _ => Bridge.tame_pure fun _ _ => Value.known_of_claims rfl

/-- Extracting an entry of a namespace is tame. -/
theorem tame_extract {library name : String} :
    Bridge.Tame (extract library name) z fun z v => v.Known z := by
  refine .region ((Bridge.tame_lift tame_database).bind fun _ db _ _ => ?_)
  refine (Bridge.tame_lift reading_take.tame).bind fun _ found _ _ => ?_
  split
  · exact Bridge.tame_throw
  · refine (Bridge.tame_lift tame_entry).bind fun _ e _ _ => ?_
    split
    · refine (Bridge.tame_lift reading_declared.tame).bind fun _ declared _ _ => ?_
      split
      · exact Codec.tame_decode
      · exact Bridge.tame_throw
    · exact Handle.tame_made (Bridge.tame_lift Handle.tame_unbound)

end Library
end ObjectBridge
