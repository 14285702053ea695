import ObjectBridge.Handle.Eval
import ObjectBridge.Proofs.Deeds

/-!
# What is silent

Looking things up, encoding values and reading members leave no trace beyond handles and new
storage.  What is left of a call, an assignment or a construction is the request that reaches native
code or the object runtime.
-/

namespace ObjectBridge

open Program Descriptor

namespace Program

theorem silent_stop {α : Type} {why : Stop} : Silent (stop why : Program α) := fun calls w => by
  intro moment member
  simp only [stop, moments, World.answer, List.mem_singleton] at member
  rw [member]
  rfl

theorem silent_database : Silent database := silent_request rfl

theorem silent_liveInstance {a : Address} : Silent (liveInstance a) := silent_request rfl

theorem silent_hold {c : Claim} : Silent (hold c) := silent_request rfl

theorem silent_handleRecord {h : HandleId} : Silent (handleRecord h) :=
  silent_store.bind fun _ => silent_pure

theorem silent_placeCells {cells : List Cell} : Silent (placeCells cells) := silent_request rfl

theorem silent_place {bytes : List UInt8} : Silent (place bytes) := silent_placeCells

end Program

namespace Bridge

variable {ε α γ : Type}

theorem silent_except {r : Except ε α} : Silent (liftM r : ExceptT ε Program α) :=
  Program.silent_pure

theorem silent_ofRuntime {reading : RuntimeFailure → Failure} {p : Runtime α} (silent : Silent p) :
    Silent (ofRuntime reading p) :=
  Program.Silent.bind silent fun _ => Program.silent_pure

theorem silent_each {f : γ → Bridge α} {items : List γ} (silent : ∀ x, Silent (f x)) :
    Silent (each f items) := by
  induction items with
  | nil => exact silent_pure
  | cons x rest ih => exact (silent x).bind fun y => ih.bind fun ys => silent_pure

theorem silent_mapM {f : γ → ExceptT ε Program α} {items : List γ} (silent : ∀ x, Silent (f x)) :
    Silent (items.mapM f) := by
  unfold List.mapM
  generalize ([] : List α) = done
  induction items generalizing done with
  | nil => exact silent_pure
  | cons x rest ih => exact (silent x).bind fun y => ih (y :: done)

end Bridge

namespace Descriptor

theorem silent_argument {t : Token} {index : Nat} : Silent (argument? t index) :=
  silent_entry.bind fun _ => silent_take

theorem silent_result {t : Token} : Silent (result? t) := silent_entry.bind fun _ => silent_take

theorem silent_declared {t : Token} : Silent (declared? t) := silent_entry.bind fun _ => silent_take

theorem silent_firstNamed {name : String} {entries : List Token} :
    Silent (firstNamed name entries) := by
  induction entries with
  | nil => exact silent_pure
  | cons t rest ih =>
    refine silent_hold.bind fun _ => silent_entry.bind fun e => ?_
    split
    · exact silent_pure
    · exact (silent_request rfl).bind fun _ => ih

theorem silent_member {group : MemberGroup} {name : String} {t : Token} :
    Silent (member? group name t) :=
  silent_entry.bind fun _ => silent_firstNamed

theorem silent_qualifiedNameWithin {limit : Nat} {t : Token} :
    Silent (qualifiedNameWithin limit t) := by
  induction limit generalizing t with
  | zero => exact silent_stop
  | succ limit ih =>
    refine silent_entry.bind fun e => ?_
    split
    · split
      · exact .region (silent_hold.bind fun _ => ih)
      · exact silent_pure
    · split
      · exact silent_pure
      · exact silent_pure

theorem silent_qualifiedName {t : Token} : Silent (qualifiedName t) := silent_qualifiedNameWithin

end Descriptor

namespace Member

theorem silent_findEither {group : MemberGroup} {t : Token} {name : String} :
    Silent (findEither group t name) := by
  refine silent_member.bind fun found => ?_
  cases found with
  | some found => exact silent_pure
  | none =>
    cases hyphenate? name with
    | none => exact silent_pure
    | some hyphenated =>
      refine silent_member.bind fun found => ?_
      cases found <;> exact silent_pure

theorem silent_findProperty {t : Token} {name : String} : Silent (findProperty t name) := by
  refine silent_entry.bind fun e => ?_
  split
  · exact silent_findEither
  · exact silent_pure

theorem silent_findField {t : Token} {name : String} : Silent (findField t name) := by
  refine silent_entry.bind fun e => ?_
  split
  · exact silent_findEither
  · exact silent_pure

end Member

namespace Signature

theorem silent_parameter {callable : Token} {index : Nat} :
    Bridge.Silent (parameter callable index) := by
  refine .region <| (Bridge.silent_lift silent_entry).bind fun e => ?_
  extract_lets missing
  refine (Bridge.silent_lift silent_argument).bind fun argument => ?_
  cases argument with
  | none => exact Bridge.silent_throw
  | some argument =>
    refine (Bridge.silent_lift silent_declared).bind fun type => ?_
    cases type with
    | none => exact Bridge.silent_throw
    | some type => exact (Bridge.silent_lift silent_entry).bind fun _ => Bridge.silent_pure

theorem silent_ofCallable {callable : Token} : Bridge.Silent (ofCallable callable) :=
  .region <| (Bridge.silent_lift silent_entry).bind fun _ =>
    (Bridge.silent_each fun _ => silent_parameter).bind fun _ =>
      (Bridge.silent_lift silent_result).bind fun _ => Bridge.silent_pure

end Signature

namespace Codec

theorem silent_holdText {text : String} {block : ArgumentBlock} :
    Bridge.Silent (holdText text block) :=
  Bridge.silent_except.bind fun _ => (Bridge.silent_lift silent_place).bind fun _ =>
    Bridge.silent_pure

theorem silent_placeAll {strings : List (List UInt8)} : Silent (placeAll strings) := by
  induction strings with
  | nil => exact silent_pure
  | cons bytes rest ih => exact silent_place.bind fun _ => ih.bind fun _ => silent_pure

theorem silent_holdTexts {texts : List String} {block : ArgumentBlock} :
    Bridge.Silent (holdTexts texts block) :=
  (Bridge.silent_mapM fun _ => Bridge.silent_except).bind fun _ =>
    (Bridge.silent_lift silent_placeAll).bind fun _ =>
      (Bridge.silent_lift silent_placeCells).bind fun _ => Bridge.silent_pure

theorem silent_holdNumbers {s : Scalar} {items : List Number} {block : ArgumentBlock} :
    Bridge.Silent (holdNumbers s items block) := by
  unfold holdNumbers
  extract_lets bytes
  split
  · exact Bridge.silent_pure
  · exact (Bridge.silent_lift silent_place).bind fun _ => Bridge.silent_pure

theorem silent_handOver {items : List Number} {block : ArgumentBlock} :
    Bridge.Silent (handOver items block) :=
  (Bridge.silent_lift silent_place).bind fun _ => Bridge.silent_pure

theorem silent_encodeElements {elements : Elements} {element : Tag} {block : ArgumentBlock} :
    Bridge.Silent (encodeElements elements element block) := by
  unfold encodeElements
  split
  · split
    · exact silent_holdTexts
    · exact Bridge.silent_throw
  · split
    · split
      · split
        · exact silent_handOver
        · exact silent_holdNumbers
      · exact Bridge.silent_throw
    · split
      · exact Bridge.silent_throw
      · exact Bridge.silent_throw

theorem silent_encodeArray {v : Value} {element : Token} {block : ArgumentBlock} :
    Bridge.Silent (encodeArray v element block) := by
  refine (Bridge.silent_lift silent_entry).bind fun e => ?_
  split
  · exact Bridge.silent_pure
  · exact Bridge.silent_pure
  · exact silent_encodeElements
  · exact silent_encodeElements
  · exact Bridge.silent_throw

theorem silent_encodeBox {v : Value} {block : ArgumentBlock} :
    Bridge.Silent (encodeBox v block) := by
  unfold encodeBox
  split
  · exact Bridge.silent_pure
  · refine (Bridge.silent_lift silent_store).bind fun s => Bridge.silent_except.bind fun a => ?_
    split
    · exact Bridge.silent_throw_bind
    · exact (Bridge.silent_lift silent_liveInstance).bind fun _ =>
        (Bridge.silent_lift silent_placeCells).bind fun _ => Bridge.silent_pure

theorem silent_encodeShape {v : Value} {wanted : Shape} {block : ArgumentBlock} :
    Bridge.Silent (encodeShape v wanted block) := by
  unfold encodeShape
  split
  · split
    · exact Bridge.silent_pure
    · exact Bridge.silent_throw
  · exact (Bridge.silent_lift silent_store).bind fun _ => Bridge.silent_pure
  · exact Bridge.silent_except.bind fun _ => Bridge.silent_pure
  · exact Bridge.silent_except.bind fun _ => Bridge.silent_pure
  · split
    · exact Bridge.silent_pure
    · exact silent_holdText
    · exact Bridge.silent_throw
  · exact silent_encodeArray
  · exact silent_encodeBox
  all_goals
    exact (Bridge.silent_lift silent_store).bind fun _ => Bridge.silent_except.bind fun _ =>
      Bridge.silent_pure

/-- Encoding a value is silent. -/
theorem silent_encode {v : Value} {t : Token} {block : ArgumentBlock} :
    Bridge.Silent (encode v t block) :=
  .region <| silent_shape.bind fun _ => (Bridge.silent_lift silent_trace).bind fun _ =>
    silent_encodeShape

end Codec

namespace Call

theorem silent_receiverSlots {s : Signature} {name : String} {receiver : Address} :
    Bridge.Silent (receiverSlots s name receiver) := by
  unfold receiverSlots
  split
  · split
    · exact Bridge.silent_throw
    · exact Bridge.silent_pure
  · exact Bridge.silent_pure

theorem silent_encodeArguments {parameters : List SignatureParameter} {arguments : List Value}
    {slots : Slots} {block : Codec.ArgumentBlock} :
    Bridge.Silent (encodeArguments parameters arguments slots block) := by
  induction parameters generalizing arguments slots block with
  | nil => cases arguments <;> exact Bridge.silent_pure
  | cons p ps ih =>
    cases arguments with
    | nil => exact Bridge.silent_pure
    | cons v vs => exact Codec.silent_encode.bind fun _ => ih

end Call

namespace Runtime

theorem silent_copyString {tag : Tag} {slot : Slot} : Silent (copyString tag slot) := by
  unfold copyString
  split
  · exact silent_memory.bind fun _ => silent_place.bind fun _ => silent_pure
  · exact silent_pure

theorem silent_fieldSlot {tag : Tag} {slot : Slot} : Silent (fieldSlot tag slot) := by
  unfold fieldSlot
  split
  · exact silent_memory.bind fun _ => silent_place.bind fun _ => silent_pure
  · exact silent_pure

theorem silent_findProperty {a : Address} {name : String} :
    Bridge.Silent (findProperty a name) := by
  refine (Bridge.silent_lift silent_liveInstance).bind fun i =>
    (Bridge.silent_lift silent_database).bind fun db => ?_
  split
  · exact Bridge.silent_pure
  · exact Bridge.silent_throw

theorem silent_readProperty {a : Address} {name : String} :
    Bridge.Silent (readProperty a name) :=
  silent_findProperty.bind fun _ =>
    (Bridge.silent_lift (silent_liveInstance.bind fun _ => silent_pure)).bind fun _ =>
      Bridge.silent_pure

theorem silent_readField {field : Token} {a : Address} : Bridge.Silent (readField field a) := by
  refine (Bridge.silent_lift silent_entry).bind fun e => ?_
  split
  · exact Bridge.silent_throw_bind
  · exact (Bridge.silent_lift silent_database).bind fun _ =>
      (Bridge.silent_lift silent_memory).bind fun _ => Bridge.silent_pure

end Runtime

namespace Handle

theorem silent_typed {r : HandleRecord} : Bridge.Silent (typed r) := by
  unfold typed
  split
  · exact Bridge.silent_pure
  · exact Bridge.silent_throw

theorem silent_receiver {r : HandleRecord} {member : String} :
    Bridge.Silent (receiver r member) := by
  unfold receiver
  split
  · exact Bridge.silent_pure
  · exact Bridge.silent_throw

theorem silent_memberType {member : Token} {name : String} :
    Bridge.Silent (memberType member name) := by
  refine (Bridge.silent_lift silent_declared).bind fun found => ?_
  cases found with
  | some type => exact Bridge.silent_pure
  | none => exact Bridge.silent_throw

theorem silent_readMember {r : HandleRecord} {property : Token} {name : String} :
    Bridge.Silent (readProperty r property name) := by
  refine .region <| silent_receiver.bind fun a => (Bridge.silent_lift silent_entry).bind fun e => ?_
  split
  · exact Bridge.silent_throw_bind
  · exact silent_memberType.bind fun _ =>
      (Bridge.silent_ofRuntime Runtime.silent_readProperty).bind fun _ => Codec.silent_decode

theorem silent_readField {r : HandleRecord} {field : Token} {name : String} :
    Bridge.Silent (readField r field name) :=
  .region <| silent_receiver.bind fun _ => silent_memberType.bind fun _ =>
    (Bridge.silent_ofRuntime Runtime.silent_readField).bind fun _ => Codec.silent_decode

end Handle

namespace ListCursor

end ListCursor
end ObjectBridge
