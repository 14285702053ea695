import ObjectBridge.Handle.Access
import ObjectBridge.Handle.Text
import ObjectBridge.Listing
import ObjectBridge.Proofs.Blindness

/-!
# Looking up and encoding are blind

Descriptors, members, signatures and listings are found, and values are encoded, without regard to
the switches and to the order of the ledger.
-/

namespace ObjectBridge

open Program Descriptor

namespace Descriptor

theorem blind_take {t : Option Token} : Blind (take t) := by
  cases t with
  | none => exact blind_pure
  | some t => exact blind_hold.bind fun _ => blind_pure

theorem blind_parent {t : Token} : Blind (parent? t) := blind_entry.bind fun _ => blind_take

theorem blind_target {t : Token} : Blind (target? t) := blind_entry.bind fun _ => blind_take

theorem blind_part {t : Token} {index : Nat} : Blind (part? t index) :=
  blind_entry.bind fun _ => blind_take

theorem blind_argument {t : Token} {index : Nat} : Blind (argument? t index) :=
  blind_entry.bind fun _ => blind_take

theorem blind_result {t : Token} : Blind (result? t) := blind_entry.bind fun _ => blind_take

theorem blind_declared {t : Token} : Blind (declared? t) :=
  blind_entry.bind fun _ => blind_take

theorem blind_registered {number : TypeNumber} : Blind (registered? number) := by
  unfold registered?
  split
  · exact blind_pure
  · exact blind_database.bind fun _ => blind_take

theorem blind_firstNamed {name : String} {entries : List Token} :
    Blind (firstNamed name entries) := by
  induction entries with
  | nil => exact blind_pure
  | cons t rest ih =>
    refine blind_hold.bind fun _ => blind_entry.bind fun e => ?_
    split
    · exact blind_pure
    · exact blind_letGo.bind fun _ => ih

theorem blind_member {group : MemberGroup} {name : String} {t : Token} :
    Blind (member? group name t) :=
  blind_entry.bind fun _ => blind_firstNamed

theorem blind_memberEntries {group : MemberGroup} {t : Token} :
    Blind (memberEntries group t) :=
  .region <| blind_entry.bind fun _ =>
    blind_each fun _ => blind_hold.bind fun _ => blind_entry

theorem blind_qualifiedNameWithin {limit : Nat} {t : Token} :
    Blind (qualifiedNameWithin limit t) := by
  induction limit generalizing t with
  | zero => exact blind_stop
  | succ limit ih =>
    refine blind_entry.bind fun e => ?_
    split
    · split
      · exact .region (blind_hold.bind fun _ => ih)
      · exact blind_pure
    · split
      · exact blind_pure
      · exact blind_pure

theorem blind_qualifiedName {t : Token} : Blind (qualifiedName t) := blind_qualifiedNameWithin

theorem blind_render {t : Token} : Blind (render t) :=
  blind_entry.bind fun _ => blind_qualifiedName.bind fun _ => blind_pure

theorem blind_walkWithin {α : Type} {keep : α → List Claim} {probe : Token → Program (Option α)}
    (probes : ∀ t, (probe t).Blind) {limit : Nat} {t : Token} :
    Blind (walkWithin keep probe limit t) := by
  induction limit generalizing t with
  | zero => exact blind_stop
  | succ limit ih =>
    refine (probes t).bind fun found => ?_
    cases found with
    | some found => exact blind_pure
    | none =>
      refine blind_entry.bind fun e => ?_
      split
      · exact blind_pure
      · exact .region (blind_hold.bind fun _ => blind_trace.bind fun _ => ih)

theorem blind_walk {α : Type} {keep : α → List Claim} {probe : Token → Program (Option α)}
    (probes : ∀ t, (probe t).Blind) {t : Token} : Blind (walk keep probe t) :=
  blind_walkWithin probes

end Descriptor

namespace Member

open Descriptor

theorem blind_findEnumValue {t : Token} {name : String} : Blind (findEnumValue t name) := by
  refine .region (blind_member.bind fun found => ?_)
  cases found with
  | none => exact blind_pure
  | some m => exact blind_entry.bind fun _ => blind_pure

theorem blind_findMethod {t : Token} {name : String} : Blind (findMethod t name) := by
  refine blind_entry.bind fun e => ?_
  split
  · exact blind_walk fun _ => blind_member
  · exact blind_member

theorem blind_findSignal {t : Token} {name : String} : Blind (findSignal t name) :=
  blind_walk fun _ => blind_member

theorem blind_findEither {group : MemberGroup} {t : Token} {name : String} :
    Blind (findEither group t name) := by
  refine blind_member.bind fun found => ?_
  cases found with
  | some found => exact blind_pure
  | none =>
    cases hyphenate? name with
    | none => exact blind_pure
    | some hyphenated =>
      refine blind_member.bind fun found => ?_
      cases found <;> exact blind_pure

theorem blind_findProperty {t : Token} {name : String} : Blind (findProperty t name) := by
  refine blind_entry.bind fun e => ?_
  split
  · exact blind_findEither
  · exact blind_pure

theorem blind_findField {t : Token} {name : String} : Blind (findField t name) := by
  refine blind_entry.bind fun e => ?_
  split
  · exact blind_findEither
  · exact blind_pure

theorem blind_findPlain {kind : EntryKind} {t : Token} {name : String} :
    Blind (findPlain kind t name) := by
  unfold findPlain
  extract_lets rest
  have blind_rest (method : Option Token) : Blind (rest method) := by
    cases method with
    | some found => exact blind_pure
    | none =>
      refine blind_findProperty.bind fun found => ?_
      cases found with
      | some found => exact blind_pure
      | none =>
        refine blind_findField.bind fun found => ?_
        cases found <;> exact blind_pure
  split
  · exact blind_findMethod.bind blind_rest
  · exact blind_pure.bind blind_rest

theorem blind_resolve {t : Token} {name : String} : Bridge.Blind (resolve t name) := by
  refine .region <| .after blind_entry fun e =>
    .after blind_trace fun _ => ?_
  split
  · refine .after blind_findEnumValue fun found => ?_
    cases found with
    | some number => exact Bridge.blind_pure
    | none => exact Bridge.blind_throw
  · refine .after blind_findPlain fun found => ?_
    cases found with
    | some found => exact Bridge.blind_pure
    | none =>
      dsimp only
      split
      · split
        · refine .after blind_findSignal fun found => ?_
          cases found with
          | some found => exact Bridge.blind_pure
          | none => exact Bridge.blind_throw
        · exact Bridge.blind_throw
      · exact Bridge.blind_throw

end Member

namespace Signature

open Descriptor

theorem blind_parameter {callable : Token} {index : Nat} :
    Bridge.Blind (parameter callable index) := by
  refine .region <| .after blind_entry fun e =>
    .after blind_argument fun found => ?_
  cases found with
  | none => exact Bridge.blind_throw
  | some argument =>
    refine .after blind_declared fun found => ?_
    cases found with
    | none => exact Bridge.blind_throw
    | some type => exact .after blind_entry fun _ => Bridge.blind_pure

theorem blind_ofCallable {callable : Token} : Bridge.Blind (ofCallable callable) :=
  .region <| .after blind_entry fun _ =>
    (Bridge.blind_each fun _ => blind_parameter).bind fun _ =>
      .after blind_result fun _ => Bridge.blind_pure

end Signature

namespace Listing

open Descriptor

theorem blind_readSection {t : Token} {group : MemberGroup} : Blind (readSection t group) :=
  blind_memberEntries.bind fun _ => blind_pure

theorem blind_parentName {t : Token} {kind : EntryKind} : Blind (parentName t kind) := by
  unfold parentName
  split
  · refine .region (blind_parent.bind fun parent => ?_)
    cases parent with
    | none => exact blind_pure
    | some parent => exact blind_qualifiedName.bind fun _ => blind_pure
  · exact blind_pure

theorem blind_describe {t : Token} : Blind (describe t) :=
  blind_entry.bind fun _ => (blind_each fun _ => blind_readSection).bind fun _ =>
    blind_qualifiedName.bind fun _ => blind_parentName.bind fun _ => blind_pure

end Listing
namespace Codec

theorem blind_shapeOfTarget {target : Token} : Bridge.Blind (shapeOfTarget target) := by
  refine .after blind_entry fun e => ?_
  split
  · split
    · exact Bridge.blind_pure
    · exact Bridge.blind_throw
  · split
    · exact Bridge.blind_pure
    · split
      · exact Bridge.blind_pure
      · split
        · exact Bridge.blind_pure
        · split
          · exact .after blind_database fun _ => Bridge.blind_pure
          · exact Bridge.blind_throw

theorem blind_shapeOfArray {t : Token} {e : Entry} : Bridge.Blind (shapeOfArray t e) := by
  unfold shapeOfArray
  split
  · exact Bridge.blind_throw_bind
  · refine .after blind_part fun found => ?_
    cases found with
    | some element => exact Bridge.blind_pure
    | none => exact Bridge.blind_throw

theorem blind_shape {t : Token} : Bridge.Blind (shape t) := by
  refine .after blind_entry fun e => ?_
  split
  · exact Bridge.blind_pure
  · exact Bridge.blind_pure
  · exact Bridge.blind_pure
  · exact Bridge.blind_pure
  · exact Bridge.blind_pure
  · exact Bridge.blind_pure
  · exact blind_shapeOfArray
  · refine .after blind_target fun found => ?_
    cases found with
    | some target => exact blind_shapeOfTarget
    | none => exact Bridge.blind_throw
  · split
    · exact Bridge.blind_pure
    · exact Bridge.blind_throw

theorem blind_holdText {text : String} {block : ArgumentBlock} :
    Bridge.Blind (holdText text block) :=
  Bridge.blind_except.bind fun _ => .after blind_place fun _ =>
    Bridge.blind_pure

theorem blind_placeAll {strings : List (List UInt8)} : Blind (placeAll strings) := by
  induction strings with
  | nil => exact blind_pure
  | cons bytes rest ih => exact blind_place.bind fun _ => ih.bind fun _ => blind_pure

theorem blind_holdTexts {texts : List String} {block : ArgumentBlock} :
    Bridge.Blind (holdTexts texts block) :=
  (Bridge.blind_mapM fun _ => Bridge.blind_except).bind fun _ =>
    .after blind_placeAll fun _ =>
      .after blind_placeCells fun _ => Bridge.blind_pure

theorem blind_holdNumbers {s : Scalar} {items : List Number} {block : ArgumentBlock} :
    Bridge.Blind (holdNumbers s items block) := by
  unfold holdNumbers
  extract_lets bytes
  split
  · exact Bridge.blind_pure
  · exact .after blind_place fun _ => Bridge.blind_pure

theorem blind_handOver {items : List Number} {block : ArgumentBlock} :
    Bridge.Blind (handOver items block) :=
  .after blind_place fun _ => Bridge.blind_pure

theorem blind_encodeElements {elements : Elements} {element : Tag} {block : ArgumentBlock} :
    Bridge.Blind (encodeElements elements element block) := by
  unfold encodeElements
  split
  · split
    · exact blind_holdTexts
    · exact Bridge.blind_throw
  · split
    · split
      · split
        · exact blind_handOver
        · exact blind_holdNumbers
      · exact Bridge.blind_throw
    · split
      · exact Bridge.blind_throw
      · exact Bridge.blind_throw

theorem blind_encodeArray {v : Value} {element : Token} {block : ArgumentBlock} :
    Bridge.Blind (encodeArray v element block) := by
  refine .after blind_entry fun e => ?_
  split
  · exact Bridge.blind_pure
  · exact Bridge.blind_pure
  · exact blind_encodeElements
  · exact blind_encodeElements
  · exact Bridge.blind_throw

theorem blind_encodeBox {v : Value} {block : ArgumentBlock} :
    Bridge.Blind (encodeBox v block) := by
  unfold encodeBox
  split
  · exact Bridge.blind_pure
  · refine Bridge.blind_store (fun _ _ => rfl) fun s => Bridge.blind_except.bind fun a => ?_
    split
    · exact Bridge.blind_throw_bind
    · exact .after blind_liveInstance fun _ => .after blind_placeCells fun _ => Bridge.blind_pure

theorem blind_encodeShape {v : Value} {wanted : Shape} {block : ArgumentBlock} :
    Bridge.Blind (encodeShape v wanted block) := by
  unfold encodeShape
  split
  · split
    · exact Bridge.blind_pure
    · exact Bridge.blind_throw
  · exact Bridge.blind_store (fun _ _ => rfl) fun _ => Bridge.blind_pure
  · exact Bridge.blind_except.bind fun _ => Bridge.blind_pure
  · exact Bridge.blind_except.bind fun _ => Bridge.blind_pure
  · split
    · exact Bridge.blind_pure
    · exact blind_holdText
    · exact Bridge.blind_throw
  · exact blind_encodeArray
  · exact blind_encodeBox
  all_goals
    exact Bridge.blind_store (fun _ _ => rfl) fun _ => Bridge.blind_except.bind fun _ =>
      Bridge.blind_pure

theorem blind_encode {v : Value} {t : Token} {block : ArgumentBlock} :
    Bridge.Blind (encode v t block) :=
  .region <| blind_shape.bind fun _ => .after blind_trace fun _ =>
    blind_encodeShape

end Codec

namespace Runtime

theorem blind_copyString {tag : Tag} {slot : Slot} : Blind (copyString tag slot) := by
  unfold copyString
  split
  · exact blind_memory.bind fun _ => blind_place.bind fun _ => blind_pure
  · exact blind_pure

theorem blind_findProperty {a : Address} {name : String} :
    Bridge.Blind (findProperty a name) := by
  refine .after blind_liveInstance fun i =>
    .after blind_database fun db => ?_
  split
  · exact Bridge.blind_pure
  · exact Bridge.blind_throw

theorem blind_storedProperty {a : Address} {name : String} : Blind (storedProperty a name) :=
  blind_liveInstance.bind fun _ => blind_pure

theorem blind_readProperty {a : Address} {name : String} :
    Bridge.Blind (readProperty a name) :=
  blind_findProperty.bind fun _ => .after blind_storedProperty fun _ =>
    Bridge.blind_pure

theorem blind_readField {field : Token} {a : Address} : Bridge.Blind (readField field a) := by
  refine .after blind_entry fun e => ?_
  split
  · exact Bridge.blind_throw_bind
  · exact .after blind_database fun _ =>
      .after blind_memory fun _ => Bridge.blind_pure

theorem blind_fieldSlot {tag : Tag} {slot : Slot} : Blind (fieldSlot tag slot) := by
  unfold fieldSlot
  split
  · exact blind_memory.bind fun _ => blind_placeText.bind fun _ => blind_pure
  · exact blind_pure

theorem blind_writeField {field : Token} {a : Address} {slot : Slot} :
    Bridge.Blind (writeField field a slot) := by
  refine .after blind_entry fun e => ?_
  split
  · exact Bridge.blind_throw_bind
  · exact .after blind_database fun _ =>
      .after blind_fieldSlot fun _ =>
        Bridge.blind_lift (blind_request rfl)

end Runtime

namespace Handle

theorem blind_typed {r : HandleRecord} : Bridge.Blind (typed r) := by
  unfold typed
  split
  · exact Bridge.blind_pure
  · exact Bridge.blind_throw

theorem blind_receiver {r : HandleRecord} {member : String} :
    Bridge.Blind (receiver r member) := by
  unfold receiver
  split
  · exact Bridge.blind_pure
  · exact Bridge.blind_throw

theorem blind_memberType {member : Token} {name : String} :
    Bridge.Blind (memberType member name) := by
  refine .after blind_declared fun found => ?_
  cases found with
  | some type => exact Bridge.blind_pure
  | none => exact Bridge.blind_throw

theorem blind_text {h : HandleId} : Blind (text h) := by
  refine blind_handleRecord.bind fun r => ?_
  extract_lets start
  split
  · exact blind_pure
  · refine blind_entry.bind fun e => ?_
    split
    · split <;> exact blind_pure
    · exact blind_pure

theorem blind_render {h : HandleId} : Blind (render h) := by
  refine blind_handleRecord.bind fun r => ?_
  extract_lets rest
  split
  · exact Descriptor.blind_render.bind fun _ => blind_pure.bind fun _ => blind_pure
  · exact blind_pure.bind fun _ => blind_pure

end Handle

theorem Value.blind_render {v : Value} : Blind v.render := by
  cases v with
  | handle h => exact Handle.blind_text.bind fun _ => blind_pure
  | _ => exact blind_pure

end ObjectBridge
