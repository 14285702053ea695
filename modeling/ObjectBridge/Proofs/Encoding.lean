import ObjectBridge.Handle.Access
import ObjectBridge.Handle.Text
import ObjectBridge.Proofs.Lookup

/-!
# Encoding is reading

Encoding a value reserves storage for it and claims nothing but entries, and so does what the object
runtime reads of an instance or writes into its fields.
-/

namespace ObjectBridge

open Program Descriptor

namespace Codec

theorem reading_shapeOfTarget {target : Token} : Bridge.Reading (shapeOfTarget target) := by
  refine (Bridge.reading_lift reading_entry).bind fun e => ?_
  split
  · split
    · exact Bridge.reading_pure
    · exact Bridge.reading_throw
  · split
    · exact Bridge.reading_pure
    · split
      · exact Bridge.reading_pure
      · split
        · exact Bridge.reading_pure
        · split
          · exact (Bridge.reading_lift reading_database).bind fun _ => Bridge.reading_pure
          · exact Bridge.reading_throw

theorem reading_shapeOfArray {t : Token} {e : Entry} : Bridge.Reading (shapeOfArray t e) := by
  unfold shapeOfArray
  split
  · exact Bridge.reading_throw_bind
  · refine (Bridge.reading_lift reading_part).bind fun found => ?_
    cases found with
    | some element => exact Bridge.reading_pure
    | none => exact Bridge.reading_throw

theorem reading_shape {t : Token} : Bridge.Reading (shape t) := by
  refine (Bridge.reading_lift reading_entry).bind fun e => ?_
  split
  · exact Bridge.reading_pure
  · exact Bridge.reading_pure
  · exact Bridge.reading_pure
  · exact Bridge.reading_pure
  · exact Bridge.reading_pure
  · exact Bridge.reading_pure
  · exact reading_shapeOfArray
  · refine (Bridge.reading_lift reading_target).bind fun found => ?_
    cases found with
    | some target => exact reading_shapeOfTarget
    | none => exact Bridge.reading_throw
  · split
    · exact Bridge.reading_pure
    · exact Bridge.reading_throw

theorem reading_holdText {text : String} {block : ArgumentBlock} :
    Bridge.Reading (holdText text block) :=
  Bridge.reading_except.bind fun _ => (Bridge.reading_lift reading_place).bind fun _ =>
    Bridge.reading_pure

theorem reading_placeAll {strings : List (List UInt8)} : Reading (placeAll strings) := by
  induction strings with
  | nil => exact reading_pure
  | cons bytes rest ih => exact reading_place.bind fun _ => ih.bind fun _ => reading_pure

theorem reading_holdTexts {texts : List String} {block : ArgumentBlock} :
    Bridge.Reading (holdTexts texts block) :=
  (Bridge.reading_mapM fun _ => Bridge.reading_except).bind fun _ =>
    (Bridge.reading_lift reading_placeAll).bind fun _ =>
      (Bridge.reading_lift reading_placeCells).bind fun _ => Bridge.reading_pure

theorem reading_holdNumbers {s : Scalar} {items : List Number} {block : ArgumentBlock} :
    Bridge.Reading (holdNumbers s items block) := by
  unfold holdNumbers
  extract_lets bytes
  split
  · exact Bridge.reading_pure
  · exact (Bridge.reading_lift reading_place).bind fun _ => Bridge.reading_pure

theorem reading_handOver {items : List Number} {block : ArgumentBlock} :
    Bridge.Reading (handOver items block) :=
  (Bridge.reading_lift reading_place).bind fun _ => Bridge.reading_pure

theorem reading_encodeElements {elements : Elements} {element : Tag} {block : ArgumentBlock} :
    Bridge.Reading (encodeElements elements element block) := by
  unfold encodeElements
  split
  · split
    · exact reading_holdTexts
    · exact Bridge.reading_throw
  · split
    · split
      · split
        · exact reading_handOver
        · exact reading_holdNumbers
      · exact Bridge.reading_throw
    · split
      · exact Bridge.reading_throw
      · exact Bridge.reading_throw

theorem reading_encodeArray {v : Value} {element : Token} {block : ArgumentBlock} :
    Bridge.Reading (encodeArray v element block) := by
  refine (Bridge.reading_lift reading_entry).bind fun e => ?_
  split
  · exact Bridge.reading_pure
  · exact Bridge.reading_pure
  · exact reading_encodeElements
  · exact reading_encodeElements
  · exact Bridge.reading_throw

theorem reading_encodeBox {v : Value} {block : ArgumentBlock} :
    Bridge.Reading (encodeBox v block) := by
  unfold encodeBox
  split
  · exact Bridge.reading_pure
  · refine (Bridge.reading_lift reading_store).bind fun s => Bridge.reading_except.bind fun a => ?_
    split
    · exact Bridge.reading_throw_bind
    · exact (Bridge.reading_lift reading_liveInstance).bind fun _ =>
        (Bridge.reading_lift reading_placeCells).bind fun _ => Bridge.reading_pure

theorem reading_encodeShape {v : Value} {wanted : Shape} {block : ArgumentBlock} :
    Bridge.Reading (encodeShape v wanted block) := by
  unfold encodeShape
  split
  · split
    · exact Bridge.reading_pure
    · exact Bridge.reading_throw
  · exact (Bridge.reading_lift reading_store).bind fun _ => Bridge.reading_pure
  · exact Bridge.reading_except.bind fun _ => Bridge.reading_pure
  · exact Bridge.reading_except.bind fun _ => Bridge.reading_pure
  · split
    · exact Bridge.reading_pure
    · exact reading_holdText
    · exact Bridge.reading_throw
  · exact reading_encodeArray
  · exact reading_encodeBox
  all_goals
    exact (Bridge.reading_lift reading_store).bind fun _ => Bridge.reading_except.bind fun _ =>
      Bridge.reading_pure

theorem reading_encode {v : Value} {t : Token} {block : ArgumentBlock} :
    Bridge.Reading (encode v t block) :=
  .region <| reading_shape.bind fun _ => (Bridge.reading_lift reading_trace).bind fun _ =>
    reading_encodeShape

end Codec

namespace Runtime

theorem reading_copyString {tag : Tag} {slot : Slot} : Reading (copyString tag slot) := by
  unfold copyString
  split
  · exact reading_memory.bind fun _ => reading_place.bind fun _ => reading_pure
  · exact reading_pure

theorem reading_findProperty {a : Address} {name : String} :
    Bridge.Reading (findProperty a name) := by
  refine (Bridge.reading_lift reading_liveInstance).bind fun i =>
    (Bridge.reading_lift reading_database).bind fun db => ?_
  split
  · exact Bridge.reading_pure
  · exact Bridge.reading_throw

theorem reading_storedProperty {a : Address} {name : String} : Reading (storedProperty a name) :=
  reading_liveInstance.bind fun _ => reading_pure

theorem reading_readProperty {a : Address} {name : String} :
    Bridge.Reading (readProperty a name) :=
  reading_findProperty.bind fun _ => (Bridge.reading_lift reading_storedProperty).bind fun _ =>
    Bridge.reading_pure

theorem reading_readField {field : Token} {a : Address} : Bridge.Reading (readField field a) := by
  refine (Bridge.reading_lift reading_entry).bind fun e => ?_
  split
  · exact Bridge.reading_throw_bind
  · exact (Bridge.reading_lift reading_database).bind fun _ =>
      (Bridge.reading_lift reading_memory).bind fun _ => Bridge.reading_pure

theorem reading_fieldSlot {tag : Tag} {slot : Slot} : Reading (fieldSlot tag slot) := by
  unfold fieldSlot
  split
  · exact reading_memory.bind fun _ => reading_placeText.bind fun _ => reading_pure
  · exact reading_pure

theorem reading_writeField {field : Token} {a : Address} {slot : Slot} :
    Bridge.Reading (writeField field a slot) := by
  refine (Bridge.reading_lift reading_entry).bind fun e => ?_
  split
  · exact Bridge.reading_throw_bind
  · exact (Bridge.reading_lift reading_database).bind fun _ =>
      (Bridge.reading_lift reading_fieldSlot).bind fun _ =>
        Bridge.reading_lift (reading_request rfl)

end Runtime

namespace Handle

theorem reading_typed {r : HandleRecord} : Bridge.Reading (typed r) := by
  unfold typed
  split
  · exact Bridge.reading_pure
  · exact Bridge.reading_throw

theorem reading_receiver {r : HandleRecord} {member : String} :
    Bridge.Reading (receiver r member) := by
  unfold receiver
  split
  · exact Bridge.reading_pure
  · exact Bridge.reading_throw

theorem reading_memberType {member : Token} {name : String} :
    Bridge.Reading (memberType member name) := by
  refine (Bridge.reading_lift reading_declared).bind fun found => ?_
  cases found with
  | some type => exact Bridge.reading_pure
  | none => exact Bridge.reading_throw

theorem reading_text {h : HandleId} : Reading (text h) := by
  refine reading_handleRecord.bind fun r => ?_
  extract_lets start
  split
  · exact reading_pure
  · refine reading_entry.bind fun e => ?_
    split
    · split <;> exact reading_pure
    · exact reading_pure

theorem reading_render {h : HandleId} : Reading (render h) := by
  refine reading_handleRecord.bind fun r => ?_
  extract_lets rest
  split
  · exact Descriptor.reading_render.bind fun _ => reading_pure.bind fun _ => reading_pure
  · exact reading_pure.bind fun _ => reading_pure

end Handle

theorem Value.reading_render {v : Value} : Reading v.render := by
  cases v with
  | handle h => exact Handle.reading_text.bind fun _ => reading_pure
  | _ => exact reading_pure

end ObjectBridge
