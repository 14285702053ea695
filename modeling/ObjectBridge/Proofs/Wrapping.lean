import ObjectBridge.ListCursor
import ObjectBridge.Proofs.Encoding

/-!
# Making handles is tame

Decoding a slot makes at most one handle, on the address in the slot; a cursor on a list makes
handles on the nodes of the list.  A handle is only ever kept by one that was made before.
-/

namespace ObjectBridge

open Program Descriptor

variable {z : Horizon}

/-- The handle of a value was made. -/
theorem Value.known_handle {h : HandleId} (known : h < z.1) : (Value.handle h).Known z :=
  fun c member => by
    rw [List.mem_singleton.mp member]
    exact known

/-- A value that holds nothing was made. -/
theorem Value.known_of_claims {v : Value} (bare : v.claims = []) : v.Known z :=
  fun c member => by
    rw [bare] at member
    contradiction

namespace Handle

theorem tame_unbound {info : Token} : Tame (unbound info) z fun z h => h < z.1 :=
  tame_request (r := .openHandle (some info) none none) ⟨by simp, by simp⟩

theorem tame_retained {info : Option Token} {a : Address} :
    Tame (retained info a) z fun z h => h < z.1 :=
  tame_request (r := .openHandle info (if a = 0 then none else some ⟨a, .retained⟩) none)
    ⟨by simp, fun b => by split <;> simp⟩

theorem tame_borrowed {info : Option Token} {a : Address} :
    Tame (borrowed info a) z fun z h => h < z.1 :=
  tame_request (r := .openHandle info (if a = 0 then none else some ⟨a, .borrowed⟩) none)
    ⟨by simp, fun b => by split <;> simp⟩

theorem tame_dependent {owner : HandleId} {info : Option Token} {a : Address}
    (known : owner < z.1) : Tame (dependent owner info a) z fun z h => h < z.1 := by
  by_cases null : a = 0
  · have free : dependent owner info a = request (.openHandle info none none) := if_pos null
    rw [free]
    exact tame_request (r := .openHandle info none none) ⟨by simp, by simp⟩
  · have kept : dependent owner info a
        = request (.openHandle info (some ⟨a, .borrowed⟩) (some owner)) := if_neg null
    rw [kept]
    exact tame_request (r := .openHandle info (some ⟨a, .borrowed⟩) (some owner))
      ⟨fun k equal => Option.some.inj equal ▸ known, by simp⟩

theorem tame_derived {owner : HandleId} {info : Option Token} {a : Address} {retain : Bool}
    (known : owner < z.1) : Tame (derived owner info a retain) z fun z h => h < z.1 := by
  unfold derived
  split
  · exact tame_retained
  · exact tame_dependent known

/-- A handle that is made is a value that is known. -/
theorem tame_value {p : Program HandleId} (tame : p.Tame z fun z h => h < z.1) :
    Tame (p >>= fun h => pure (Value.handle h)) z fun z v => v.Known z :=
  tame.map fun _ _ known => Value.known_handle known

end Handle

namespace Codec

theorem claims_decodeScalar (s : Scalar) (slot : Slot) : (decodeScalar s slot).claims = [] := by
  cases s <;> rfl

theorem claims_decodeText (m : Memory) (a : Address) : (decodeText m a).claims = [] := by
  unfold decodeText
  split <;> rfl

theorem claims_decodeArray (m : Memory) (a : Address) (element : Tag) (zeroTerminated : Bool)
    (fixedSize : Option Nat) : (decodeArray m a element zeroTerminated fixedSize).claims = [] := by
  unfold decodeArray
  split
  · rfl
  · split
    · split
      · rfl
      · split <;> rfl
    · split <;> rfl

/-- A value that holds nothing is tame. -/
theorem tame_bare {v : Value} (bare : v.claims = []) : Tame (pure v) z fun z v => v.Known z :=
  tame_pure fun _ _ => Value.known_of_claims bare

theorem tame_wrapInstance {a : Address} {declared : Token} {retain : Bool} :
    Tame (wrapInstance a declared retain) z fun z v => v.Known z := by
  refine .region ?_
  split
  · exact tame_bare rfl
  · refine tame_store.bind fun z₁ s _ _ => ?_
    extract_lets give wrap
    have tame_wrap (z' : Horizon) (actual? : Option Token) :
        Tame (wrap actual?) z' fun z v => v.Known z := by
      simp only [wrap]
      cases actual? with
      | some actual =>
        refine tame_trace.bind fun z₂ _ _ _ => ?_
        split
        · exact Handle.tame_value Handle.tame_retained
        · exact Handle.tame_value Handle.tame_borrowed
      | none =>
        dsimp only
        split
        · exact Handle.tame_value Handle.tame_retained
        · exact Handle.tame_value Handle.tame_borrowed
    split
    · exact tame_liveInstance.bind fun z₂ i _ _ => reading_registered.tame.bind
        fun z₃ actual? _ _ => tame_wrap z₃ actual?
    · exact tame_wrap z₁ none

theorem tame_wrapRecord {a : Address} {declared : Token} :
    Tame (wrapRecord a declared) z fun z v => v.Known z := by
  refine .region ?_
  split
  · exact tame_bare rfl
  · refine tame_entry.bind fun z₁ e _ _ => reading_registered.tame.bind fun z₂ found _ _ =>
      tame_entry.bind fun z₃ infoEntry _ _ => ?_
    split
    · exact Handle.tame_value Handle.tame_retained
    · exact Handle.tame_value Handle.tame_borrowed

theorem tame_decodeShape {slot : Slot} {t : Token} {wanted : Shape} :
    Tame (decodeShape slot t wanted) z fun z v => v.Known z := by
  cases wanted with
  | void => exact tame_bare rfl
  | boolean => exact tame_bare rfl
  | scalar s => exact tame_bare (claims_decodeScalar s slot)
  | enumeration format => exact tame_bare (claims_decodeScalar (.integer format) slot)
  | text => exact tame_memory.bind fun _ m _ _ => tame_bare (claims_decodeText m slot.address)
  | array element zeroTerminated fixedSize =>
    exact tame_memory.bind fun _ m _ _ => tame_entry.bind fun _ e _ _ =>
      tame_bare (claims_decodeArray m slot.address e.tag zeroTerminated fixedSize)
  | object target => exact tame_wrapInstance
  | interface target => exact tame_store.bind fun _ _ _ _ => tame_wrapInstance
  | record target boxed => exact tame_wrapRecord
  | callback =>
    refine tame_bare ?_
    split <;> rfl
  | list => exact Handle.tame_value Handle.tame_borrowed

theorem tame_decode {slot : Slot} {t : Token} :
    Bridge.Tame (decode slot t) z fun z v => v.Known z :=
  .region <| reading_shape.tame.bind fun _ _ _ _ => (Bridge.tame_lift tame_trace).bind
    fun _ _ _ _ => Bridge.tame_lift tame_decodeShape

end Codec

namespace ListCursor

theorem reading_nodes {m : Memory} {node : Address} : Reading (nodes m node) := by
  unfold nodes
  split
  · exact reading_pure
  · exact reading_stop

theorem tame_neighbour {info : Token} {node : Address} :
    Tame (neighbour info node) z fun z v => v.Known z := by
  unfold neighbour
  split
  · exact Codec.tame_bare rfl
  · exact Handle.tame_value Handle.tame_borrowed

theorem tame_decodeDatum {info : Token} {a : Address} :
    Bridge.Tame (decodeDatum info a) z fun z v => v.Known z := by
  refine .region ((Bridge.tame_lift reading_part.tame).bind fun _ found _ _ => ?_)
  cases found with
  | some element => exact Codec.tame_decode
  | none => exact Bridge.tame_throw

theorem tame_extract {head : Address} {info : Token} {name : String} :
    Bridge.Tame (extract head info name) z fun z v => v.Known z := by
  unfold extract
  split
  · exact Bridge.tame_throw
  · refine (Bridge.tame_lift tame_entry).bind fun _ e _ _ =>
      (Bridge.tame_lift tame_memory).bind fun _ m _ _ => ?_
    split
    · exact (Bridge.tame_lift reading_nodes.tame).bind fun _ _ _ _ =>
        Bridge.tame_lift (Codec.tame_bare rfl)
    · split
      · exact Bridge.tame_throw
      · exact tame_decodeDatum
    · split
      · exact Bridge.tame_throw
      · exact Bridge.tame_lift tame_neighbour
    · split
      · exact Bridge.tame_throw
      · split
        · exact Bridge.tame_throw
        · exact Bridge.tame_lift tame_neighbour

theorem tame_nth {head : Address} {info : Token} {arguments : List Argument} :
    Bridge.Tame (nth head info arguments) z fun z v => v.Known z := by
  refine Bridge.reading_except.tame.bind fun _ index _ _ => ?_
  dsimp only
  split
  · exact Bridge.tame_throw_bind
  · split
    · exact Bridge.tame_throw_bind
    · refine (Bridge.tame_lift tame_memory).bind fun _ m _ _ => ?_
      split
      · exact Bridge.tame_throw_bind
      · split
        · exact Bridge.tame_throw_bind
        · exact tame_decodeDatum

end ListCursor
end ObjectBridge
