import ObjectBridge.Handle.Eval
import ObjectBridge.Library
import ObjectBridge.Proofs.GroundedLookup
import ObjectBridge.Signal

/-!
# The operations of handles are grounded

Encoding, decoding, reading and writing members, calling, constructing, connecting and emitting name
only entries.  Native functions and host functions may add entries while they run; what was there
before is there afterwards, so an operation goes on with the entries that it has.
-/

namespace ObjectBridge

open Program Descriptor

variable {db : Database} {t : Token} {name : String}

namespace Codec

theorem looks_holdText {text : String} {block : ArgumentBlock} :
    Bridge.Looks (fun _ => True) (holdText text block) db :=
  Bridge.looks_except.bind fun _ _ => .after looks_place fun _ _ => Bridge.looks_pure trivial

theorem looks_placeAll {strings : List (List UInt8)} :
    Looks (fun _ => True) (placeAll strings) db := by
  induction strings with
  | nil => exact looks_pure trivial
  | cons bytes rest ih =>
    exact looks_place.bind fun _ _ => ih.bind fun _ _ => looks_pure trivial

theorem looks_holdTexts {texts : List String} {block : ArgumentBlock} :
    Bridge.Looks (fun _ => True) (holdTexts texts block) db :=
  (Bridge.looks_mapM fun _ => Bridge.looks_except).bind fun _ _ =>
    .after looks_placeAll fun _ _ => .after looks_placeCells fun _ _ => Bridge.looks_pure trivial

theorem looks_holdNumbers {s : Scalar} {items : List Number} {block : ArgumentBlock} :
    Bridge.Looks (fun _ => True) (holdNumbers s items block) db := by
  unfold holdNumbers
  extract_lets bytes
  split
  · exact Bridge.looks_pure trivial
  · exact .after looks_place fun _ _ => Bridge.looks_pure trivial

theorem looks_handOver {items : List Number} {block : ArgumentBlock} :
    Bridge.Looks (fun _ => True) (handOver items block) db :=
  .after looks_place fun _ _ => Bridge.looks_pure trivial

theorem looks_encodeElements {elements : Elements} {element : Tag} {block : ArgumentBlock} :
    Bridge.Looks (fun _ => True) (encodeElements elements element block) db := by
  unfold encodeElements
  split
  · split
    · exact looks_holdTexts
    · exact Bridge.looks_throw
  · split
    · split
      · split
        · exact looks_handOver
        · exact looks_holdNumbers
      · exact Bridge.looks_throw
    · split
      · exact Bridge.looks_throw
      · exact Bridge.looks_throw

theorem looks_encodeArray {v : Value} {element : Token} {block : ArgumentBlock}
    (known : db.Has element) : Bridge.Looks (fun _ => True) (encodeArray v element block) db := by
  refine .after (looks_entry known) fun e _ => ?_
  split
  · exact Bridge.looks_pure trivial
  · exact Bridge.looks_pure trivial
  · exact looks_encodeElements
  · exact looks_encodeElements
  · exact Bridge.looks_throw

theorem looks_encodeBox {v : Value} {block : ArgumentBlock} :
    Bridge.Looks (fun _ => True) (encodeBox v block) db := by
  unfold encodeBox
  split
  · exact Bridge.looks_pure trivial
  · refine .after looks_store fun s _ => Bridge.looks_except.bind fun a _ => ?_
    split
    · exact Bridge.looks_throw_bind
    · exact .after looks_liveInstance fun _ _ => .after looks_placeCells fun _ _ =>
        Bridge.looks_pure trivial

theorem looks_encodeShape {v : Value} {wanted : Shape} {block : ArgumentBlock}
    (known : ∀ u ∈ wanted.tokens, db.Has u) :
    Bridge.Looks (fun _ => True) (encodeShape v wanted block) db := by
  unfold encodeShape
  split
  · split
    · exact Bridge.looks_pure trivial
    · exact Bridge.looks_throw
  · exact .after looks_store fun _ _ => Bridge.looks_pure trivial
  · exact Bridge.looks_except.bind fun _ _ => Bridge.looks_pure trivial
  · exact Bridge.looks_except.bind fun _ _ => Bridge.looks_pure trivial
  · split
    · exact Bridge.looks_pure trivial
    · exact looks_holdText
    · exact Bridge.looks_throw
  · next element _ _ => exact looks_encodeArray (known element (List.mem_singleton_self element))
  · exact looks_encodeBox
  all_goals
    exact .after looks_store fun _ _ => Bridge.looks_except.bind fun _ _ =>
      Bridge.looks_pure trivial

theorem looks_encode {v : Value} {block : ArgumentBlock} (linked : db.Linked) (known : db.Has t) :
    Bridge.Looks (fun _ => True) (encode v t block) db :=
  .region <| (looks_shape linked known).bind fun _ there =>
    .after (looks_trace known.alone) fun _ _ =>
      looks_encodeShape there

end Codec

namespace Handle

theorem looks_open {info : Option Token} {attachment : Option Attachment}
    {keeper : Option HandleId} (known : ∀ u ∈ info, db.Has u) :
    Looks (fun _ => True) (request (.openHandle info attachment keeper) : Program HandleId) db := by
  have grounded : Request.Grounded db (.openHandle info attachment keeper) := fun u member =>
    known u (Option.mem_toList.mp member)
  exact (looks_request grounded fun _ leads => leads).weaken fun _ _ => trivial

theorem looks_unbound (known : db.Has t) : Looks (fun _ => True) (unbound t) db :=
  looks_open known.given

theorem looks_retained {info : Option Token} {a : Address} (known : ∀ u ∈ info, db.Has u) :
    Looks (fun _ => True) (retained info a) db :=
  looks_open known

theorem looks_borrowed {info : Option Token} {a : Address} (known : ∀ u ∈ info, db.Has u) :
    Looks (fun _ => True) (borrowed info a) db :=
  looks_open known

theorem looks_derived {owner : HandleId} {info : Option Token} {a : Address} {retain : Bool}
    (known : ∀ u ∈ info, db.Has u) : Looks (fun _ => True) (derived owner info a retain) db := by
  unfold derived
  split
  · exact looks_retained known
  · by_cases null : a = 0
    · have free : dependent owner info a = request (.openHandle info none none) := if_pos null
      exact free ▸ looks_open known
    · have kept : dependent owner info a
          = request (.openHandle info (some ⟨a, .borrowed⟩) (some owner)) := if_neg null
      exact kept ▸ looks_open known

end Handle

namespace Codec

theorem looks_wrapInstance {a : Address} {declared : Token} {retain : Bool} (sound : db.Sound)
    (known : db.Has declared) : Looks (fun _ => True) (wrapInstance a declared retain) db := by
  refine Looks.region ?_
  split
  · exact looks_pure trivial
  · refine looks_store.bind fun s _ => ?_
    extract_lets give wrap
    have looks_give (info : Token) (there : db.Has info) :
        Looks (fun _ => True) (do
          let h ← if retain then Handle.retained (some info) a else Handle.borrowed (some info) a
          return Value.handle h) db := by
      have typed : ∀ u ∈ some info, db.Has u := there.given
      split
      · exact (Handle.looks_retained typed).bind fun _ _ => looks_pure trivial
      · exact (Handle.looks_borrowed typed).bind fun _ _ => looks_pure trivial
    have looks_wrap (actual? : Option Token) (there : ∀ u ∈ actual?, db.Has u) :
        Looks (fun _ => True) (wrap actual?) db := by
      simp only [wrap]
      cases actual? with
      | some actual =>
        have both : ∀ u ∈ [declared, actual], db.Has u := by
          simp [known, there actual rfl]
        exact (looks_trace both).bind fun _ _ => looks_give actual (there actual rfl)
      | none => exact looks_give declared known
    split
    · exact looks_liveInstance.bind fun _ _ => (looks_registered sound).bind looks_wrap
    · exact looks_wrap none fun _ impossible => nomatch impossible

theorem looks_wrapRecord {a : Address} {declared : Token} (sound : db.Sound)
    (known : db.Has declared) : Looks (fun _ => True) (wrapRecord a declared) db := by
  refine Looks.region ?_
  split
  · exact looks_pure trivial
  · refine (looks_entry known).bind fun e _ => (looks_registered sound).bind fun found there => ?_
    have typed : db.Has (found.getD declared) := by
      cases found with
      | some u => exact there u rfl
      | none => exact known
    refine (looks_entry typed).bind fun infoEntry _ => ?_
    split
    · exact (Handle.looks_retained typed.given).bind fun _ _ => looks_pure trivial
    · exact (Handle.looks_borrowed typed.given).bind fun _ _ => looks_pure trivial

theorem looks_decodeShape {slot : Slot} {wanted : Shape} (sound : db.Sound) (known : db.Has t)
    (there : ∀ u ∈ wanted.tokens, db.Has u) :
    Looks (fun _ => True) (decodeShape slot t wanted) db := by
  cases wanted with
  | void | boolean | scalar s | enumeration format | callback => exact looks_pure trivial
  | text => exact looks_memory.bind fun _ _ => looks_pure trivial
  | array element zeroTerminated fixedSize =>
    exact looks_memory.bind fun _ _ =>
      (looks_entry (there element List.mem_cons_self)).bind fun _ _ => looks_pure trivial
  | object target => exact looks_wrapInstance sound (there target List.mem_cons_self)
  | interface target =>
    exact looks_store.bind fun _ _ => looks_wrapInstance sound (there target List.mem_cons_self)
  | record target boxed => exact looks_wrapRecord sound (there target List.mem_cons_self)
  | list =>
    exact (Handle.looks_borrowed known.given).bind fun _ _ =>
      looks_pure trivial

theorem looks_decode {slot : Slot} (sound : db.Sound) (known : db.Has t) :
    Bridge.Looks (fun _ => True) (decode slot t) db :=
  .region <| (looks_shape sound.toLinked known).bind fun _ there =>
    .after (looks_trace known.alone) fun _ _ =>
      Bridge.looks_lift (looks_decodeShape sound known there)

end Codec

namespace ListCursor

theorem looks_nodes {m : Memory} {node : Address} : Looks (fun _ => True) (nodes m node) db := by
  unfold nodes
  split
  · exact looks_pure trivial
  · exact looks_stop fun _ same => nomatch same

theorem looks_neighbour {info : Token} {node : Address} (known : db.Has info) :
    Looks (fun _ => True) (neighbour info node) db := by
  unfold neighbour
  split
  · exact looks_pure trivial
  · exact (Handle.looks_borrowed known.given).bind fun _ _ =>
      looks_pure trivial

section Sound

variable (sound : db.Sound)
include sound

theorem looks_decodeDatum {info : Token} {a : Address} (known : db.Has info) :
    Bridge.Looks (fun _ => True) (decodeDatum info a) db := by
  refine .region (.after (looks_part sound.toLinked known) fun found there => ?_)
  cases found with
  | some element => exact Codec.looks_decode sound (there element rfl)
  | none => exact Bridge.looks_throw

theorem looks_extract {head : Address} {info : Token} (known : db.Has info) :
    Bridge.Looks (fun _ => True) (extract head info name) db := by
  unfold extract
  split
  · exact Bridge.looks_throw
  · refine .after (looks_entry known) fun e _ => .after looks_memory fun m _ => ?_
    split
    · exact .after looks_nodes fun _ _ => Bridge.looks_pure trivial
    · split
      · exact Bridge.looks_throw
      · exact looks_decodeDatum sound known
    · split
      · exact Bridge.looks_throw
      · exact Bridge.looks_lift (looks_neighbour known)
    · split
      · exact Bridge.looks_throw
      · split
        · exact Bridge.looks_throw
        · exact Bridge.looks_lift (looks_neighbour known)

theorem looks_nth {head : Address} {info : Token} {arguments : List Argument}
    (known : db.Has info) : Bridge.Looks (fun _ => True) (nth head info arguments) db := by
  refine Bridge.looks_except.bind fun index _ => ?_
  dsimp only
  split
  · exact Bridge.looks_throw_bind
  · split
    · exact Bridge.looks_throw_bind
    · refine .after looks_memory fun m _ => ?_
      split
      · exact Bridge.looks_throw_bind
      · split
        · exact Bridge.looks_throw_bind
        · exact looks_decodeDatum sound known

end Sound
end ListCursor

namespace Call

theorem looks_encodeArguments {parameters : List SignatureParameter} {arguments : List Value}
    {slots : Slots} {block : Codec.ArgumentBlock} (linked : db.Linked)
    (known : ∀ p ∈ parameters, db.Has p.type) :
    Bridge.Looks (fun _ => True) (encodeArguments parameters arguments slots block) db := by
  induction parameters generalizing arguments slots block with
  | nil => cases arguments <;> exact Bridge.looks_pure trivial
  | cons p ps ih =>
    cases arguments with
    | nil => exact Bridge.looks_pure trivial
    | cons v vs =>
      exact (Codec.looks_encode linked (known p List.mem_cons_self)).bind fun _ _ =>
        ih fun q member => known q (List.mem_cons_of_mem p member)

theorem looks_receiverSlots {s : Signature} {receiver : Address} :
    Bridge.Looks (fun _ => True) (receiverSlots s name receiver) db := by
  unfold receiverSlots
  split
  · split
    · exact Bridge.looks_throw
    · exact Bridge.looks_pure trivial
  · exact Bridge.looks_pure trivial

theorem looks_warnOfOutputs {outputs : List Slot} :
    Looks (fun _ => True) (warnOfOutputs name outputs) db := by
  unfold warnOfOutputs
  split
  · exact looks_pure trivial
  · exact looks_warn

/-- The result is decoded under the type that the callable had before it was called. -/
theorem grounded_invoke {callable : Token} {receiver : Address} {arguments : List Value}
    (sound : db.Sound) (known : db.Has callable) :
    Bridge.Grounded Database.anything (invoke callable receiver arguments) db := by
  refine .region <| (Signature.looks_ofCallable sound.toLinked known).next fun signature types =>
    .past (looks_qualifiedName sound.toLinked known) fun name _ => ?_
  dsimp only
  split
  · exact Bridge.grounded_throw
  · refine looks_receiverSlots.next fun start _ =>
      (looks_encodeArguments sound.toLinked types.parameters).next fun encoded _ => ?_
    have called : Request.Grounded db
        (.invoke callable encoded.1.inputs encoded.1.outputs) := known.alone
    refine .after (grounded_call called) fun reply later edited _ =>
      Bridge.looks_except.next fun slot _ => .past looks_warnOfOutputs fun _ _ => ?_
    split
    · next type typed =>
      have there : later.Has type := edited.has sound (types.result type typed)
      exact (Codec.looks_decode (edited.sound sound) there).grounded fun _ _ => trivial
    · exact Bridge.grounded_pure trivial

end Call

namespace Runtime

theorem looks_copyString {tag : Tag} {slot : Slot} :
    Looks (fun _ => True) (copyString tag slot) db := by
  unfold copyString
  split
  · exact looks_memory.bind fun _ _ => looks_place.bind fun _ _ => looks_pure trivial
  · exact looks_pure trivial

theorem looks_findProperty {a : Address} :
    Bridge.Looks (fun _ => True) (findProperty a name) db := by
  refine .after looks_liveInstance fun i _ => .after looks_database fun found _ => ?_
  split
  · exact Bridge.looks_pure trivial
  · exact Bridge.looks_throw

theorem looks_storedProperty {a : Address} : Looks (fun _ => True) (storedProperty a name) db :=
  looks_liveInstance.bind fun _ _ => looks_pure trivial

theorem looks_readProperty {a : Address} :
    Bridge.Looks (fun _ => True) (readProperty a name) db :=
  looks_findProperty.bind fun _ _ => .after looks_storedProperty fun _ _ =>
    Bridge.looks_pure trivial

theorem looks_readField {field : Token} {a : Address} (known : db.Has field) :
    Bridge.Looks (fun _ => True) (readField field a) db := by
  refine .after (looks_entry known) fun e _ => ?_
  split
  · exact Bridge.looks_throw_bind
  · exact .after looks_database fun _ _ => .after looks_memory fun _ _ =>
      Bridge.looks_pure trivial

theorem looks_fieldSlot {tag : Tag} {slot : Slot} :
    Looks (fun _ => True) (fieldSlot tag slot) db := by
  unfold fieldSlot
  split
  · exact looks_memory.bind fun _ _ => looks_placeText.bind fun _ _ => looks_pure trivial
  · exact looks_pure trivial

theorem looks_writeField {field : Token} {a : Address} {slot : Slot} (known : db.Has field) :
    Bridge.Looks (fun _ => True) (writeField field a slot) db := by
  refine .after (looks_entry known) fun e _ => ?_
  split
  · exact Bridge.looks_throw_bind
  · exact .after looks_database fun _ _ => .after looks_fieldSlot fun _ _ =>
      Bridge.looks_lift (looks_plain rfl)

theorem looks_storeProperty {a : Address} {property : Token} {slot : Slot} :
    Looks (fun _ => True) (storeProperty a property name slot) db :=
  looks_database.bind fun _ _ => looks_liveInstance.bind fun _ _ =>
    looks_copyString.bind fun _ _ => looks_plain rfl

theorem looks_writeProperty {a : Address} {slot : Slot} :
    Bridge.Looks (fun _ => True) (writeProperty a name slot) db :=
  looks_findProperty.bind fun _ _ => Bridge.looks_lift looks_storeProperty

/-- What is constructed is an instance of an entry that is registered. -/
theorem looks_construct {number : TypeNumber} {initial : List Initial} (sound : db.Sound) :
    Bridge.Looks (fun _ => True) (construct number initial) db := by
  refine .after looks_database fun found same => ?_
  cases same
  split
  · exact Bridge.looks_throw
  · next t taken =>
    obtain ⟨e, there, _⟩ := sound.registered number t taken
    refine .after (looks_entry (Database.has_of_entry there)) fun e _ => ?_
    dsimp only
    split
    · exact Bridge.looks_throw_bind
    · exact Bridge.looks_except.bind fun _ _ => .after (looks_plain rfl) fun _ _ =>
        .after (looks_forEach fun _ _ => looks_storeProperty) fun _ _ => Bridge.looks_pure trivial

end Runtime

namespace Handle

section Sound

variable (sound : db.Sound)
include sound

theorem looks_readProperty {r : HandleRecord} {property : Token} (known : db.Has property) :
    Bridge.Looks (fun _ => True) (readProperty r property name) db := by
  refine .region <| looks_receiver.bind fun a _ => .after (looks_entry known) fun e _ => ?_
  dsimp only
  split
  · exact Bridge.looks_throw_bind
  · exact (looks_memberType sound.toLinked known).bind fun _ there =>
      (Bridge.looks_ofRuntime Runtime.looks_readProperty).bind fun _ _ =>
        Codec.looks_decode sound there

theorem looks_writeProperty {r : HandleRecord} {property : Token} {v : Value}
    (known : db.Has property) :
    Bridge.Looks (fun _ => True) (writeProperty r property name v) db := by
  refine .region <| looks_receiver.bind fun a _ => .after (looks_entry known) fun e _ => ?_
  dsimp only
  split
  · exact Bridge.looks_throw_bind
  · exact (looks_memberType sound.toLinked known).bind fun _ there =>
      (Codec.looks_encode sound.toLinked there).bind fun _ _ =>
        Bridge.looks_ofRuntime Runtime.looks_writeProperty

theorem looks_readField {r : HandleRecord} {field : Token} (known : db.Has field) :
    Bridge.Looks (fun _ => True) (readField r field name) db :=
  .region <| looks_receiver.bind fun _ _ =>
    (looks_memberType sound.toLinked known).bind fun _ there =>
      (Bridge.looks_ofRuntime (Runtime.looks_readField known)).bind fun _ _ =>
        Codec.looks_decode sound there

theorem looks_writeField {r : HandleRecord} {field : Token} {v : Value} (known : db.Has field) :
    Bridge.Looks (fun _ => True) (writeField r field name v) db :=
  .region <| looks_receiver.bind fun _ _ =>
    (looks_memberType sound.toLinked known).bind fun _ there =>
      (Codec.looks_encode sound.toLinked there).bind fun _ _ =>
        Bridge.looks_ofRuntime (Runtime.looks_writeField known)

omit sound in
theorem looks_bindMethod {h : HandleId} {r : HandleRecord} {method : Token}
    (typed : ∀ u, r.info = some u → db.Has u) (known : db.Has method) :
    Looks (fun _ => True) (bindMethod h r method) db := by
  refine (looks_entry known).bind fun e _ => ?_
  dsimp only
  split
  · exact looks_unbound known
  · split
    · next info named =>
      exact (looks_entry (typed info named)).bind fun _ _ => looks_derived known.given
    · have plain : Looks (fun _ => True) (pure false) db := looks_pure trivial
      exact plain.bind fun _ _ => looks_derived known.given

theorem looks_extract {h : HandleId} : Bridge.Looks (fun _ => True) (extract h name) db := by
  refine .region <| .after looks_handleRecord fun r typed =>
    (looks_typed typed).bind fun info known => .after (looks_entry known) fun e _ => ?_
  split
  · exact ListCursor.looks_extract sound known
  · refine (Member.looks_resolve sound.toLinked known).bind fun member there => ?_
    have single {u : Token} (claims : member.claims = [.entry u]) : db.Has u :=
      there (.entry u) (claims ▸ List.mem_cons_self) u List.mem_cons_self
    split
    · exact Bridge.looks_pure trivial
    · exact .after (looks_bindMethod typed (single rfl)) fun _ _ => Bridge.looks_pure trivial
    · exact looks_readProperty sound (single rfl)
    · exact looks_readField sound (single rfl)
    · exact .after (looks_unbound (single rfl)) fun _ _ => Bridge.looks_pure trivial

theorem looks_get {h : HandleId} : Bridge.Looks (fun _ => True) (get h name) db := by
  refine .region <| .after looks_handleRecord fun r typed =>
    (looks_typed typed).bind fun info known =>
      .after (Member.looks_findProperty sound.toLinked known) fun found there => ?_
  split
  · next property spelling => exact looks_readProperty sound (there (property, spelling) rfl)
  · refine .after (Member.looks_findField sound.toLinked known) fun found there => ?_
    split
    · next field spelling => exact looks_readField sound (there (field, spelling) rfl)
    · exact Bridge.looks_throw

theorem looks_set {h : HandleId} {v : Value} :
    Bridge.Looks (fun _ => True) (set h name v) db := by
  refine .region <| .after looks_handleRecord fun r typed =>
    (looks_typed typed).bind fun info known =>
      .after (Member.looks_findProperty sound.toLinked known) fun found there => ?_
  split
  · next property spelling => exact looks_writeProperty sound (there (property, spelling) rfl)
  · refine .after (Member.looks_findField sound.toLinked known) fun found there => ?_
    split
    · next field spelling => exact looks_writeField sound (there (field, spelling) rfl)
    · exact Bridge.looks_throw

omit sound in
theorem looks_cast {info : Token} {source : HandleId} (known : db.Has info) :
    Looks (fun _ => True) (cast info source) db := by
  refine looks_handleRecord.bind fun r typed => (looks_entry known).bind fun target _ => ?_
  dsimp only
  split
  · next other named =>
    exact (looks_entry (typed other named)).bind fun _ _ =>
      (looks_trace known.alone).bind fun _ _ => looks_derived known.given
  · exact (looks_trace known.alone).bind fun _ _ => looks_derived known.given

theorem looks_encodeInitial {info : Token} {v : Value} {block : Codec.ArgumentBlock}
    (known : db.Has info) :
    Bridge.Looks (fun _ => True) (encodeInitial info name v block) db := by
  refine .region (.after (Member.looks_findProperty sound.toLinked known) fun found there => ?_)
  split
  · exact Bridge.looks_throw
  · next property spelling =>
    exact (looks_memberType sound.toLinked (there (property, spelling) rfl)).bind fun _ typed =>
      (Codec.looks_encode sound.toLinked typed).bind fun _ _ => Bridge.looks_pure trivial

theorem looks_encodeInitials {info : Token} {limit : Nat} {arguments : List Argument}
    {block : Codec.ArgumentBlock} (known : db.Has info) :
    Bridge.Looks (fun _ => True) (encodeInitials info limit arguments block) db := by
  induction limit generalizing arguments block with
  | zero => exact Bridge.looks_pure trivial
  | succ limit ih =>
    refine Bridge.looks_except.bind fun next _ => ?_
    split
    · exact Bridge.looks_pure trivial
    · exact (looks_encodeInitial sound known).bind fun _ _ => ih.bind fun _ _ =>
        Bridge.looks_pure trivial

theorem looks_constructObject {info : Token} {arguments : List Argument} (known : db.Has info) :
    Bridge.Looks (fun _ => True) (constructObject info arguments) db := by
  refine .region <| (looks_encodeInitials sound known).bind fun initial _ =>
    .after (looks_trace known.alone) fun _ _ => .after (looks_entry known) fun e _ =>
    .after (looks_qualifiedName sound.toLinked known) fun shown _ =>
    (Bridge.looks_ofRuntime (Runtime.looks_construct sound)).bind fun a _ =>
    .after looks_liveInstance fun i _ => ?_
  split
  · exact .after (looks_plain rfl) fun _ _ => Bridge.looks_lift (looks_retained known.given)
  · exact Bridge.looks_lift (looks_retained known.given)

omit sound in
theorem looks_constructRecord {info : Token} (known : db.Has info) :
    Looks (fun _ => True) (constructRecord info) db := by
  refine (looks_entry known).bind fun e _ => (looks_trace known.alone).bind fun _ _ => ?_
  have opened : Request.Grounded db (.openBlock info (max e.size 1)) := known.alone
  exact (looks_request opened fun _ leads => leads).weaken fun _ _ => trivial

/-- Setting a global of the host may run anything. -/
theorem grounded_access {h : HandleId} {arguments : List Argument} :
    Bridge.Grounded Database.anything (access h arguments) db := by
  unfold access
  split
  · exact Bridge.grounded_pure trivial
  · exact (looks_set sound).next fun _ _ => Bridge.grounded_pure trivial
  · split
    · exact Bridge.grounded_throw
    · split
      · next global others =>
        refine .region <| (looks_get sound).next fun v _ => ?_
        have assigned : Request.Grounded db (.assignGlobal global v) := List.forall_mem_nil _
        exact .after (grounded_call assigned) fun _ _ _ _ => Bridge.grounded_pure trivial
      · exact Bridge.grounded_throw

theorem grounded_accessAll {h : HandleId} {limit : Nat} {arguments : List Argument} :
    Bridge.Grounded Database.anything (accessAll h limit arguments) db := by
  induction limit generalizing db arguments with
  | zero => exact Bridge.grounded_pure trivial
  | succ limit ih =>
    cases arguments with
    | nil => exact Bridge.grounded_pure trivial
    | cons x rest =>
      exact (grounded_access sound).bind fun _ _ edited _ => ih (edited.sound sound)

theorem grounded_finish {h : HandleId} {arguments : List Argument} :
    Bridge.Grounded Database.anything (finish h arguments) db := by
  unfold finish
  split
  · exact Bridge.grounded_pure trivial
  · exact (grounded_accessAll sound).bind fun _ _ _ _ => Bridge.grounded_pure trivial

theorem grounded_evalInstance {h : HandleId} {r : HandleRecord} {info : Token} {kind : EntryKind}
    {arguments : List Argument} (known : db.Has info) :
    Bridge.Grounded Database.anything (evalInstance h r info kind arguments) db := by
  unfold evalInstance
  split
  · exact .past (looks_hold Database.knows_handle) fun _ _ => grounded_finish sound
  · split
    · exact .past (looks_cast known) fun _ _ => grounded_finish sound
    · split
      · exact (looks_constructObject sound known).next fun _ _ => Bridge.grounded_pure trivial
      · split
        · exact .past (looks_constructRecord known) fun _ _ => grounded_finish sound
        · exact .past (looks_qualifiedName sound.toLinked known) fun _ _ => Bridge.grounded_throw

theorem grounded_eval {h : HandleId} {arguments : List Argument} :
    Bridge.Grounded Database.anything (eval h arguments) db := by
  refine .region <| .past looks_handleRecord fun r typed =>
    (looks_typed typed).next fun info known => .past (looks_entry known) fun e _ => ?_
  split
  · exact (ListCursor.looks_nth sound known).grounded fun _ _ => trivial
  · split
    · exact Bridge.looks_except.next fun _ _ => Call.grounded_invoke sound known
    · split
      · exact grounded_evalInstance sound known
      · exact .past (looks_qualifiedName sound.toLinked known) fun _ _ => Bridge.grounded_throw

end Sound
end Handle

theorem Listing.looks_ofHandle {h : HandleId} (linked : db.Linked) :
    Bridge.Looks (fun _ => True) (ofHandle h) db := by
  refine .after looks_handleRecord fun r typed => (Handle.looks_typed typed).bind fun info known =>
    .after (looks_describe linked known) fun listing _ => ?_
  split
  · exact Bridge.looks_pure trivial
  · refine .after looks_store fun s _ => ?_
    extract_lets rest
    split
    · exact .after looks_liveInstance fun _ _ => .after looks_database fun _ _ =>
        Bridge.looks_pure trivial
    · exact Bridge.looks_pure trivial

namespace Library

theorem looks_required : Looks (fun _ => True) required db :=
  (looks_plain (r := .required) rfl).bind fun _ _ => looks_pure trivial

theorem looks_list {library : String} : Looks (fun _ => True) (list library) db := by
  refine looks_database.bind fun found same => Looks.region ?_
  cases same
  have entries : Looks (fun es => ∀ e ∈ es, True)
      (each (fun t => do hold (.entry t); entry t) (db.topLevel library)) db :=
    looks_each fun t listed => by
      have known : db.Has t := Database.mem_tokens.mp (List.mem_filter.mp listed).1
      exact (looks_hold (Database.knows_entry known)).bind fun _ _ =>
        (looks_entry known).weaken fun _ _ => trivial
  exact entries.weaken fun _ _ => trivial

/-- Loading a namespace changes no entry. -/
theorem grounded_load {version directory : Option String} :
    Bridge.Grounded Database.anything (load name version directory) db := by
  refine .past looks_database fun found same => ?_
  cases same
  split
  · exact Bridge.grounded_throw
  · next loaded catalog _ =>
    have renamed : Request.Grounded db (.setDatabase { db with catalog := catalog }) :=
      (Database.Edits.rename catalog db.searchPath).edited
    exact .after (grounded_call renamed) fun _ _ _ _ => .past (looks_plain rfl) fun _ _ =>
      Bridge.grounded_pure trivial

theorem looks_extract {library : String} (sound : db.Sound) :
    Bridge.Looks (fun _ => True) (extract library name) db := by
  refine .region <| .after looks_database fun found same => ?_
  cases same
  have there : ∀ u ∈ db.named? library name, db.Has u := fun u named =>
    Database.mem_tokens.mp
      (List.mem_filter.mp (List.mem_of_find?_eq_some (Option.mem_def.mp named))).1
  refine .after (looks_take there) fun taken known => ?_
  split
  · exact Bridge.looks_throw
  · next t =>
    refine .after (looks_entry (known t rfl)) fun e _ => ?_
    split
    · refine .after (looks_declared sound.toLinked (known t rfl)) fun declared types => ?_
      split
      · next type => exact Codec.looks_decode sound (types type rfl)
      · exact Bridge.looks_throw
    · exact .after (Handle.looks_unbound (known t rfl)) fun _ _ => Bridge.looks_pure trivial

end Library

namespace Signal

section Linked

variable (linked : db.Linked)
include linked

theorem looks_answersTruth {signal : Token} (known : db.Has signal) :
    Bridge.Looks (fun _ => True) (answersTruth signal) db := by
  refine .region (.after (looks_result linked known) fun found there => ?_)
  split
  · exact Bridge.looks_pure trivial
  · next result =>
    refine .after (looks_entry (there result rfl)) fun e _ => ?_
    split
    · exact Bridge.looks_pure trivial
    · exact Bridge.looks_pure trivial
    · exact .after (looks_entry known) fun _ _ => Bridge.looks_throw

theorem looks_argumentType {signal : Token} {index : Nat} (known : db.Has signal) :
    Bridge.Looks db.Has (argumentType signal name index) db := by
  refine .region (.after (looks_argument linked known) fun found there => ?_)
  split
  · exact Bridge.looks_throw
  · next argument =>
    refine .after (looks_declared linked (there argument rfl)) fun declared types => ?_
    split
    · exact Bridge.looks_throw
    · next type => exact Bridge.looks_pure (types type rfl)

omit linked in
theorem looks_attach {a : Address} {signal : String} {reaction : Reaction}
    (known : ∀ c ∈ reaction.claims, db.Knows c) :
    Bridge.Looks (fun _ => True) (attach a signal reaction) db := by
  refine .after looks_liveInstance fun i _ => .after looks_database fun found _ => ?_
  split
  · exact Bridge.looks_throw
  · have attached : Request.Grounded db (.attach a signal reaction) := by
      intro u member
      obtain ⟨c, claimed, names⟩ := List.mem_flatMap.mp member
      exact known c claimed u names
    exact Bridge.looks_lift
      ((looks_request attached fun _ leads => leads).weaken fun _ _ => trivial)

omit linked in
/-- The record of a connection claims the signal, the type of its emitter and the types of its
arguments. -/
theorem knows_relay {r : Relay} (signal : db.Has r.signal) (emitter : db.Has r.emitterType)
    (types : ∀ u ∈ r.argumentTypes, db.Has u) :
    ∀ c ∈ (Reaction.relay r).claims, db.Knows c := by
  intro c member
  simp only [Reaction.claims, List.mem_append, List.mem_cons, List.not_mem_nil, or_false,
    List.mem_map] at member
  rcases member with ((rfl | rfl) | data) | ⟨u, listed, rfl⟩
  · exact Database.knows_entry signal
  · exact Database.knows_entry emitter
  · split at data
    · exact Database.knows_value c data
    · exact absurd data List.not_mem_nil
  · exact Database.knows_entry (types u listed)

theorem looks_connect {h : HandleId} {target : Script.Target} {userData : Option Value} :
    Bridge.Looks (fun _ => True) (connect h name target userData) db := by
  refine .region <| .after looks_handleRecord fun r typed =>
    (Handle.looks_typed typed).bind fun info known => .after (looks_entry known) fun e _ => ?_
  dsimp only
  split
  · exact .after Handle.looks_text fun _ _ => Bridge.looks_throw_bind
  · refine .after (Member.looks_findSignal linked known) fun found there => ?_
    split
    · exact Bridge.looks_throw
    · next signal =>
      refine .after (looks_entry (there signal rfl)) fun s _ => ?_
      split
      · exact Bridge.looks_throw_bind
      · exact (looks_answersTruth linked (there signal rfl)).bind fun truth _ =>
          (Bridge.looks_each fun _ _ => looks_argumentType linked (there signal rfl)).bind
            fun types declared => Bridge.looks_ofRuntime <| looks_attach <|
              knows_relay (there signal rfl) known declared

theorem looks_viewedTarget {type : Token} (known : db.Has type) :
    Looks (fun r => ∀ u ∈ r, db.Has u) (argumentValue.viewedTarget type) db := by
  refine (looks_target linked known).bind fun found there => ?_
  split
  · exact looks_pure fun _ impossible => nomatch impossible
  · next target =>
    refine (looks_entry (there target rfl)).bind fun e _ => looks_pure fun u viewed => ?_
    split at viewed
    · exact there u viewed
    · cases viewed

end Linked

section Sound

variable (sound : db.Sound)
include sound

theorem looks_argumentValue {signal : String} {slot : Slot} {type : Token} (known : db.Has type) :
    Looks (fun _ => True) (argumentValue signal slot type) db := by
  refine Looks.region ((looks_viewedTarget sound.toLinked known).bind fun viewed there => ?_)
  split
  · split
    · exact looks_pure trivial
    · exact (Handle.looks_borrowed there).bind fun _ _ => looks_pure trivial
  · refine Program.Looks.bind (Codec.looks_decode sound known) fun outcome _ => ?_
    split
    · exact looks_pure trivial
    · exact looks_warn.bind fun _ _ => looks_pure trivial

theorem looks_argumentValues {signal : String} {slots : List Slot} {types : List Token}
    (known : ∀ u ∈ types, db.Has u) :
    Looks (fun _ => True) (argumentValues signal slots types) db := by
  induction slots generalizing types with
  | nil => exact looks_pure trivial
  | cons slot slots ih =>
    cases types with
    | nil => exact looks_pure trivial
    | cons type types =>
      exact (looks_argumentValue sound (known type List.mem_cons_self)).bind fun _ _ =>
        (ih fun u member => known u (List.mem_cons_of_mem type member)).bind fun _ _ =>
          looks_pure trivial

variable {r : Relay} (known : ∀ c ∈ (Reaction.relay r).claims, db.Knows c)
include known

omit sound in
/-- A connection record names only entries. -/
theorem has_of_relay {u : Token} (claimed : .entry u ∈ (Reaction.relay r).claims) : db.Has u :=
  known (.entry u) claimed u List.mem_cons_self

theorem grounded_deliver {emitter : Slot} {extras : List Slot} :
    Program.Grounded Database.anything (deliver r emitter extras) db := by
  have signal : db.Has r.signal := has_of_relay known (by simp [Reaction.claims])
  have emitterType : db.Has r.emitterType := has_of_relay known (by simp [Reaction.claims])
  have types : ∀ u ∈ r.argumentTypes, db.Has u := fun u listed =>
    has_of_relay known (by simp [Reaction.claims, listed])
  have held : ∀ v ∈ r.userData.toList, (forEach hold v.claims).Looks (fun _ => True) db :=
    fun _ _ => looks_forEach fun c claimed => looks_hold (Database.knows_value c claimed)
  refine (looks_entry signal).next fun s _ =>
    (Codec.looks_wrapInstance sound emitterType).next fun sender _ =>
    (looks_argumentValues sound types).next fun values _ => (looks_forEach held).next fun _ _ => ?_
  have called : Request.Grounded db
      (.callHost r.target (sender :: values ++ r.userData.toList)) := List.forall_mem_nil _
  refine (grounded_call called).bind fun outcome later _ _ => ?_
  split
  · exact grounded_pure trivial
  · exact looks_warn.next fun _ _ => grounded_pure trivial

theorem grounded_dispatch {slots : List Slot} :
    Program.Grounded Database.anything (dispatch r slots) db := by
  unfold dispatch
  dsimp only
  split
  · exact grounded_deliver sound known
  · have signal : db.Has r.signal := has_of_relay known (by simp [Reaction.claims])
    exact (looks_entry signal).next fun _ _ => looks_warn.next fun _ _ => grounded_pure trivial

end Sound

theorem grounded_react {reaction : Reaction} {slots : List Slot} (sound : db.Sound)
    (known : ∀ c ∈ reaction.claims, db.Knows c) :
    Program.Grounded Database.anything (react reaction slots) db := by
  cases reaction with
  | fixed reply => exact grounded_pure trivial
  | relay r =>
    exact .region <| (grounded_dispatch sound known).bind fun _ _ _ _ =>
      looks_store.next fun _ _ => grounded_pure trivial

/-- Each connection is looked up in the store that the one before it left. -/
theorem grounded_runAll {slots : List Slot} {chosen : List ClosureId} {last : Option Slot}
    (sound : db.Sound) : Program.Grounded Database.anything (runAll slots chosen last) db := by
  induction chosen generalizing db last with
  | nil => exact grounded_pure trivial
  | cons c rest ih =>
    refine looks_store.next fun s grounded => ?_
    split
    · next closure live =>
      exact (grounded_react sound (grounded.closures c closure live)).bind fun _ _ edited _ =>
        ih (edited.sound sound)
    · exact grounded_stop fun _ same => nomatch same

theorem grounded_emit {a : Address} {signal : String} {arguments : List Slot} (sound : db.Sound) :
    Program.Grounded Database.anything (emit a signal arguments) db :=
  .region <| looks_liveInstance.next fun _ _ =>
    (looks_forEach fun _ _ => looks_hold Database.knows_closure).next fun _ _ =>
      grounded_runAll sound

end Signal
end ObjectBridge
