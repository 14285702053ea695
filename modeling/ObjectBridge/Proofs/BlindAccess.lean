import ObjectBridge.Library
import ObjectBridge.Proofs.BlindLookup
import ObjectBridge.Signal

/-!
# The operations of handles are blind

Decoding, reading and writing members, calling, constructing, connecting and emitting do not depend
on the switches, on the order of the ledger, or on the scripts of the functions that they run.
-/

namespace ObjectBridge

open Program Descriptor

namespace Handle

theorem blind_unbound {info : Token} : Blind (unbound info) := blind_request rfl

theorem blind_retained {info : Option Token} {a : Address} : Blind (retained info a) :=
  blind_request rfl

theorem blind_borrowed {info : Option Token} {a : Address} : Blind (borrowed info a) :=
  blind_request rfl

theorem blind_dependent {owner : HandleId} {info : Option Token} {a : Address} :
    Blind (dependent owner info a) := by
  by_cases null : a = 0
  · have free : dependent owner info a = request (.openHandle info none none) := if_pos null
    exact free ▸ blind_request rfl
  · have kept : dependent owner info a
        = request (.openHandle info (some ⟨a, .borrowed⟩) (some owner)) := if_neg null
    exact kept ▸ blind_request rfl

theorem blind_derived {owner : HandleId} {info : Option Token} {a : Address} {retain : Bool} :
    Blind (derived owner info a retain) := by
  unfold derived
  split
  · exact blind_retained
  · exact blind_dependent

end Handle

namespace Codec

theorem blind_wrapInstance {a : Address} {declared : Token} {retain : Bool} :
    Blind (wrapInstance a declared retain) := by
  refine .region ?_
  split
  · exact blind_pure
  · refine blind_store (fun _ _ => rfl) fun s => ?_
    extract_lets give wrap
    have blind_wrap (actual? : Option Token) : Blind (wrap actual?) := by
      simp only [wrap]
      cases actual? with
      | some actual =>
        refine blind_trace.bind fun _ => ?_
        split
        · exact Handle.blind_retained.bind fun _ => blind_pure
        · exact Handle.blind_borrowed.bind fun _ => blind_pure
      | none =>
        dsimp only
        split
        · exact Handle.blind_retained.bind fun _ => blind_pure
        · exact Handle.blind_borrowed.bind fun _ => blind_pure
    split
    · exact blind_liveInstance.bind fun _ => blind_registered.bind blind_wrap
    · exact blind_wrap none

theorem blind_wrapRecord {a : Address} {declared : Token} : Blind (wrapRecord a declared) := by
  refine .region ?_
  split
  · exact blind_pure
  · refine blind_entry.bind fun e => blind_registered.bind fun found =>
      blind_entry.bind fun infoEntry => ?_
    split
    · exact Handle.blind_retained.bind fun _ => blind_pure
    · exact Handle.blind_borrowed.bind fun _ => blind_pure

theorem blind_decodeShape {slot : Slot} {t : Token} {wanted : Shape} :
    Blind (decodeShape slot t wanted) := by
  cases wanted with
  | void | boolean | scalar s | enumeration format | callback => exact blind_pure
  | text => exact blind_memory.bind fun _ => blind_pure
  | array element zeroTerminated fixedSize =>
    exact blind_memory.bind fun _ => blind_entry.bind fun _ => blind_pure
  | object target => exact blind_wrapInstance
  | interface target => exact blind_store (fun _ _ => rfl) fun _ => blind_wrapInstance
  | record target boxed => exact blind_wrapRecord
  | list => exact Handle.blind_borrowed.bind fun _ => blind_pure

theorem blind_decode {slot : Slot} {t : Token} : Bridge.Blind (decode slot t) :=
  .region <| blind_shape.bind fun _ => .after blind_trace fun _ =>
    Bridge.blind_lift blind_decodeShape

end Codec

namespace ListCursor

theorem blind_nodes {m : Memory} {node : Address} : Blind (nodes m node) := by
  unfold nodes
  split
  · exact blind_pure
  · exact blind_stop

theorem blind_neighbour {info : Token} {node : Address} : Blind (neighbour info node) := by
  unfold neighbour
  split
  · exact blind_pure
  · exact Handle.blind_borrowed.bind fun _ => blind_pure

theorem blind_decodeDatum {info : Token} {a : Address} : Bridge.Blind (decodeDatum info a) := by
  refine .region (.after blind_part fun found => ?_)
  cases found with
  | some element => exact Codec.blind_decode
  | none => exact Bridge.blind_throw

theorem blind_extract {head : Address} {info : Token} {name : String} :
    Bridge.Blind (extract head info name) := by
  unfold extract
  split
  · exact Bridge.blind_throw
  · refine .after blind_entry fun e => .after blind_memory fun m => ?_
    split
    · exact .after blind_nodes fun _ => Bridge.blind_pure
    · split
      · exact Bridge.blind_throw
      · exact blind_decodeDatum
    · split
      · exact Bridge.blind_throw
      · exact Bridge.blind_lift blind_neighbour
    · split
      · exact Bridge.blind_throw
      · split
        · exact Bridge.blind_throw
        · exact Bridge.blind_lift blind_neighbour

theorem blind_nth {head : Address} {info : Token} {arguments : List Argument} :
    Bridge.Blind (nth head info arguments) := by
  refine Bridge.blind_except.bind fun index => ?_
  dsimp only
  split
  · exact Bridge.blind_throw_bind
  · split
    · exact Bridge.blind_throw_bind
    · refine .after blind_memory fun m => ?_
      split
      · exact Bridge.blind_throw_bind
      · split
        · exact Bridge.blind_throw_bind
        · exact blind_decodeDatum

end ListCursor

namespace Call

theorem blind_encodeArguments {parameters : List SignatureParameter} {arguments : List Value}
    {slots : Slots} {block : Codec.ArgumentBlock} :
    Bridge.Blind (encodeArguments parameters arguments slots block) := by
  induction parameters generalizing arguments slots block with
  | nil => cases arguments <;> exact Bridge.blind_pure
  | cons p ps ih =>
    cases arguments with
    | nil => exact Bridge.blind_pure
    | cons v vs => exact Codec.blind_encode.bind fun _ => ih

theorem blind_receiverSlots {s : Signature} {name : String} {receiver : Address} :
    Bridge.Blind (receiverSlots s name receiver) := by
  unfold receiverSlots
  split
  · split
    · exact Bridge.blind_throw
    · exact Bridge.blind_pure
  · exact Bridge.blind_pure

theorem blind_warnOfOutputs {name : String} {outputs : List Slot} :
    Blind (warnOfOutputs name outputs) := by
  unfold warnOfOutputs
  split
  · exact blind_pure
  · exact blind_warn

theorem blind_invoke {callable : Token} {receiver : Address} {arguments : List Value} :
    Bridge.Blind (invoke callable receiver arguments) := by
  refine .region <| Signature.blind_ofCallable.bind fun signature =>
    .after blind_qualifiedName fun name => ?_
  dsimp only
  split
  · exact Bridge.blind_throw_bind
  · refine blind_receiverSlots.bind fun start => blind_encodeArguments.bind fun encoded => ?_
    refine .after (blind_request (r := .invoke _ _ _) rfl) fun reply =>
      Bridge.blind_except.bind fun slot => .after blind_warnOfOutputs fun _ => ?_
    split
    · exact Codec.blind_decode
    · exact Bridge.blind_pure

end Call

namespace Runtime

theorem blind_storeProperty {a : Address} {property : Token} {name : String} {slot : Slot} :
    Blind (storeProperty a property name slot) :=
  blind_database.bind fun _ => blind_liveInstance.bind fun _ => blind_copyString.bind fun _ =>
    blind_request rfl

theorem blind_writeProperty {a : Address} {name : String} {slot : Slot} :
    Bridge.Blind (writeProperty a name slot) :=
  blind_findProperty.bind fun _ => Bridge.blind_lift blind_storeProperty

theorem blind_construct {number : TypeNumber} {initial : List Initial} :
    Bridge.Blind (construct number initial) := by
  refine .after blind_database fun db => ?_
  split
  · exact Bridge.blind_throw
  · refine .after blind_entry fun e => ?_
    dsimp only
    split
    · exact Bridge.blind_throw_bind
    · exact Bridge.blind_except.bind fun _ => .after (blind_request rfl) fun _ =>
        .after (blind_forEach fun _ => blind_storeProperty) fun _ => Bridge.blind_pure

end Runtime

namespace Handle

theorem blind_readProperty {r : HandleRecord} {property : Token} {name : String} :
    Bridge.Blind (readProperty r property name) := by
  refine .region <| blind_receiver.bind fun a => .after blind_entry fun e => ?_
  dsimp only
  split
  · exact Bridge.blind_throw_bind
  · exact blind_memberType.bind fun _ =>
      (Bridge.blind_ofRuntime Runtime.blind_readProperty).bind fun _ => Codec.blind_decode

theorem blind_writeProperty {r : HandleRecord} {property : Token} {name : String} {v : Value} :
    Bridge.Blind (writeProperty r property name v) := by
  refine .region <| blind_receiver.bind fun a => .after blind_entry fun e => ?_
  dsimp only
  split
  · exact Bridge.blind_throw_bind
  · exact blind_memberType.bind fun _ => Codec.blind_encode.bind fun _ =>
      Bridge.blind_ofRuntime Runtime.blind_writeProperty

theorem blind_readField {r : HandleRecord} {field : Token} {name : String} :
    Bridge.Blind (readField r field name) :=
  .region <| blind_receiver.bind fun _ => blind_memberType.bind fun _ =>
    (Bridge.blind_ofRuntime Runtime.blind_readField).bind fun _ => Codec.blind_decode

theorem blind_writeField {r : HandleRecord} {field : Token} {name : String} {v : Value} :
    Bridge.Blind (writeField r field name v) :=
  .region <| blind_receiver.bind fun _ => blind_memberType.bind fun _ =>
    Codec.blind_encode.bind fun _ => Bridge.blind_ofRuntime Runtime.blind_writeField

theorem blind_bindMethod {h : HandleId} {r : HandleRecord} {method : Token} :
    Blind (bindMethod h r method) := by
  refine blind_entry.bind fun e => ?_
  dsimp only
  split
  · exact blind_unbound
  · split
    · exact blind_entry.bind fun _ => blind_derived
    · exact blind_pure.bind fun _ => blind_derived

theorem blind_extract {h : HandleId} {name : String} : Bridge.Blind (extract h name) := by
  refine .region <| .after blind_handleRecord fun r => blind_typed.bind fun info =>
    .after blind_entry fun e => ?_
  split
  · exact ListCursor.blind_extract
  · refine Member.blind_resolve.bind fun member => ?_
    split
    · exact Bridge.blind_pure
    · exact .after blind_bindMethod fun _ => Bridge.blind_pure
    · exact blind_readProperty
    · exact blind_readField
    · exact .after blind_unbound fun _ => Bridge.blind_pure

theorem blind_get {h : HandleId} {name : String} : Bridge.Blind (get h name) := by
  refine .region <| .after blind_handleRecord fun r => blind_typed.bind fun info =>
    .after Member.blind_findProperty fun found => ?_
  split
  · exact blind_readProperty
  · refine .after Member.blind_findField fun found => ?_
    split
    · exact blind_readField
    · exact Bridge.blind_throw

theorem blind_set {h : HandleId} {name : String} {v : Value} : Bridge.Blind (set h name v) := by
  refine .region <| .after blind_handleRecord fun r => blind_typed.bind fun info =>
    .after Member.blind_findProperty fun found => ?_
  split
  · exact blind_writeProperty
  · refine .after Member.blind_findField fun found => ?_
    split
    · exact blind_writeField
    · exact Bridge.blind_throw

theorem blind_cast {info : Token} {source : HandleId} : Blind (cast info source) := by
  refine blind_handleRecord.bind fun r => blind_entry.bind fun target => ?_
  dsimp only
  split
  · exact blind_entry.bind fun _ => blind_trace.bind fun _ => blind_derived
  · exact blind_trace.bind fun _ => blind_derived

theorem blind_encodeInitial {info : Token} {name : String} {v : Value}
    {block : Codec.ArgumentBlock} : Bridge.Blind (encodeInitial info name v block) := by
  refine .region (.after Member.blind_findProperty fun found => ?_)
  split
  · exact Bridge.blind_throw
  · exact blind_memberType.bind fun _ => Codec.blind_encode.bind fun _ => Bridge.blind_pure

theorem blind_encodeInitials {info : Token} {limit : Nat} {arguments : List Argument}
    {block : Codec.ArgumentBlock} : Bridge.Blind (encodeInitials info limit arguments block) := by
  induction limit generalizing arguments block with
  | zero => exact Bridge.blind_pure
  | succ limit ih =>
    refine Bridge.blind_except.bind fun next => ?_
    split
    · exact Bridge.blind_pure
    · exact blind_encodeInitial.bind fun _ => ih.bind fun _ => Bridge.blind_pure

theorem blind_constructObject {info : Token} {arguments : List Argument} :
    Bridge.Blind (constructObject info arguments) := by
  refine .region <| blind_encodeInitials.bind fun initial => .after blind_trace fun _ =>
    .after blind_entry fun e => .after blind_qualifiedName fun name =>
    (Bridge.blind_ofRuntime Runtime.blind_construct).bind fun a =>
    .after blind_liveInstance fun i => ?_
  split
  · exact .after (blind_request rfl) fun _ => Bridge.blind_lift blind_retained
  · exact Bridge.blind_lift blind_retained

theorem blind_constructRecord {info : Token} : Blind (constructRecord info) :=
  blind_entry.bind fun _ => blind_trace.bind fun _ => blind_request rfl

theorem blind_access {h : HandleId} {arguments : List Argument} :
    Bridge.Blind (access h arguments) := by
  unfold access
  split
  · exact Bridge.blind_pure
  · exact blind_set.bind fun _ => Bridge.blind_pure
  · split
    · exact Bridge.blind_throw
    · split
      · exact .region <| blind_get.bind fun _ => .after (blind_request rfl) fun _ =>
          Bridge.blind_pure
      · exact Bridge.blind_throw

theorem blind_accessAll {h : HandleId} {limit : Nat} {arguments : List Argument} :
    Bridge.Blind (accessAll h limit arguments) := by
  induction limit generalizing arguments with
  | zero => exact Bridge.blind_pure
  | succ limit ih =>
    cases arguments with
    | nil => exact Bridge.blind_pure
    | cons x rest => exact blind_access.bind fun _ => ih

theorem blind_finish {h : HandleId} {arguments : List Argument} :
    Bridge.Blind (finish h arguments) := by
  unfold finish
  split
  · exact Bridge.blind_pure
  · exact blind_accessAll.bind fun _ => Bridge.blind_pure

theorem blind_evalInstance {h : HandleId} {r : HandleRecord} {info : Token} {kind : EntryKind}
    {arguments : List Argument} : Bridge.Blind (evalInstance h r info kind arguments) := by
  unfold evalInstance
  split
  · exact .after blind_hold fun _ => blind_finish
  · split
    · exact .after blind_cast fun _ => blind_finish
    · split
      · exact blind_constructObject.bind fun _ => Bridge.blind_pure
      · split
        · exact .after blind_constructRecord fun _ => blind_finish
        · exact .after blind_qualifiedName fun _ => Bridge.blind_throw

theorem blind_eval {h : HandleId} {arguments : List Argument} :
    Bridge.Blind (eval h arguments) := by
  refine .region <| .after blind_handleRecord fun r => blind_typed.bind fun info =>
    .after blind_entry fun e => ?_
  split
  · exact ListCursor.blind_nth
  · split
    · exact Bridge.blind_except.bind fun _ => Call.blind_invoke
    · split
      · exact blind_evalInstance
      · exact .after blind_qualifiedName fun _ => Bridge.blind_throw

end Handle

theorem Listing.blind_ofHandle {h : HandleId} : Bridge.Blind (ofHandle h) := by
  refine .after blind_handleRecord fun r => Handle.blind_typed.bind fun info =>
    .after blind_describe fun listing => ?_
  split
  · exact Bridge.blind_pure
  · refine Bridge.blind_store (fun _ _ => rfl) fun s => ?_
    extract_lets rest
    split
    · exact .after blind_liveInstance fun _ => .after blind_database fun _ => Bridge.blind_pure
    · exact Bridge.blind_pure

namespace Library

theorem blind_required : Blind required := (blind_request rfl).bind fun _ => blind_pure

theorem blind_list {library : String} : Blind (list library) :=
  blind_database.bind fun _ => .region <| blind_each fun _ => blind_hold.bind fun _ => blind_entry

theorem blind_load {name : String} {version directory : Option String} :
    Bridge.Blind (load name version directory) := by
  refine .after blind_database fun db => ?_
  split
  · exact Bridge.blind_throw
  · exact .after (blind_request rfl) fun _ => .after (blind_request rfl) fun _ =>
      Bridge.blind_pure

theorem blind_extract {library name : String} : Bridge.Blind (extract library name) := by
  refine .region <| .after blind_database fun db => .after blind_take fun found => ?_
  split
  · exact Bridge.blind_throw
  · refine .after blind_entry fun e => ?_
    split
    · refine .after blind_declared fun declared => ?_
      split
      · exact Codec.blind_decode
      · exact Bridge.blind_throw
    · exact .after Handle.blind_unbound fun _ => Bridge.blind_pure

end Library

namespace Signal

theorem blind_answersTruth {signal : Token} : Bridge.Blind (answersTruth signal) := by
  refine .region (.after blind_result fun found => ?_)
  split
  · exact Bridge.blind_pure
  · refine .after blind_entry fun e => ?_
    split
    · exact Bridge.blind_pure
    · exact Bridge.blind_pure
    · exact .after blind_entry fun _ => Bridge.blind_throw

theorem blind_argumentType {signal : Token} {name : String} {index : Nat} :
    Bridge.Blind (argumentType signal name index) := by
  refine .region (.after blind_argument fun found => ?_)
  split
  · exact Bridge.blind_throw
  · refine .after blind_declared fun declared => ?_
    split
    · exact Bridge.blind_throw
    · exact Bridge.blind_pure

theorem blind_attach {a : Address} {signal : String} {reaction : Reaction} :
    Bridge.Blind (attach a signal reaction) := by
  refine .after blind_liveInstance fun i => .after blind_database fun db => ?_
  split
  · exact Bridge.blind_throw
  · exact Bridge.blind_lift (blind_request rfl)

theorem blind_connect {h : HandleId} {name : String} {target : Script.Target}
    {userData : Option Value} : Bridge.Blind (connect h name target userData) := by
  refine .region <| .after blind_handleRecord fun r => Handle.blind_typed.bind fun info =>
    .after blind_entry fun e => ?_
  dsimp only
  split
  · exact .after Handle.blind_text fun _ => Bridge.blind_throw_bind
  · refine .after Member.blind_findSignal fun found => ?_
    split
    · exact Bridge.blind_throw
    · refine .after blind_entry fun s => ?_
      split
      · exact Bridge.blind_throw_bind
      · exact blind_answersTruth.bind fun _ => (Bridge.blind_each fun _ => blind_argumentType).bind
          fun _ => Bridge.blind_ofRuntime blind_attach

theorem blind_viewedTarget {type : Token} : Blind (argumentValue.viewedTarget type) := by
  refine blind_target.bind fun found => ?_
  split
  · exact blind_pure
  · exact blind_entry.bind fun _ => blind_pure

theorem blind_argumentValue {signal : String} {slot : Slot} {type : Token} :
    Blind (argumentValue signal slot type) := by
  refine .region (blind_viewedTarget.bind fun viewed => ?_)
  split
  · split
    · exact blind_pure
    · exact Handle.blind_borrowed.bind fun _ => blind_pure
  · refine Program.Blind.bind Codec.blind_decode fun outcome => ?_
    split
    · exact blind_pure
    · exact blind_warn.bind fun _ => blind_pure

theorem blind_argumentValues {signal : String} {slots : List Slot} {types : List Token} :
    Blind (argumentValues signal slots types) := by
  induction slots generalizing types with
  | nil => exact blind_pure
  | cons slot slots ih =>
    cases types with
    | nil => exact blind_pure
    | cons type types => exact blind_argumentValue.bind fun _ => ih.bind fun _ => blind_pure

theorem blind_deliver {r : Relay} {emitter : Slot} {extras : List Slot} :
    Blind (deliver r emitter extras) := by
  refine blind_entry.bind fun s => Codec.blind_wrapInstance.bind fun sender =>
    blind_argumentValues.bind fun values =>
    (blind_forEach fun _ => blind_forEach fun _ => blind_hold).bind fun _ =>
    (blind_request (r := .callHost _ _) rfl).bind fun outcome => ?_
  split
  · exact blind_pure
  · exact blind_warn.bind fun _ => blind_pure

theorem blind_dispatch {r : Relay} {slots : List Slot} : Blind (dispatch r slots) := by
  unfold dispatch
  dsimp only
  split
  · exact blind_deliver
  · exact blind_entry.bind fun _ => blind_warn.bind fun _ => blind_pure

theorem blind_react {reaction : Reaction} {slots : List Slot} : Blind (react reaction slots) := by
  cases reaction with
  | fixed reply => exact blind_pure
  | relay r =>
    exact .region <| blind_dispatch.bind fun _ => blind_store (fun _ _ => rfl) fun _ => blind_pure

theorem blind_runAll {slots : List Slot} {chosen : List ClosureId} {last : Option Slot} :
    Blind (runAll slots chosen last) := by
  induction chosen generalizing last with
  | nil => exact blind_pure
  | cons c rest ih =>
    refine blind_store (fun _ _ => rfl) fun s => ?_
    split
    · exact blind_react.bind fun _ => ih
    · exact blind_stop

theorem blind_emit {a : Address} {signal : String} {arguments : List Slot} :
    Blind (emit a signal arguments) :=
  .region <| blind_liveInstance.bind fun _ => (blind_forEach fun _ => blind_hold).bind fun _ =>
    blind_runAll

end Signal
end ObjectBridge
