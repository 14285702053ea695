import ObjectBridge.Library
import ObjectBridge.Proofs.Encoding
import ObjectBridge.Session.Direct
import ObjectBridge.Session.Function
import ObjectBridge.Session.Inspect
import ObjectBridge.Session.Make
import ObjectBridge.Session.Query

/-!
# Showing and declaring is reading

What a session shows, what it declares and what it asks the type database directly is found by
reading.  Only two questions are not: the ones that take a reference to an entry for the session
itself, and give it back.
-/

namespace ObjectBridge

open Program Descriptor

namespace Library

theorem reading_required : Reading required :=
  (reading_request rfl).bind fun _ => reading_pure

theorem reading_list {library : String} : Reading (list library) :=
  reading_database.bind fun _ => .region <| reading_each fun _ =>
    reading_holdEntry.bind fun _ => reading_entry

end Library

namespace Session

theorem reading_addressOf {label : Option String} : Reading (addressOf label) := by
  unfold addressOf
  split
  · exact reading_pure
  · refine reading_bench.bind fun b => reading_store.bind fun s => ?_
    split
    · exact reading_pure
    · split
      · exact reading_pure
      · exact reading_stop

theorem reading_showAddress {a : Address} : Reading (showAddress a) :=
  reading_bench.bind fun _ => reading_store.bind fun _ => reading_pure

theorem reading_showAt {a : Address} {f : Memory → Program Report} (reading : ∀ m, (f m).Reading) :
    Reading (showAt a f) := by
  unfold showAt
  split
  · exact reading_pure
  · exact reading_memory.bind reading

theorem reading_showSlot {view : Script.View} {slot : Slot} : Reading (showSlot view slot) := by
  cases view with
  | address => exact reading_showAddress
  | text => exact reading_showAt fun _ => reading_pure
  | texts => exact reading_showAt fun _ => reading_pure
  | box => exact reading_showAt fun _ => reading_showAddress.bind fun _ => reading_pure
  | elements s count => exact reading_showAt fun _ => reading_pure
  | _ => exact reading_pure

theorem reading_showSlots {views : List Script.View} {slots : List Slot} :
    Reading (showSlots views slots) := by
  induction views generalizing slots with
  | nil => exact reading_pure
  | cons view views ih =>
    cases slots with
    | nil => exact reading_pure
    | cons slot slots => exact reading_showSlot.bind fun _ => ih.bind fun _ => reading_pure

theorem reading_slotOf {term : Script.SlotTerm} : Reading (slotOf term) := by
  cases term with
  | address label => exact reading_addressOf.bind fun _ => reading_pure
  | text content => exact reading_placeText.bind fun _ => reading_pure
  | bytes content => exact reading_place.bind fun _ => reading_pure
  | texts content =>
    exact (reading_each fun _ => reading_placeText).bind fun _ =>
      reading_placeCells.bind fun _ => reading_pure
  | _ => exact reading_pure

theorem reading_entryOf {id : String} : Reading (entryOf id) := by
  refine reading_bench.bind fun b => ?_
  split
  · exact reading_pure
  · exact reading_stop

theorem reading_showHandle {h : HandleId} : Reading (showHandle h) := by
  refine reading_handleRecord.bind fun r => ?_
  extract_lets showRest
  have last (type kind : Report) : Reading (do
      let label ← showAddress r.address
      let s ← store
      let references :=
        if s.isLive r.address then Report.nat (s.references r.address) else .none
      return Report.record [("handle", .record
        [("type", type), ("kind", kind),
          ("own", .option (fun attachment => .text attachment.ownership.name) r.attachment),
          ("ptr", label), ("refs", references)])]) :=
    reading_showAddress.bind fun _ => reading_store.bind fun _ => reading_pure
  have rest (type : Report) : Reading (showRest type) := by
    simp only [showRest]
    split
    · exact reading_entry.bind fun _ => reading_pure.bind (last type)
    · exact reading_pure.bind (last type)
  split
  · exact Descriptor.reading_qualifiedName.bind fun _ => reading_pure.bind rest
  · exact reading_pure.bind rest

theorem reading_showValue {v : Value} : Reading (showValue v) := by
  cases v with
  | pointer a => exact reading_showAddress.bind fun _ => reading_pure
  | handle h => exact reading_showHandle
  | _ => exact reading_pure

theorem reading_change {f : Database → Token × Database} : Reading (change f) :=
  reading_database.bind fun _ => (reading_request rfl).bind fun _ => reading_pure

theorem reading_typeOf {term : Script.TypeTerm} : Reading (typeOf term) := by
  induction term with
  | plain tag => exact reading_change
  | reference id => exact reading_entryOf.bind fun _ => reading_change
  | array element form zeroTerminated fixedSize lengthIndex ih =>
    exact ih.bind fun _ => reading_change
  | list tag element ih =>
    refine ih.bind fun part => ?_
    split
    · exact reading_change
    · exact reading_stop
  | existing id => exact reading_entryOf

theorem reading_describedType {term : Script.TypeTerm} : Reading (describedType term) :=
  reading_typeOf.bind fun _ => reading_holdEntry.bind fun _ => reading_pure

theorem reading_find {t : Token} {lookup : Script.Lookup} {name : String} :
    Reading (find t lookup name) := by
  cases lookup with
  | enumValue => exact Member.reading_findEnumValue.bind fun _ => reading_pure
  | method => exact Member.reading_findMethod.bind fun _ => reading_pure
  | signal => exact Member.reading_findSignal.bind fun _ => reading_pure
  | property => exact Member.reading_findProperty.bind fun _ => reading_pure
  | field => exact Member.reading_findField.bind fun _ => reading_pure
  | member group => exact reading_member.bind fun _ => reading_pure

theorem reading_walkNames {stop : Option String} {limit : Nat} {t : Token} :
    Reading (walkNames stop limit t) := by
  induction limit generalizing t with
  | zero => exact reading_pure
  | succ limit ih =>
    refine reading_qualifiedName.bind fun name => reading_entry.bind fun e => ?_
    split
    · exact reading_pure
    · split
      · exact reading_pure
      · exact .region (reading_holdEntry.bind fun _ => reading_trace.bind fun _ =>
          ih.bind fun _ => reading_pure)

theorem reading_showEntryReferences : Reading showEntryReferences :=
  reading_store.bind fun _ => reading_pure

theorem reading_describeDescriptor {t : Token} : Reading (describeDescriptor t) := by
  refine Descriptor.reading_render.bind fun _ => reading_entry.bind fun _ =>
    reading_qualifiedName.bind fun _ => ?_
  refine (Reading.region (reading_declared.bind fun type => ?_)).bind fun _ => ?_
  · cases type with
    | some type => exact reading_qualifiedName.bind fun _ => reading_pure
    | none => exact reading_pure
  · exact (reading_each fun _ => reading_memberEntries).bind fun _ =>
      reading_showEntryReferences.bind fun _ => reading_pure

theorem reading_parameterReport {p : SignatureParameter} : Reading (parameterReport p) :=
  reading_qualifiedName.bind fun _ => reading_pure

theorem reading_signatureReport {s : Signature} : Reading (signatureReport s) := by
  refine (reading_each fun _ => reading_parameterReport).bind fun parameters => ?_
  split
  · exact reading_qualifiedName.bind fun _ => reading_pure.bind fun _ => reading_pure
  · exact reading_pure.bind fun _ => reading_pure

theorem reading_typeOf? {term : Option Script.TypeTerm} : Reading (typeOf? term) := by
  cases term with
  | some term => exact reading_typeOf.bind fun _ => reading_pure
  | none => exact reading_pure

theorem reading_parametersOf {parameters : List (String × Passing × Script.TypeTerm)} :
    Reading (parametersOf parameters) := by
  induction parameters with
  | nil => exact reading_pure
  | cons parameter rest ih => exact reading_typeOf.bind fun _ => ih.bind fun _ => reading_pure

theorem reading_declareCallable {c : Script.CallableTerm Script.Step} {usual : FlagSet}
    {add : Database → FlagSet → List Database.Parameter → Option Token → Token × Database} :
    Reading (declareCallable c usual add) := by
  refine reading_parametersOf.bind fun parameters => reading_typeOf?.bind fun result =>
    reading_change.bind fun t => ?_
  split
  · exact (reading_request rfl).bind fun _ => reading_pure
  · exact reading_pure.bind fun _ => reading_pure

theorem reading_declare {declaration : Script.Declaration Script.Step} :
    Reading (declare declaration) := by
  cases declaration with
  | object home name parent floating =>
    cases parent with
    | some id => exact reading_entryOf.bind fun _ => reading_pure.bind fun _ => reading_change
    | none => exact reading_pure.bind fun _ => reading_change
  | interface home name => exact reading_change (f := (·.addInterface home name))
  | callback home name => exact reading_change (f := (·.addCallback home name))
  | valueBox home name => exact reading_change (f := (·.addValueBox home name))
  | struct home name size => exact reading_change (f := (·.addStruct home name size))
  | boxed home name size number => exact reading_change (f := (·.addBoxed home name size number))
  | enum home name storage values => exact reading_change (f := (·.addEnum home name storage values))
  | flags home name storage values => exact reading_change (f := (·.addFlags home name storage values))
  | type term => exact reading_typeOf
  | property owner name term flags =>
    exact reading_entryOf.bind fun _ => reading_typeOf.bind fun _ => reading_change
  | field owner name term offset =>
    exact reading_entryOf.bind fun _ => reading_typeOf.bind fun _ => reading_change
  | signal owner name arguments result =>
    exact reading_entryOf.bind fun _ => (reading_each fun _ => reading_typeOf).bind fun _ =>
      reading_typeOf.bind fun _ => reading_change
  | vfunc owner name => exact reading_entryOf.bind fun _ => reading_change
  | constant home name term slot =>
    exact reading_typeOf.bind fun _ => reading_slotOf.bind fun _ => reading_change
  | stringConstant home name text =>
    exact reading_change.bind fun _ => reading_placeText.bind fun _ => reading_change
  | function home c => exact reading_declareCallable
  | method owner c => exact reading_entryOf.bind fun _ => reading_declareCallable

theorem reading_entryReport {t : Option Token} : Reading (entryReport t) := by
  cases t with
  | none => exact reading_pure
  | some t => exact reading_entry.bind fun _ => reading_pure

theorem reading_reportEntry {p : Program (Option Token)} (reading : p.Reading) :
    Reading (reportEntry p) :=
  .region (reading.bind fun _ => reading_entryReport)

/-- Every question about an entry is answered by reading, but for the two that count a reference for
the session itself. -/
theorem reading_query {t : Token} {question : Script.EntryQuery} (passing : question ≠ .take)
    (keeping : question ≠ .giveBack) : Bridge.Reading (query t question) := by
  refine (Bridge.reading_lift reading_entry).bind fun e => ?_
  cases question with
  | take => exact absurd rfl passing
  | giveBack => exact absurd rfl keeping
  | member group index => exact Bridge.reading_lift (reading_reportEntry reading_take)
  | parent => exact Bridge.reading_lift (reading_reportEntry reading_parent)
  | target => exact Bridge.reading_lift (reading_reportEntry reading_target)
  | part index => exact Bridge.reading_lift (reading_reportEntry reading_part)
  | argument index => exact Bridge.reading_lift (reading_reportEntry reading_argument)
  | result => exact Bridge.reading_lift (reading_reportEntry reading_result)
  | declared => exact Bridge.reading_lift (reading_reportEntry reading_declared)
  | readField label view =>
    exact (Bridge.reading_lift reading_addressOf).bind fun _ =>
      (Bridge.reading_ofRuntime Runtime.reading_readField).bind fun _ =>
        Bridge.reading_lift reading_showSlot
  | writeField label term =>
    exact (Bridge.reading_lift reading_addressOf).bind fun _ =>
      (Bridge.reading_lift reading_slotOf).bind fun _ =>
        (Bridge.reading_ofRuntime Runtime.reading_writeField).bind fun _ => Bridge.reading_pure
  | constantSlot view => exact Bridge.reading_lift reading_showSlot
  | _ => exact Bridge.reading_pure

theorem reading_queryCatalog {question : Script.CatalogQuery} :
    Reading (queryCatalog question) := by
  refine reading_database.bind fun db => ?_
  cases question with
  | count home => exact reading_pure
  | position home index => exact reading_reportEntry reading_take
  | named home name => exact reading_reportEntry reading_take
  | numbered number => exact reading_reportEntry reading_take
  | valueBoxNumber => exact reading_pure

theorem reading_inspect {v : Value} : Reading (inspect v) :=
  reading_store.bind fun _ => Value.reading_render.bind fun _ => reading_pure

theorem reading_boxReport {number : TypeNumber} {label : Option (Option String)} :
    Reading (boxReport number label) := by
  unfold boxReport
  split
  · exact reading_addressOf.bind fun _ => reading_pure.bind fun _ =>
      reading_showAddress.bind fun _ => reading_pure
  · exact reading_pure.bind fun _ => reading_showAddress.bind fun _ => reading_pure

theorem reading_bridgeText : Reading bridgeText :=
  (reading_request rfl).bind fun _ => Library.reading_required.bind fun _ => reading_pure

theorem reading_linkNodes {previous : Address} {nodes : List (Address × Slot)} :
    Reading (linkNodes previous nodes) := by
  induction nodes generalizing previous with
  | nil => exact reading_pure
  | cons node rest ih => exact (reading_request rfl).bind fun _ => ih

theorem reading_labelNodes {label : String} {index : Nat} {nodes : List Address} :
    Reading (labelNodes label index nodes) := by
  induction nodes generalizing index with
  | nil => exact reading_pure
  | cons node rest ih => exact (reading_request rfl).bind fun _ => ih

theorem reading_nativeList {label : String} {items : List Script.SlotTerm} :
    Reading (nativeList label items) :=
  (reading_each fun _ => reading_slotOf).bind fun _ =>
    (reading_each fun _ => reading_request rfl).bind fun _ => reading_linkNodes.bind fun _ =>
      reading_labelNodes.bind fun _ => reading_showAddress.bind fun _ => reading_pure

theorem reading_initialOf {initial : List (String × Script.SlotTerm)} :
    Reading (initialOf initial) := by
  induction initial with
  | nil => exact reading_pure
  | cons property rest ih => exact reading_slotOf.bind fun _ => ih.bind fun _ => reading_pure

theorem reading_storeOutputs {terms : List (Nat × Script.SlotTerm)} {slots : List Slot} :
    Reading (storeOutputs terms slots) := by
  induction terms generalizing slots with
  | nil => exact reading_pure
  | cons term rest ih => exact reading_slotOf.bind fun _ => ih

end Session

theorem Listing.reading_ofHandle {h : HandleId} : Bridge.Reading (ofHandle h) := by
  refine (Bridge.reading_lift reading_handleRecord).bind fun r => Handle.reading_typed.bind fun info =>
    (Bridge.reading_lift reading_describe).bind fun listing => ?_
  split
  · exact Bridge.reading_pure
  · refine (Bridge.reading_lift reading_store).bind fun s => ?_
    extract_lets rest
    split
    · exact (Bridge.reading_lift reading_liveInstance).bind fun _ =>
        (Bridge.reading_lift reading_database).bind fun _ => Bridge.reading_pure.bind fun _ =>
          Bridge.reading_pure
    · exact Bridge.reading_pure.bind fun _ => Bridge.reading_pure

end ObjectBridge
