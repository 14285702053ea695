import ObjectBridge.Proofs.BlindAccess
import ObjectBridge.Session.Respond
import ObjectBridge.Session.Function

/-!
# Steps are blind

What a step shows and does not depend on the switches, on the order of the ledger, or on the bodies
of functions.  The exceptions are the steps that are about these: they report switches, or give the
script a function.
-/

namespace ObjectBridge

open Program Descriptor Script

namespace Session

theorem blind_addressOf {label : Option String} : Blind (addressOf label) := by
  unfold addressOf
  split
  · exact blind_pure
  · refine blind_bench (fun _ _ _ => rfl) fun b =>
      blind_store (fun _ _ => rfl) fun s => ?_
    split
    · exact blind_pure
    · split
      · exact blind_pure
      · exact blind_stop

theorem blind_showAddress {a : Address} : Blind (showAddress a) :=
  blind_bench (fun _ _ _ => rfl) fun _ => blind_store (fun _ _ => rfl) fun _ => blind_pure

theorem blind_showAt {a : Address} {f : Memory → Program Report} (blind : ∀ m, (f m).Blind) :
    Blind (showAt a f) := by
  unfold showAt
  split
  · exact blind_pure
  · exact blind_memory.bind blind

theorem blind_showSlot {view : View} {slot : Slot} : Blind (showSlot view slot) := by
  cases view with
  | address => exact blind_showAddress
  | text => exact blind_showAt fun _ => blind_pure
  | texts => exact blind_showAt fun _ => blind_pure
  | box => exact blind_showAt fun _ => blind_showAddress.bind fun _ => blind_pure
  | elements s count => exact blind_showAt fun _ => blind_pure
  | _ => exact blind_pure

theorem blind_showSlots {views : List View} {slots : List Slot} :
    Blind (showSlots views slots) := by
  induction views generalizing slots with
  | nil => exact blind_pure
  | cons view views ih =>
    cases slots with
    | nil => exact blind_pure
    | cons slot slots => exact blind_showSlot.bind fun _ => ih.bind fun _ => blind_pure

theorem blind_slotOf {term : SlotTerm} : Blind (slotOf term) := by
  cases term with
  | address label => exact blind_addressOf.bind fun _ => blind_pure
  | text content => exact blind_placeText.bind fun _ => blind_pure
  | bytes content => exact blind_place.bind fun _ => blind_pure
  | texts content =>
    exact (blind_each fun _ => blind_placeText).bind fun _ =>
      blind_placeCells.bind fun _ => blind_pure
  | _ => exact blind_pure

theorem blind_entryOf {id : String} : Blind (entryOf id) := by
  refine blind_bench (fun _ _ _ => rfl) fun b => ?_
  split
  · exact blind_pure
  · exact blind_stop

theorem blind_showHandle {h : HandleId} : Blind (showHandle h) := by
  refine blind_handleRecord.bind fun r => ?_
  extract_lets showRest
  have last (type kind : Report) : Blind (do
      let label ← showAddress r.address
      let s ← store
      let references :=
        if s.isLive r.address then Report.nat (s.references r.address) else .none
      return Report.record [("handle", .record
        [("type", type), ("kind", kind),
          ("own", .option (fun attachment => .text attachment.ownership.name) r.attachment),
          ("ptr", label), ("refs", references)])]) :=
    blind_showAddress.bind fun _ => blind_store (fun _ _ => rfl) fun _ => blind_pure
  have rest (type : Report) : Blind (showRest type) := by
    simp only [showRest]
    split
    · exact blind_entry.bind fun _ => blind_pure.bind (last type)
    · exact blind_pure.bind (last type)
  split
  · exact Descriptor.blind_qualifiedName.bind fun _ => blind_pure.bind rest
  · exact blind_pure.bind rest

theorem blind_showValue {v : Value} : Blind (showValue v) := by
  cases v with
  | pointer a => exact blind_showAddress.bind fun _ => blind_pure
  | handle h => exact blind_showHandle
  | _ => exact blind_pure

theorem blind_change {f : Database → Token × Database} : Blind (change f) :=
  blind_database.bind fun _ => (blind_request rfl).bind fun _ => blind_pure

theorem blind_typeOf {term : TypeTerm} : Blind (typeOf term) := by
  induction term with
  | plain tag => exact blind_change
  | reference id => exact blind_entryOf.bind fun _ => blind_change
  | array element form zeroTerminated fixedSize lengthIndex ih =>
    exact ih.bind fun _ => blind_change
  | list tag element ih =>
    refine ih.bind fun part => ?_
    split
    · exact blind_change
    · exact blind_stop
  | existing id => exact blind_entryOf

theorem blind_describedType {term : TypeTerm} : Blind (describedType term) :=
  blind_typeOf.bind fun _ => blind_hold.bind fun _ => blind_pure

theorem blind_find {t : Token} {lookup : Lookup} {name : String} :
    Blind (find t lookup name) := by
  cases lookup with
  | enumValue => exact Member.blind_findEnumValue.bind fun _ => blind_pure
  | method => exact Member.blind_findMethod.bind fun _ => blind_pure
  | signal => exact Member.blind_findSignal.bind fun _ => blind_pure
  | property => exact Member.blind_findProperty.bind fun _ => blind_pure
  | field => exact Member.blind_findField.bind fun _ => blind_pure
  | member group => exact blind_member.bind fun _ => blind_pure

theorem blind_walkNames {stop : Option String} {limit : Nat} {t : Token} :
    Blind (walkNames stop limit t) := by
  induction limit generalizing t with
  | zero => exact blind_pure
  | succ limit ih =>
    refine blind_qualifiedName.bind fun name => blind_entry.bind fun e => ?_
    split
    · exact blind_pure
    · split
      · exact blind_pure
      · exact .region (blind_hold.bind fun _ => blind_trace.bind fun _ =>
          ih.bind fun _ => blind_pure)

theorem blind_showEntryReferences : Blind showEntryReferences :=
  blind_alike (fun s s' alike => by rw [alike.total]) fun _ => blind_pure

theorem blind_describeDescriptor {t : Token} : Blind (describeDescriptor t) := by
  refine Descriptor.blind_render.bind fun _ => blind_entry.bind fun _ =>
    blind_qualifiedName.bind fun _ => ?_
  refine (Blind.region (blind_declared.bind fun type => ?_)).bind fun _ => ?_
  · cases type with
    | some type => exact blind_qualifiedName.bind fun _ => blind_pure
    | none => exact blind_pure
  · exact (blind_each fun _ => blind_memberEntries).bind fun _ =>
      blind_showEntryReferences.bind fun _ => blind_pure

theorem blind_parameterReport {p : SignatureParameter} : Blind (parameterReport p) :=
  blind_qualifiedName.bind fun _ => blind_pure

theorem blind_signatureReport {s : Signature} : Blind (signatureReport s) := by
  refine (blind_each fun _ => blind_parameterReport).bind fun parameters => ?_
  split
  · exact blind_qualifiedName.bind fun _ => blind_pure.bind fun _ => blind_pure
  · exact blind_pure.bind fun _ => blind_pure

theorem blind_typeOf? {term : Option TypeTerm} : Blind (typeOf? term) := by
  cases term with
  | some term => exact blind_typeOf.bind fun _ => blind_pure
  | none => exact blind_pure

theorem blind_parametersOf {parameters : List (String × Passing × TypeTerm)} :
    Blind (parametersOf parameters) := by
  induction parameters with
  | nil => exact blind_pure
  | cons parameter rest ih => exact blind_typeOf.bind fun _ => ih.bind fun _ => blind_pure

theorem blind_entryReport {t : Option Token} : Blind (entryReport t) := by
  cases t with
  | none => exact blind_pure
  | some t => exact blind_entry.bind fun _ => blind_pure

theorem blind_reportEntry {p : Program (Option Token)} (blind : p.Blind) :
    Blind (reportEntry p) :=
  .region (blind.bind fun _ => blind_entryReport)

theorem blind_query {t : Token} {question : EntryQuery} :
    Bridge.Blind (query t question) := by
  refine .after blind_entry fun e => ?_
  cases question with
  | take | giveBack =>
    exact .after (blind_request rfl) fun _ => Bridge.blind_lift blind_showEntryReferences
  | member group index => exact Bridge.blind_lift (blind_reportEntry blind_take)
  | parent => exact Bridge.blind_lift (blind_reportEntry blind_parent)
  | target => exact Bridge.blind_lift (blind_reportEntry blind_target)
  | part index => exact Bridge.blind_lift (blind_reportEntry blind_part)
  | argument index => exact Bridge.blind_lift (blind_reportEntry blind_argument)
  | result => exact Bridge.blind_lift (blind_reportEntry blind_result)
  | declared => exact Bridge.blind_lift (blind_reportEntry blind_declared)
  | readField label view =>
    exact .after blind_addressOf fun _ =>
      (Bridge.blind_ofRuntime Runtime.blind_readField).bind fun _ =>
        Bridge.blind_lift blind_showSlot
  | writeField label term =>
    exact .after blind_addressOf fun _ => .after blind_slotOf fun _ =>
        (Bridge.blind_ofRuntime Runtime.blind_writeField).bind fun _ => Bridge.blind_pure
  | constantSlot view => exact Bridge.blind_lift blind_showSlot
  | _ => exact Bridge.blind_pure

theorem blind_queryCatalog {question : CatalogQuery} :
    Blind (queryCatalog question) := by
  refine blind_database.bind fun db => ?_
  cases question with
  | count home => exact blind_pure
  | position home index => exact blind_reportEntry blind_take
  | named home name => exact blind_reportEntry blind_take
  | numbered number => exact blind_reportEntry blind_take
  | valueBoxNumber => exact blind_pure

theorem blind_inspect {v : Value} : Blind (inspect v) :=
  blind_store (fun _ _ => rfl) fun _ => Value.blind_render.bind fun _ => blind_pure

theorem blind_boxReport {number : TypeNumber} {label : Option (Option String)} :
    Blind (boxReport number label) := by
  unfold boxReport
  split
  · exact blind_addressOf.bind fun _ => blind_pure.bind fun _ =>
      blind_showAddress.bind fun _ => blind_pure
  · exact blind_pure.bind fun _ => blind_showAddress.bind fun _ => blind_pure

theorem blind_linkNodes {previous : Address} {nodes : List (Address × Slot)} :
    Blind (linkNodes previous nodes) := by
  induction nodes generalizing previous with
  | nil => exact blind_pure
  | cons node rest ih => exact (blind_request rfl).bind fun _ => ih

theorem blind_labelNodes {label : String} {index : Nat} {nodes : List Address} :
    Blind (labelNodes label index nodes) := by
  induction nodes generalizing index with
  | nil => exact blind_pure
  | cons node rest ih => exact (blind_request rfl).bind fun _ => ih

theorem blind_nativeList {label : String} {items : List SlotTerm} :
    Blind (nativeList label items) :=
  (blind_each fun _ => blind_slotOf).bind fun _ =>
    (blind_each fun _ => blind_request rfl).bind fun _ => blind_linkNodes.bind fun _ =>
      blind_labelNodes.bind fun _ => blind_showAddress.bind fun _ => blind_pure

theorem blind_initialOf {initial : List (String × SlotTerm)} :
    Blind (initialOf initial) := by
  induction initial with
  | nil => exact blind_pure
  | cons property rest ih => exact blind_slotOf.bind fun _ => ih.bind fun _ => blind_pure

theorem blind_storeOutputs {terms : List (Nat × SlotTerm)} {slots : List Slot} :
    Blind (storeOutputs terms slots) := by
  induction terms generalizing slots with
  | nil => exact blind_pure
  | cons term rest ih => exact blind_slotOf.bind fun _ => ih

theorem blind_valueOf {term : ValueTerm} : Blind (valueOf term) := by
  match term with
  | .literal l => exact blind_pure
  | .pointer label => exact blind_addressOf.bind fun _ => blind_pure
  | .variable name =>
    refine blind_store (fun _ _ => rfl) fun s => ?_
    split
    · exact (blind_forEach fun _ => blind_hold).bind fun _ => blind_pure
    · exact blind_stop

theorem blind_argumentOf {term : ArgumentTerm} : Blind (argumentOf term) := by
  cases term with
  | value v | keyword name v => exact blind_valueOf.bind fun _ => blind_pure
  | symbol name | output name => exact blind_pure

theorem blind_handleOf {name : String} : Blind (handleOf name) := by
  refine blind_valueOf.bind fun v => ?_
  split
  · exact blind_pure
  · exact blind_stop

theorem blind_libraryOf {name : String} : Blind (libraryOf name) := by
  refine blind_valueOf.bind fun v => ?_
  split
  · exact blind_pure
  · exact blind_stop

theorem blind_makeInstance {type save : String} : Blind (makeInstance type save) :=
  .region <| blind_entryOf.bind fun _ => blind_hold.bind fun _ => blind_entry.bind fun _ =>
    (blind_request (r := .createDirect _) rfl).bind fun _ => Handle.blind_retained.bind fun _ =>
    (blind_request rfl).bind fun _ => (blind_request rfl).bind fun _ => blind_pure

theorem blind_makeHandle {mode : HandleMode} {type : Option TypeTerm} {label : Option String} :
    Blind (makeHandle mode type label) := by
  unfold makeHandle
  extract_lets rest
  have blind_rest (info : Option Token) : Blind (rest info) := by
    simp only [rest]
    cases mode with
    | unbound =>
      cases info with
      | some t => exact Handle.blind_unbound.bind fun _ => blind_pure
      | none => exact blind_stop
    | retained =>
      exact blind_addressOf.bind fun _ => Handle.blind_retained.bind fun _ => blind_pure
    | borrowed =>
      exact blind_addressOf.bind fun _ => Handle.blind_borrowed.bind fun _ => blind_pure
  split
  · exact blind_describedType.bind fun _ => blind_pure.bind blind_rest
  · exact blind_pure.bind blind_rest

theorem blind_constructDirect {number : TypeNumber} {initial : List Runtime.Initial} :
    Bridge.Blind (constructDirect number initial) :=
  .region <| (Bridge.blind_ofRuntime Runtime.blind_construct).bind fun _ =>
    .after (blind_request rfl) fun _ => Bridge.blind_pure

theorem blind_callRuntime {call : RuntimeCall} : Bridge.Blind (callRuntime call) := by
  cases call with
  | reference label | sink label =>
    exact .after blind_addressOf fun _ => .after (blind_request rfl) fun _ =>
      .after blind_liveInstance fun _ => Bridge.blind_pure
  | unreference label =>
    exact .after blind_addressOf fun _ => .after (blind_request rfl) fun _ =>
      Bridge.blind_store (fun _ _ => rfl) fun _ => Bridge.blind_pure
  | references label | isFloating label | numberOf label | connectionCount label =>
    exact .after blind_addressOf fun _ => .after blind_liveInstance fun _ => Bridge.blind_pure
  | isLive label =>
    exact .after blind_addressOf fun _ => Bridge.blind_store (fun _ _ => rfl) fun _ =>
      Bridge.blind_pure
  | typeName number | isA number ancestor =>
    exact .after blind_database fun _ => Bridge.blind_pure
  | construct number initial label =>
    refine .after blind_initialOf fun _ => blind_constructDirect.bind fun a => ?_
    cases label with
    | some name =>
      exact .after (blind_request rfl) fun _ => .after blind_liveInstance fun _ =>
        Bridge.blind_pure
    | none => exact .after blind_liveInstance fun _ => Bridge.blind_pure
  | readProperty label name view =>
    exact .after blind_addressOf fun _ =>
      (Bridge.blind_ofRuntime Runtime.blind_readProperty).bind fun _ =>
        Bridge.blind_lift blind_showSlot
  | writeProperty label name term =>
    exact .after blind_addressOf fun _ => .after blind_slotOf fun _ =>
      (Bridge.blind_ofRuntime Runtime.blind_writeProperty).bind fun _ => Bridge.blind_pure
  | storedProperty label name view =>
    refine .after blind_addressOf fun _ => .after Runtime.blind_storedProperty fun stored => ?_
    split
    · exact .after blind_showSlot fun _ => Bridge.blind_pure
    · exact Bridge.blind_pure
  | connect label signal term =>
    exact .after blind_addressOf fun _ => .after blind_slotOf fun _ =>
      (Bridge.blind_ofRuntime Signal.blind_attach).bind fun _ => Bridge.blind_pure

theorem blind_encodeStep {type : TypeTerm} {term : ValueTerm} {view : View} :
    Bridge.Blind (encodeStep type term view) :=
  .after blind_describedType fun _ => .after blind_valueOf fun _ =>
    Codec.blind_encode.bind fun _ => .after blind_showSlot fun _ => Bridge.blind_pure

theorem blind_present {save : Option String} {v : Value} : Blind (present save v) := by
  cases save with
  | some name => exact (blind_request rfl).bind fun _ => blind_showValue
  | none => exact blind_showValue

theorem blind_reportValue {save : Option String} {p : Bridge Value} (blind : Bridge.Blind p) :
    Bridge.Blind (reportValue save p) :=
  (Bridge.Blind.region blind).bind fun _ => Bridge.blind_lift blind_present

/-- A declaration that gives the script no function. -/
def functionless : Declaration Step → Bool
  | .function _ _ | .method _ _ => false
  | _ => true

theorem blind_declare {declaration : Declaration Step} (none : functionless declaration = true) :
    Blind (declare declaration) := by
  cases declaration with
  | object home name parent floating =>
    cases parent with
    | some id => exact blind_entryOf.bind fun _ => blind_pure.bind fun _ => blind_change
    | none => exact blind_pure.bind fun _ => blind_change
  | interface home name => exact blind_change (f := (·.addInterface home name))
  | callback home name => exact blind_change (f := (·.addCallback home name))
  | valueBox home name => exact blind_change (f := (·.addValueBox home name))
  | struct home name size => exact blind_change (f := (·.addStruct home name size))
  | boxed home name size number => exact blind_change (f := (·.addBoxed home name size number))
  | enum home name storage values => exact blind_change (f := (·.addEnum home name storage values))
  | flags home name storage values =>
    exact blind_change (f := (·.addFlags home name storage values))
  | type term => exact blind_typeOf
  | property owner name term flags =>
    exact blind_entryOf.bind fun _ => blind_typeOf.bind fun _ => blind_change
  | field owner name term offset =>
    exact blind_entryOf.bind fun _ => blind_typeOf.bind fun _ => blind_change
  | signal owner name arguments result =>
    exact blind_entryOf.bind fun _ => (blind_each fun _ => blind_typeOf).bind fun _ =>
      blind_typeOf.bind fun _ => blind_change
  | vfunc owner name => exact blind_entryOf.bind fun _ => blind_change
  | constant home name term slot =>
    exact blind_typeOf.bind fun _ => blind_slotOf.bind fun _ => blind_change
  | stringConstant home name text =>
    exact blind_change.bind fun _ => blind_placeText.bind fun _ => blind_change
  | function home c | method owner c => simp [functionless] at none

/-- A step that neither adds a function to the script nor reports switches. -/
def ordinary : Step → Bool
  | .declare _ _ | .define _ _ | .bridge | .setDiagnostics _ | .diagnostics => false
  | _ => true

/-- The answers to all steps but these are blind. -/
theorem blind_respond {step : Step} (other : ordinary step = true) :
    Bridge.Blind (respond step) := by
  cases step with
  | declareNamespace name version | declarePrivateNamespace directory name version =>
    exact .after blind_database fun _ => .after (blind_request rfl) fun _ => Bridge.blind_pure
  | newInstance type label =>
    exact .after blind_entryOf fun _ => .after blind_entry fun _ =>
      .after (blind_request (r := .createDirect _) rfl) fun _ =>
      .after (blind_request rfl) fun _ => Bridge.blind_pure
  | makeInstance type save => exact blind_reportValue (Bridge.blind_lift blind_makeInstance)
  | memory label bytes size =>
    exact .after (blind_request (r := .place _ _) rfl) fun _ => .after (blind_request rfl) fun _ =>
      Bridge.blind_pure
  | peek label view => exact .after blind_addressOf fun _ => Bridge.blind_lift blind_showSlot
  | nativeList label items => exact Bridge.blind_lift blind_nativeList
  | handle mode type label save => exact blind_reportValue (Bridge.blind_lift blind_makeHandle)
  | classHandle type save =>
    exact blind_reportValue <| .after blind_entryOf fun _ => .after blind_hold fun _ =>
      .after Handle.blind_unbound fun _ => Bridge.blind_pure
  | set term save => exact blind_reportValue (Bridge.blind_lift blind_valueOf)
  | drop name => exact .after (blind_request (r := .unbind name) rfl) fun _ => Bridge.blind_pure
  | «global» name save =>
    refine Bridge.blind_store (fun _ _ => rfl) fun s => ?_
    split
    · exact .after (blind_forEach fun _ => blind_hold) fun _ => Bridge.blind_lift blind_present
    · exact Bridge.blind_pure
  | dropGlobal name =>
    exact .after (blind_request (r := .dropGlobal name) rfl) fun _ => Bridge.blind_pure
  | counters =>
    refine Program.blind_alike (fun s s' alike => ?_) fun _ => blind_pure
    exact congrArg (fun t => (pure (.ok (totalsReport t)) : Program (Except Failure Report)))
      alike.totals
  | require name version save | requirePrivate directory name version save =>
    exact blind_reportValue Library.blind_load
  | searchPath | isLoaded name version | loadedVersion name | publicVersions name | loadedNames =>
    exact .after blind_database fun _ => Bridge.blind_pure
  | prependSearchPath directory =>
    exact .after blind_database fun _ => .after (blind_request rfl) fun _ => Bridge.blind_pure
  | requiredNamespaces => exact .after Library.blind_required fun _ => Bridge.blind_pure
  | libraryExtract on name save =>
    exact blind_reportValue <| .after blind_libraryOf fun _ => Library.blind_extract
  | libraryList on =>
    exact .after blind_libraryOf fun _ => .after Library.blind_list fun _ => Bridge.blind_pure
  | libraryText on =>
    exact .after blind_libraryOf fun _ => .after Library.blind_required fun _ => Bridge.blind_pure
  | extract on name save =>
    exact blind_reportValue <| .after blind_handleOf fun _ => Handle.blind_extract
  | get on name save => exact blind_reportValue <| .after blind_handleOf fun _ => Handle.blind_get
  | put on name term =>
    exact .after blind_handleOf fun _ => .after blind_valueOf fun _ =>
      Handle.blind_set.bind fun _ => Bridge.blind_pure
  | eval on terms save =>
    exact blind_reportValue <| .after blind_handleOf fun _ =>
      .after (blind_each fun _ => blind_argumentOf) fun _ => Handle.blind_eval
  | list on =>
    exact .after blind_handleOf fun _ => Listing.blind_ofHandle.bind fun _ => Bridge.blind_pure
  | text on =>
    exact .after blind_handleOf fun _ => .after Handle.blind_text fun _ => Bridge.blind_pure
  | debugText on =>
    exact .after blind_handleOf fun _ => .after Handle.blind_render fun _ => Bridge.blind_pure
  | same a b =>
    exact .after blind_handleOf fun _ => .after blind_handleOf fun _ =>
      Bridge.blind_store (fun _ _ => rfl) fun _ => Bridge.blind_pure
  | connect on name target data =>
    refine .after blind_handleOf fun h => ?_
    cases data with
    | some term =>
      exact .after blind_valueOf fun _ => Signal.blind_connect.bind fun _ => Bridge.blind_pure
    | none => exact Signal.blind_connect.bind fun _ => Bridge.blind_pure
  | emit label name terms =>
    exact .after blind_addressOf fun _ => .after (blind_each fun _ => blind_slotOf) fun _ =>
      .after Signal.blind_emit fun _ => Bridge.blind_pure
  | resolve type name =>
    exact .after blind_describedType fun _ => Member.blind_resolve.bind fun _ => Bridge.blind_pure
  | find type lookup name =>
    exact .after blind_describedType fun _ => Bridge.blind_lift blind_find
  | walk type stop =>
    exact .after blind_describedType fun _ => .after blind_walkNames fun _ => Bridge.blind_pure
  | describe type =>
    exact .after blind_describedType fun _ => .after Listing.blind_describe fun _ =>
      Bridge.blind_pure
  | descriptor type =>
    exact .after blind_describedType fun _ => Bridge.blind_lift blind_describeDescriptor
  | signature type =>
    exact .after blind_describedType fun _ => Signature.blind_ofCallable.bind fun _ =>
      Bridge.blind_lift blind_signatureReport
  | invoke type receiver terms save =>
    exact blind_reportValue <| .after blind_describedType fun _ => .after blind_addressOf fun _ =>
      .after (blind_each fun _ => blind_valueOf) fun _ => Call.blind_invoke
  | encode type term view => exact blind_encodeStep
  | decode type term save =>
    exact blind_reportValue <| .after blind_describedType fun _ => .after blind_slotOf fun _ =>
      Codec.blind_decode
  | roundtrip type term save =>
    exact blind_reportValue <| .after blind_describedType fun _ => .after blind_valueOf fun _ =>
      Codec.blind_encode.bind fun _ => Codec.blind_decode
  | query type question => exact .after blind_typeOf fun _ => blind_query
  | catalog question => exact Bridge.blind_lift blind_queryCatalog
  | runtime call => exact blind_callRuntime
  | inspect term => exact .after blind_valueOf fun _ => Bridge.blind_lift blind_inspect
  | equal a b =>
    exact .after blind_valueOf fun _ => .after blind_valueOf fun _ =>
      Bridge.blind_store (fun _ _ => rfl) fun _ => Bridge.blind_pure
  | slot term => exact .after blind_slotOf fun _ => Bridge.blind_pure
  | valueBox number label => exact Bridge.blind_lift blind_boxReport
  | entryKind kind | tag tag | memberGroup group | callableFlags a b | propertyFlags a b
  | environment entries => exact Bridge.blind_pure
  | raise failure => exact Bridge.blind_throw
  | declare _ _ | define _ _ | bridge | setDiagnostics _ | diagnostics => simp [ordinary] at other

theorem blind_emitFrom {inputs : List Slot} {e : Emission} : Blind (emitFrom inputs e) :=
  (blind_each fun _ => blind_slotOf).bind fun _ => Signal.blind_emit.bind fun _ =>
    blind_request rfl

theorem blind_resultOf {inputs : List Slot} {result : NativeResult} :
    Blind (resultOf inputs result) := by
  cases result with
  | input index | quotient dividend divisor => exact blind_pure
  | references index => exact blind_liveInstance.bind fun _ => blind_pure
  | fresh type label =>
    exact blind_entryOf.bind fun _ => blind_entry.bind fun _ =>
      (blind_request (r := .createDirect _) rfl).bind fun _ => (blind_request rfl).bind fun _ =>
      blind_pure
  | slot term => exact blind_slotOf

theorem blind_bindArguments {names : List String} {arguments : List Value} :
    Blind (bindArguments names arguments) := by
  induction names generalizing arguments with
  | nil => exact blind_pure
  | cons name names ih =>
    cases arguments with
    | nil => exact blind_pure
    | cons v vs => exact (blind_request rfl).bind fun _ => ih

theorem blind_unbindAll {names : List String} : Blind (unbindAll names) :=
  blind_forEach fun _ => (blind_request (r := .unbind _) rfl).bind fun _ => blind_pure

theorem blind_letGoAll {claims : List Claim} : Blind (forEach letGo claims) :=
  blind_forEach fun _ => blind_letGo

theorem blind_assignGlobal {name : String} {v : Value} : Blind (assignGlobal name v) :=
  blind_showValue.bind fun _ => (blind_request rfl).bind fun _ => blind_request rfl

end Session
end ObjectBridge
