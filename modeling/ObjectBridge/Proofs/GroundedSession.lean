import ObjectBridge.Proofs.GroundedAccess
import ObjectBridge.Session.Respond
import ObjectBridge.Session.Function

/-!
# Sessions are grounded

A session names entries by their identifiers, and gives an identifier only to an entry that it made.
So every step of a session is grounded, whatever it asks of the bridge, and so are the scripts of
its native functions and of its host functions.
-/

namespace ObjectBridge

open Program Descriptor Script

variable {db : Database} {t : Token} {name : String}

namespace Session

/-! ### Terms -/

theorem looks_addressOf {label : Option String} : Looks (fun _ => True) (addressOf label) db := by
  unfold addressOf
  split
  · exact looks_pure trivial
  · refine looks_bench.bind fun b _ => looks_store.bind fun s _ => ?_
    split
    · exact looks_pure trivial
    · split
      · exact looks_pure trivial
      · exact looks_stop fun _ same => nomatch same

theorem looks_showAddress {a : Address} : Looks (fun _ => True) (showAddress a) db :=
  looks_bench.bind fun _ _ => looks_store.bind fun _ _ => looks_pure trivial

theorem looks_showAt {a : Address} {f : Memory → Program Report}
    (looks : ∀ m, (f m).Looks (fun _ => True) db) : Looks (fun _ => True) (showAt a f) db := by
  unfold showAt
  split
  · exact looks_pure trivial
  · exact looks_memory.bind fun m _ => looks m

theorem looks_showSlot {view : View} {slot : Slot} :
    Looks (fun _ => True) (showSlot view slot) db := by
  cases view with
  | address => exact looks_showAddress
  | text => exact looks_showAt fun _ => looks_pure trivial
  | texts => exact looks_showAt fun _ => looks_pure trivial
  | box => exact looks_showAt fun _ => looks_showAddress.bind fun _ _ => looks_pure trivial
  | elements s count => exact looks_showAt fun _ => looks_pure trivial
  | _ => exact looks_pure trivial

theorem looks_showSlots {views : List View} {slots : List Slot} :
    Looks (fun _ => True) (showSlots views slots) db := by
  induction views generalizing slots with
  | nil => exact looks_pure trivial
  | cons view views ih =>
    cases slots with
    | nil => exact looks_pure trivial
    | cons slot slots =>
      exact looks_showSlot.bind fun _ _ => ih.bind fun _ _ => looks_pure trivial

theorem looks_slotOf {term : SlotTerm} : Looks (fun _ => True) (slotOf term) db := by
  cases term with
  | address label => exact looks_addressOf.bind fun _ _ => looks_pure trivial
  | text content => exact looks_placeText.bind fun _ _ => looks_pure trivial
  | bytes content => exact looks_place.bind fun _ _ => looks_pure trivial
  | texts content =>
    exact (looks_each fun _ _ => looks_placeText).bind fun _ _ =>
      looks_placeCells.bind fun _ _ => looks_pure trivial
  | _ => exact looks_pure trivial

theorem looks_valueOf {term : ValueTerm} : Looks (fun _ => True) (valueOf term) db := by
  match term with
  | .literal l => exact looks_pure trivial
  | .pointer label => exact looks_addressOf.bind fun _ _ => looks_pure trivial
  | .variable name =>
    refine looks_store.bind fun s _ => ?_
    split
    · exact (looks_forEach fun c claimed => looks_hold (Database.knows_value c claimed)).bind
        fun _ _ => looks_pure trivial
    · exact looks_stop fun _ same => nomatch same

theorem looks_argumentOf {term : ArgumentTerm} : Looks (fun _ => True) (argumentOf term) db := by
  cases term with
  | value v | keyword name v => exact looks_valueOf.bind fun _ _ => looks_pure trivial
  | symbol name | output name => exact looks_pure trivial

theorem looks_handleOf : Looks (fun _ => True) (handleOf name) db := by
  refine looks_valueOf.bind fun v _ => ?_
  split
  · exact looks_pure trivial
  · exact looks_stop fun _ same => nomatch same

theorem looks_libraryOf : Looks (fun _ => True) (libraryOf name) db := by
  refine looks_valueOf.bind fun v _ => ?_
  split
  · exact looks_pure trivial
  · exact looks_stop fun _ same => nomatch same

/-- What is identified is an entry. -/
theorem looks_entryOf {id : String} : Looks db.Has (entryOf id) db := by
  refine looks_bench.bind fun b grounded => ?_
  split
  · next t identified =>
    obtain ⟨front, back, listed, _⟩ := List.lookup_eq_some_iff.mp identified
    exact looks_pure (grounded (id, t) (listed ▸ List.mem_append_right front List.mem_cons_self))
  · exact looks_stop fun _ same => nomatch same

section Linked

variable (linked : db.Linked)
include linked

theorem looks_showHandle {h : HandleId} : Looks (fun _ => True) (showHandle h) db := by
  refine looks_handleRecord.bind fun r typed => ?_
  extract_lets showRest
  have last (type kind : Report) : Looks (fun _ => True) (do
      let label ← showAddress r.address
      let s ← store
      let references :=
        if s.isLive r.address then Report.nat (s.references r.address) else .none
      return Report.record [("handle", .record
        [("type", type), ("kind", kind),
          ("own", .option (fun attachment => .text attachment.ownership.name) r.attachment),
          ("ptr", label), ("refs", references)])]) db :=
    looks_showAddress.bind fun _ _ => looks_store.bind fun _ _ => looks_pure trivial
  have rest (type : Report) : Looks (fun _ => True) (showRest type) db := by
    simp only [showRest]
    split
    · next info named =>
      exact (looks_entry (typed info named)).bind fun e _ => last type (.text e.kind.name)
    · exact last type .none
  split
  · next info named =>
    exact (Descriptor.looks_qualifiedName linked (typed info named)).bind fun shown _ =>
      rest (.text shown)
  · exact rest .none

theorem looks_showValue {v : Value} : Looks (fun _ => True) (showValue v) db := by
  cases v with
  | pointer a => exact looks_showAddress.bind fun _ _ => looks_pure trivial
  | handle h => exact looks_showHandle linked
  | _ => exact looks_pure trivial

end Linked

/-! ### Declarations -/

/-- A call of a builder gives an entry. -/
theorem grounded_change {f : Database → Token × Database} (sound : db.Sound)
    (call : db.Builds (f db)) : Program.Grounded Database.Has (change f) db := by
  refine looks_database.next fun found same => ?_
  cases same
  have edit : Request.Grounded db (.setDatabase (f db).2) := (Database.Edits.build call).edited
  refine (grounded_request edit).bind fun _ later _ ⟨leads, _⟩ => ?_
  cases leads
  exact grounded_pure (call.grown sound).has

/-- The panic of a list type that is none is no panic of an unknown token. -/
theorem not_a_list (tag : Tag) (u : Token) :
    Stop.panicked (tag.name ++ " is not a list tag") ≠ .unknownEntry u := by
  intro same
  have letters := congrArg (fun text : String => text.toList.take 3) (Stop.panicked.inj same)
  cases tag <;> simp [Tag.name, String.toList_append] at letters

theorem grounded_typeOf {term : TypeTerm} (sound : db.Sound) :
    Program.Grounded Database.Has (typeOf term) db := by
  induction term with
  | plain tag =>
    exact grounded_change sound (.type (List.forall_mem_nil _))
  | reference id =>
    exact looks_entryOf.next fun target known => grounded_change sound
      (.type known.alone)
  | array element form zeroTerminated fixedSize lengthIndex ih =>
    exact ih.bind fun part later edited known => grounded_change (edited.sound sound)
      (.type known.alone)
  | list tag element ih =>
    refine ih.bind fun part later edited known => ?_
    split
    · exact grounded_change (edited.sound sound)
        (.type known.alone)
    · exact grounded_stop (not_a_list tag)
  | existing id => exact looks_entryOf.grounded fun _ known => known

theorem grounded_typeOf? {term : Option TypeTerm} (sound : db.Sound) :
    Program.Grounded (fun later r => ∀ t, r = some t → later.Has t) (typeOf? term) db := by
  cases term with
  | some term =>
    exact (grounded_typeOf sound).bind fun t _ _ known =>
      grounded_pure fun _ same => Option.some.inj same ▸ known
  | none => exact grounded_pure fun _ impossible => nomatch impossible

theorem grounded_parametersOf {parameters : List (String × Passing × TypeTerm)}
    (sound : db.Sound) :
    Program.Grounded (fun later ps => ∀ p ∈ ps, later.Has p.type) (parametersOf parameters) db := by
  induction parameters generalizing db with
  | nil => exact grounded_pure (List.forall_mem_nil _)
  | cons parameter rest ih =>
    refine (grounded_typeOf sound).bind fun type later edited known => ?_
    refine (ih (edited.sound sound)).bind fun others last further rest => grounded_pure ?_
    exact List.forall_mem_cons.mpr ⟨further.has (edited.sound sound) known, rest⟩

/-- The builder of a callable is given the types that were made for it. -/
theorem grounded_declareCallable {c : CallableTerm Step} {usual : FlagSet}
    {add : Database → FlagSet → List Database.Parameter → Option Token → Token × Database}
    (sound : db.Sound)
    (call : ∀ later, db.Edited later → ∀ flags parameters result,
      (∀ p ∈ parameters, later.Has p.type) → (∀ t, result = some t → later.Has t) →
        later.Builds (add later flags parameters result)) :
    Program.Grounded Database.Has (declareCallable c usual add) db := by
  refine (grounded_parametersOf sound).bind fun parameters first edited known => ?_
  have sound₁ := edited.sound sound
  refine (grounded_typeOf? sound₁).bind fun result second further answer => ?_
  have sound₂ := further.sound sound₁
  have types : ∀ p ∈ parameters, second.Has p.type := fun p member =>
    further.has sound₁ (known p member)
  refine (grounded_change sound₂ (call second (edited.trans further) _ parameters result types
    answer)).bind fun t third made there => ?_
  split
  · next native _ =>
    have implemented : Request.Grounded third (.implement t native) := there.alone
    exact (looks_request implemented fun _ leads => leads).next fun _ _ => grounded_pure there
  · exact grounded_pure there

theorem grounded_declare {declaration : Declaration Step} (sound : db.Sound) :
    Program.Grounded Database.Has (declare declaration) db := by
  cases declaration with
  | object home name parent floating =>
    have added (known : Option Token) (has : ∀ t, known = some t → db.Has t) :
        Program.Grounded Database.Has (change (·.addObject home name known floating)) db :=
      grounded_change (f := (·.addObject home name known floating)) sound
        (.object home name floating has)
    cases parent with
    | some id =>
      exact looks_entryOf.next fun p known => added (some p) fun _ same =>
        Option.some.inj same ▸ known
    | none => exact added none fun _ impossible => nomatch impossible
  | interface home name =>
    exact grounded_change (f := (·.addInterface home name)) sound (.interface home name)
  | callback home name =>
    exact grounded_change (f := (·.addCallback home name)) sound (.callback home name)
  | valueBox home name =>
    exact grounded_change (f := (·.addValueBox home name)) sound (.valueBox home name)
  | struct home name size =>
    exact grounded_change (f := (·.addStruct home name size)) sound (.struct home name size)
  | boxed home name size number =>
    exact grounded_change (f := (·.addBoxed home name size number)) sound
      (.boxed home name size number)
  | enum home name storage values =>
    exact grounded_change (f := (·.addEnum home name storage values)) sound
      (.enum home name storage values)
  | flags home name storage values =>
    exact grounded_change (f := (·.addFlags home name storage values)) sound
      (.flags home name storage values)
  | type term => exact grounded_typeOf sound
  | property owner name term flags =>
    exact looks_entryOf.next fun o own => (grounded_typeOf sound).bind fun type _ edited known =>
      grounded_change (edited.sound sound) (.property name flags (edited.has sound own) known)
  | field owner name term offset =>
    exact looks_entryOf.next fun o own => (grounded_typeOf sound).bind fun type _ edited known =>
      grounded_change (edited.sound sound) (.field name offset (edited.has sound own) known)
  | signal owner name arguments result =>
    refine looks_entryOf.next fun o own => ?_
    have made : Program.Grounded (fun later ts => ∀ t ∈ ts, later.Has t)
        (each typeOf arguments) db :=
      grounded_each sound fun _ _ _ edited => grounded_typeOf (edited.sound sound)
    refine made.bind fun types first edited known => ?_
    have sound₁ := edited.sound sound
    refine (grounded_typeOf sound₁).bind fun answer second further there => ?_
    exact grounded_change (further.sound sound₁) (.signal name
      (further.has sound₁ (edited.has sound own))
      (fun t member => further.has sound₁ (known t member)) there)
  | vfunc owner name =>
    exact looks_entryOf.next fun o own => grounded_change sound (.vfunc name own)
  | constant home name term slot =>
    exact (grounded_typeOf sound).bind fun type later edited known => looks_slotOf.next fun s _ =>
      grounded_change (edited.sound sound) (.constant home name s known)
  | stringConstant home name text =>
    have plain : db.Builds (db.addType (.plain .utf8)) :=
      .type (List.forall_mem_nil _)
    exact (grounded_change (f := (·.addType (.plain .utf8))) sound plain).bind
      fun type later edited known => looks_placeText.next fun a _ =>
        grounded_change (edited.sound sound) (.constant home name (.ofAddress a) known)
  | function home c =>
    exact grounded_declareCallable sound fun _ _ flags _ _ known answer =>
      .function home c.name flags known answer
  | method owner c =>
    exact looks_entryOf.next fun o own => grounded_declareCallable sound
      fun _ edited flags _ _ known answer =>
        .method c.name flags (edited.has sound own) known answer

theorem grounded_describedType {term : TypeTerm} (sound : db.Sound) :
    Program.Grounded Database.Has (describedType term) db :=
  (grounded_typeOf sound).bind fun _ _ _ known =>
    (looks_hold (Database.knows_entry known)).next fun _ _ => grounded_pure known

/-! ### Answers about types -/

section Linked

variable (linked : db.Linked)
include linked

theorem looks_find {lookup : Lookup} (known : db.Has t) :
    Looks (fun _ => True) (find t lookup name) db := by
  cases lookup with
  | enumValue =>
    exact (Member.looks_findEnumValue linked known).bind fun _ _ => looks_pure trivial
  | method => exact (Member.looks_findMethod linked known).bind fun _ _ => looks_pure trivial
  | signal => exact (Member.looks_findSignal linked known).bind fun _ _ => looks_pure trivial
  | property => exact (Member.looks_findProperty linked known).bind fun _ _ => looks_pure trivial
  | field => exact (Member.looks_findField linked known).bind fun _ _ => looks_pure trivial
  | member group => exact (looks_member linked known).bind fun _ _ => looks_pure trivial

theorem looks_walkNames {halt : Option String} {limit : Nat} (known : db.Has t) :
    Looks (fun _ => True) (walkNames halt limit t) db := by
  induction limit generalizing t with
  | zero => exact looks_pure trivial
  | succ limit ih =>
    refine (looks_qualifiedName linked known).bind fun name _ =>
      (looks_entry known).bind fun e found => ?_
    split
    · exact looks_pure trivial
    · split
      · exact looks_pure trivial
      · next parent up =>
        have there : db.Has parent := linked.has_link found (by simp [Entry.links, up])
        refine Looks.region ((looks_hold (Database.knows_entry there)).bind fun _ _ => ?_)
        exact (looks_trace there.alone).bind fun _ _ =>
          (ih there).bind fun _ _ => looks_pure trivial

omit linked in
theorem looks_showEntryReferences : Looks (fun _ => True) showEntryReferences db :=
  looks_store.bind fun _ _ => looks_pure trivial

theorem looks_describeDescriptor (known : db.Has t) :
    Looks (fun _ => True) (describeDescriptor t) db := by
  refine (Descriptor.looks_render linked known).bind fun _ _ => (looks_entry known).bind fun _ _ =>
    (looks_qualifiedName linked known).bind fun _ _ => ?_
  refine Looks.seq (Looks.region ((looks_declared linked known).bind fun type there => ?_))
    fun _ => ?_
  · cases type with
    | some type =>
      exact (looks_qualifiedName linked (there type rfl)).bind fun _ _ => looks_pure trivial
    | none => exact looks_pure trivial
  · exact (looks_each fun _ _ => looks_memberEntries linked known).bind fun _ _ =>
      looks_showEntryReferences.bind fun _ _ => looks_pure trivial

theorem looks_parameterReport {p : SignatureParameter} (known : db.Has p.type) :
    Looks (fun _ => True) (parameterReport p) db :=
  (looks_qualifiedName linked known).bind fun _ _ => looks_pure trivial

theorem looks_signatureReport {s : Signature} (known : s.Grounded db) :
    Looks (fun _ => True) (signatureReport s) db := by
  refine (looks_each fun p member =>
    looks_parameterReport linked (known.parameters p member)).bind fun parameters _ => ?_
  split
  · next type answers =>
    exact (looks_qualifiedName linked (known.result type answers)).bind fun _ _ =>
      looks_pure trivial
  · exact looks_pure trivial

omit linked in
theorem looks_entryReport {found : Option Token} (known : ∀ u ∈ found, db.Has u) :
    Looks (fun _ => True) (entryReport found) db := by
  cases found with
  | none => exact looks_pure trivial
  | some t => exact (looks_entry (known t rfl)).bind fun _ _ => looks_pure trivial

omit linked in
theorem looks_reportEntry {p : Program (Option Token)}
    (looks : p.Looks (fun r => ∀ u ∈ r, db.Has u) db) :
    Looks (fun _ => True) (reportEntry p) db :=
  Looks.region (looks.bind fun _ known => looks_entryReport known)

theorem looks_query {question : EntryQuery} (known : db.Has t) :
    Bridge.Looks (fun _ => True) (query t question) db := by
  refine .after (looks_entry known) fun e found => ?_
  cases question with
  | take =>
    exact .after (looks_request (r := .takeEntry t) known.alone fun _ leads => leads) fun _ _ =>
      Bridge.looks_lift looks_showEntryReferences
  | giveBack =>
    exact .after (looks_request (r := .giveBackEntry t) known.alone fun _ leads => leads) fun _ _ =>
      Bridge.looks_lift looks_showEntryReferences
  | member group index =>
    have there : ∀ u ∈ (e.membersOf group)[index]?, db.Has u := fun u listed =>
      linked.has_member found u (List.mem_of_getElem? (Option.mem_def.mp listed))
    exact Bridge.looks_lift (looks_reportEntry (looks_take there))
  | parent => exact Bridge.looks_lift (looks_reportEntry (looks_parent linked known))
  | target => exact Bridge.looks_lift (looks_reportEntry (looks_target linked known))
  | part index => exact Bridge.looks_lift (looks_reportEntry (looks_part linked known))
  | argument index => exact Bridge.looks_lift (looks_reportEntry (looks_argument linked known))
  | result => exact Bridge.looks_lift (looks_reportEntry (looks_result linked known))
  | declared => exact Bridge.looks_lift (looks_reportEntry (looks_declared linked known))
  | readField label view =>
    exact .after looks_addressOf fun _ _ =>
      (Bridge.looks_ofRuntime (Runtime.looks_readField known)).bind fun _ _ =>
        Bridge.looks_lift looks_showSlot
  | writeField label term =>
    exact .after looks_addressOf fun _ _ => .after looks_slotOf fun _ _ =>
      (Bridge.looks_ofRuntime (Runtime.looks_writeField known)).bind fun _ _ =>
        Bridge.looks_pure trivial
  | constantSlot view => exact Bridge.looks_lift looks_showSlot
  | _ => exact Bridge.looks_pure trivial

end Linked

theorem looks_queryCatalog {question : CatalogQuery} (sound : db.Sound) :
    Looks (fun _ => True) (queryCatalog question) db := by
  refine looks_database.bind fun found same => ?_
  cases same
  have listed {home : String} {u : Token} (member : u ∈ db.topLevel home) : db.Has u :=
    Database.mem_tokens.mp (List.mem_filter.mp member).1
  cases question with
  | count home => exact looks_pure trivial
  | position home index =>
    exact looks_reportEntry (looks_take fun u there =>
      listed (List.mem_of_getElem? (Option.mem_def.mp there)))
  | named home name =>
    exact looks_reportEntry (looks_take fun u there =>
      listed (List.mem_of_find?_eq_some (Option.mem_def.mp there)))
  | numbered number =>
    exact looks_reportEntry (looks_take fun u there =>
      sound.has_registered (Option.mem_def.mp there))
  | valueBoxNumber => exact looks_pure trivial

theorem looks_inspect {v : Value} : Looks (fun _ => True) (inspect v) db :=
  looks_store.bind fun _ _ => Value.looks_render.bind fun _ _ => looks_pure trivial

theorem looks_boxReport {number : TypeNumber} {label : Option (Option String)} :
    Looks (fun _ => True) (boxReport number label) db := by
  unfold boxReport
  split
  · exact looks_addressOf.bind fun _ _ => looks_showAddress.bind fun _ _ => looks_pure trivial
  · exact looks_showAddress.bind fun _ _ => looks_pure trivial

theorem looks_bridgeText : Looks (fun _ => True) bridgeText db :=
  (looks_plain (r := .options) rfl).bind fun _ _ =>
    Library.looks_required.bind fun _ _ => looks_pure trivial

/-! ### What a session makes -/

theorem looks_linkNodes {previous : Address} {nodes : List (Address × Slot)} :
    Looks (fun _ => True) (linkNodes previous nodes) db := by
  induction nodes generalizing previous with
  | nil => exact looks_pure trivial
  | cons node rest ih => exact (looks_plain rfl).bind fun _ _ => ih

theorem looks_labelNodes {label : String} {index : Nat} {nodes : List Address} :
    Looks (fun _ => True) (labelNodes label index nodes) db := by
  induction nodes generalizing index with
  | nil => exact looks_pure trivial
  | cons node rest ih => exact (looks_plain rfl).bind fun _ _ => ih

theorem looks_nativeList {label : String} {items : List SlotTerm} :
    Looks (fun _ => True) (nativeList label items) db := by
  refine (looks_each fun _ _ => looks_slotOf).bind fun data _ => ?_
  have placed : Looks (fun nodes => ∀ a ∈ nodes, True)
      (each (fun _ => (request (.place [] nodeSize) : Program Address)) data) db :=
    looks_each fun _ _ => looks_plain rfl
  exact placed.bind fun _ _ => looks_linkNodes.bind fun _ _ => looks_labelNodes.bind fun _ _ =>
    looks_showAddress.bind fun _ _ => looks_pure trivial

theorem looks_initialOf {initial : List (String × SlotTerm)} :
    Looks (fun _ => True) (initialOf initial) db := by
  induction initial with
  | nil => exact looks_pure trivial
  | cons property rest ih =>
    exact looks_slotOf.bind fun _ _ => ih.bind fun _ _ => looks_pure trivial

theorem looks_storeOutputs {terms : List (Nat × SlotTerm)} {slots : List Slot} :
    Looks (fun _ => True) (storeOutputs terms slots) db := by
  induction terms generalizing slots with
  | nil => exact looks_pure trivial
  | cons term rest ih => exact looks_slotOf.bind fun _ _ => ih

/-- A new instance of a type that is identified. -/
theorem looks_createDirect {e : Entry} :
    Looks (fun _ => True) (request (.createDirect e.number) : Program Address) db :=
  looks_plain rfl

theorem looks_makeInstance {type save : String} :
    Looks (fun _ => True) (makeInstance type save) db := by
  refine Looks.region (looks_entryOf.bind fun t known => ?_)
  exact (looks_hold (Database.knows_entry known)).bind fun _ _ =>
    (looks_entry known).bind fun _ _ => looks_createDirect.bind fun _ _ =>
      (Handle.looks_retained known.given).bind fun _ _ =>
    (looks_plain rfl).bind fun _ _ => (looks_plain rfl).bind fun _ _ => looks_pure trivial

theorem grounded_makeHandle {mode : HandleMode} {type : Option TypeTerm} {label : Option String}
    (sound : db.Sound) :
    Program.Grounded Database.anything (makeHandle mode type label) db := by
  unfold makeHandle
  extract_lets rest
  have looks_rest {later : Database} (info : Option Token) (known : ∀ u ∈ info, later.Has u) :
      (rest info).Looks (fun _ => True) later := by
    simp only [rest]
    cases mode with
    | unbound =>
      cases info with
      | some t => exact (Handle.looks_unbound (known t rfl)).bind fun _ _ => looks_pure trivial
      | none => exact looks_stop fun _ same => nomatch same
    | retained =>
      exact looks_addressOf.bind fun _ _ => (Handle.looks_retained known).bind fun _ _ =>
        looks_pure trivial
    | borrowed =>
      exact looks_addressOf.bind fun _ _ => (Handle.looks_borrowed known).bind fun _ _ =>
        looks_pure trivial
  split
  · exact (grounded_describedType sound).bind fun t _ _ known =>
      (looks_rest (some t) known.given).anything
  · exact (looks_rest none fun _ impossible => nomatch impossible).anything

theorem looks_constructDirect {number : TypeNumber} {initial : List Runtime.Initial}
    (sound : db.Sound) : Bridge.Looks (fun _ => True) (constructDirect number initial) db :=
  .region <| (Bridge.looks_ofRuntime (Runtime.looks_construct sound)).bind fun _ _ =>
    .after (looks_plain rfl) fun _ _ => Bridge.looks_pure trivial

theorem looks_callRuntime {call : RuntimeCall} (linked : db.Sound) :
    Bridge.Looks (fun _ => True) (callRuntime call) db := by
  cases call with
  | reference label | sink label =>
    exact .after looks_addressOf fun _ _ => .after (looks_plain rfl) fun _ _ =>
      .after looks_liveInstance fun _ _ => Bridge.looks_pure trivial
  | unreference label =>
    exact .after looks_addressOf fun _ _ => .after (looks_plain rfl) fun _ _ =>
      .after looks_store fun _ _ => Bridge.looks_pure trivial
  | references label | isFloating label | numberOf label | connectionCount label =>
    exact .after looks_addressOf fun _ _ => .after looks_liveInstance fun _ _ =>
      Bridge.looks_pure trivial
  | isLive label =>
    exact .after looks_addressOf fun _ _ => .after looks_store fun _ _ => Bridge.looks_pure trivial
  | typeName number | isA number ancestor =>
    exact .after looks_database fun _ _ => Bridge.looks_pure trivial
  | construct number initial label =>
    refine .after looks_initialOf fun _ _ => (looks_constructDirect linked).bind fun a _ => ?_
    cases label with
    | some name =>
      exact .after (looks_plain rfl) fun _ _ => .after looks_liveInstance fun _ _ =>
        Bridge.looks_pure trivial
    | none => exact .after looks_liveInstance fun _ _ => Bridge.looks_pure trivial
  | readProperty label name view =>
    exact .after looks_addressOf fun _ _ =>
      (Bridge.looks_ofRuntime Runtime.looks_readProperty).bind fun _ _ =>
        Bridge.looks_lift looks_showSlot
  | writeProperty label name term =>
    exact .after looks_addressOf fun _ _ => .after looks_slotOf fun _ _ =>
      (Bridge.looks_ofRuntime Runtime.looks_writeProperty).bind fun _ _ => Bridge.looks_pure trivial
  | storedProperty label name view =>
    refine .after looks_addressOf fun _ _ => .after Runtime.looks_storedProperty fun stored _ => ?_
    split
    · exact .after looks_showSlot fun _ _ => Bridge.looks_pure trivial
    · exact Bridge.looks_pure trivial
  | connect label signal term =>
    have nothing {slot : Slot} : ∀ c ∈ (Reaction.fixed slot).claims, db.Knows c :=
      List.forall_mem_nil _
    exact .after looks_addressOf fun _ _ => .after looks_slotOf fun _ _ =>
      (Bridge.looks_ofRuntime (Signal.looks_attach nothing)).bind fun _ _ =>
        Bridge.looks_pure trivial

theorem grounded_encodeStep {type : TypeTerm} {term : ValueTerm} {view : View} (sound : db.Sound) :
    Bridge.Grounded Database.anything (encodeStep type term view) db :=
  .after (grounded_describedType sound) fun _ _ edited known =>
    .past looks_valueOf fun _ _ => (Codec.looks_encode (edited.sound sound).toLinked known).next
      fun _ _ => .past looks_showSlot fun _ _ => Bridge.grounded_pure trivial

theorem looks_present {save : Option String} {v : Value} (linked : db.Linked) :
    Looks (fun _ => True) (present save v) db := by
  cases save with
  | some name => exact (looks_plain rfl).bind fun _ _ => looks_showValue linked
  | none => exact looks_showValue linked

theorem grounded_reportValue {save : Option String} {p : Bridge Value} (sound : db.Sound)
    (grounded : Bridge.Grounded Database.anything p db) :
    Bridge.Grounded Database.anything (reportValue save p) db :=
  grounded.region.bind fun _ _ edited _ =>
    Bridge.grounded_lift (looks_present (edited.sound sound).toLinked).anything

/-! ### Answers -/

/-- What is known of namespaces may be replaced. -/
theorem grounded_rename {catalog : Catalog} {path : List String} :
    Program.Grounded Database.anything
      (request (.setDatabase { db with catalog := catalog, searchPath := path })) db :=
  grounded_call (Database.Edits.rename catalog path).edited

/-- The answers to all steps are grounded. -/
theorem grounded_respond {step : Step} (sound : db.Sound) :
    Bridge.Grounded Database.anything (respond step) db := by
  have linked := sound.toLinked
  cases step with
  | declareNamespace name version | declarePrivateNamespace directory name version =>
    refine .past looks_database fun found same => ?_
    cases same
    exact .after grounded_rename fun _ _ _ _ => Bridge.grounded_pure trivial
  | declare declaration id =>
    refine .after (grounded_declare sound) fun t later edited known => ?_
    cases id with
    | some name =>
      have identified : Request.Grounded later (.identify name t) := known.alone
      exact .past (looks_request identified fun _ leads => leads) fun _ _ =>
        Bridge.grounded_pure trivial
    | none => exact Bridge.grounded_pure trivial
  | newInstance type label =>
    exact .past looks_entryOf fun t known => .past (looks_entry known) fun _ _ =>
      .past looks_createDirect fun _ _ => .past (looks_plain rfl) fun _ _ =>
        Bridge.grounded_pure trivial
  | makeInstance type save =>
    exact grounded_reportValue sound (Bridge.looks_lift looks_makeInstance).anything
  | memory label bytes size =>
    exact .past (looks_plain (r := .place _ _) rfl) fun _ _ => .past (looks_plain rfl) fun _ _ =>
      Bridge.grounded_pure trivial
  | peek label view =>
    exact .past looks_addressOf fun _ _ => (Bridge.looks_lift looks_showSlot).anything
  | nativeList label items => exact (Bridge.looks_lift looks_nativeList).anything
  | handle mode type label save =>
    exact grounded_reportValue sound (Bridge.grounded_lift (grounded_makeHandle sound))
  | classHandle type save =>
    exact grounded_reportValue sound <| .past looks_entryOf fun t known =>
      .past (looks_hold (Database.knows_entry known)) fun _ _ =>
        .past (Handle.looks_unbound known) fun _ _ => Bridge.grounded_pure trivial
  | set term save => exact grounded_reportValue sound (Bridge.looks_lift looks_valueOf).anything
  | drop name =>
    exact .past (looks_plain (r := .unbind name) rfl) fun _ _ => Bridge.grounded_pure trivial
  | «global» name save =>
    refine .past looks_store fun s _ => ?_
    split
    · exact .past (looks_forEach fun c claimed => looks_hold (Database.knows_value c claimed))
        fun _ _ => (Bridge.looks_lift (looks_present linked)).anything
    · exact Bridge.grounded_pure trivial
  | dropGlobal name =>
    exact .past (looks_plain (r := .dropGlobal name) rfl) fun _ _ => Bridge.grounded_pure trivial
  | define name function => exact .past (looks_plain rfl) fun _ _ => Bridge.grounded_pure trivial
  | counters => exact .past looks_store fun _ _ => Bridge.grounded_pure trivial
  | require name version save | requirePrivate directory name version save =>
    exact grounded_reportValue sound Library.grounded_load
  | searchPath | isLoaded name version | loadedVersion name | publicVersions name | loadedNames =>
    exact .past looks_database fun _ _ => Bridge.grounded_pure trivial
  | prependSearchPath directory =>
    refine .past looks_database fun found same => ?_
    cases same
    exact .after grounded_rename fun _ _ _ _ => Bridge.grounded_pure trivial
  | requiredNamespaces =>
    exact .past Library.looks_required fun _ _ => Bridge.grounded_pure trivial
  | bridge => exact .past looks_bridgeText fun _ _ => Bridge.grounded_pure trivial
  | libraryExtract on name save =>
    exact grounded_reportValue sound <| .past looks_libraryOf fun _ _ =>
      (Library.looks_extract sound).anything
  | libraryList on =>
    exact .past looks_libraryOf fun _ _ => .past Library.looks_list fun _ _ =>
      Bridge.grounded_pure trivial
  | libraryText on =>
    exact .past looks_libraryOf fun _ _ => .past Library.looks_required fun _ _ =>
      Bridge.grounded_pure trivial
  | extract on name save =>
    exact grounded_reportValue sound <| .past looks_handleOf fun _ _ =>
      (Handle.looks_extract sound).anything
  | get on name save =>
    exact grounded_reportValue sound <| .past looks_handleOf fun _ _ =>
      (Handle.looks_get sound).anything
  | put on name term =>
    exact .past looks_handleOf fun _ _ => .past looks_valueOf fun _ _ =>
      (Handle.looks_set sound).next fun _ _ => Bridge.grounded_pure trivial
  | eval on terms save =>
    exact grounded_reportValue sound <| .past looks_handleOf fun _ _ =>
      .past (looks_each fun _ _ => looks_argumentOf) fun _ _ => Handle.grounded_eval sound
  | list on =>
    exact .past looks_handleOf fun _ _ => (Listing.looks_ofHandle linked).next fun _ _ =>
      Bridge.grounded_pure trivial
  | text on =>
    exact .past looks_handleOf fun _ _ => .past Handle.looks_text fun _ _ =>
      Bridge.grounded_pure trivial
  | debugText on =>
    exact .past looks_handleOf fun _ _ => .past (Handle.looks_render linked) fun _ _ =>
      Bridge.grounded_pure trivial
  | same a b =>
    exact .past looks_handleOf fun _ _ => .past looks_handleOf fun _ _ =>
      .past looks_store fun _ _ => Bridge.grounded_pure trivial
  | connect on name target data =>
    refine .past looks_handleOf fun h _ => ?_
    cases data with
    | some term =>
      exact .past looks_valueOf fun _ _ => (Signal.looks_connect linked).next fun _ _ =>
        Bridge.grounded_pure trivial
    | none => exact (Signal.looks_connect linked).next fun _ _ => Bridge.grounded_pure trivial
  | emit label name terms =>
    exact .past looks_addressOf fun _ _ => .past (looks_each fun _ _ => looks_slotOf) fun _ _ =>
      .after (Signal.grounded_emit sound) fun _ _ _ _ => Bridge.grounded_pure trivial
  | resolve type name =>
    exact .after (grounded_describedType sound) fun _ _ edited known =>
      (Member.looks_resolve (edited.sound sound).toLinked known).next fun _ _ =>
        Bridge.grounded_pure trivial
  | find type lookup name =>
    exact .after (grounded_describedType sound) fun _ _ edited known =>
      (Bridge.looks_lift (looks_find (edited.sound sound).toLinked known)).anything
  | walk type halt =>
    exact .after (grounded_describedType sound) fun _ _ edited known =>
      .past (looks_walkNames (edited.sound sound).toLinked known) fun _ _ =>
        Bridge.grounded_pure trivial
  | describe type =>
    exact .after (grounded_describedType sound) fun _ _ edited known =>
      .past (Listing.looks_describe (edited.sound sound).toLinked known) fun _ _ =>
        Bridge.grounded_pure trivial
  | descriptor type =>
    exact .after (grounded_describedType sound) fun _ _ edited known =>
      (Bridge.looks_lift (looks_describeDescriptor (edited.sound sound).toLinked known)).anything
  | signature type =>
    refine .after (grounded_describedType sound) fun _ _ edited known => ?_
    have later := (edited.sound sound).toLinked
    exact (Signature.looks_ofCallable later known).next fun _ types =>
      (Bridge.looks_lift (looks_signatureReport later types)).anything
  | invoke type receiver terms save =>
    exact grounded_reportValue sound <| .after (grounded_describedType sound)
      fun _ _ edited known => .past looks_addressOf fun _ _ =>
        .past (looks_each fun _ _ => looks_valueOf) fun _ _ =>
          Call.grounded_invoke (edited.sound sound) known
  | encode type term view => exact grounded_encodeStep sound
  | decode type term save =>
    exact grounded_reportValue sound <| .after (grounded_describedType sound)
      fun _ _ edited known => .past looks_slotOf fun _ _ =>
        (Codec.looks_decode (edited.sound sound) known).anything
  | roundtrip type term save =>
    refine grounded_reportValue sound <| .after (grounded_describedType sound)
      fun _ _ edited known => .past looks_valueOf fun _ _ => ?_
    exact (Codec.looks_encode (edited.sound sound).toLinked known).next fun _ _ =>
      (Codec.looks_decode (edited.sound sound) known).anything
  | query type question =>
    exact .after (grounded_typeOf sound) fun _ _ edited known =>
      (looks_query (edited.sound sound).toLinked known).anything
  | catalog question => exact (Bridge.looks_lift (looks_queryCatalog sound)).anything
  | runtime call => exact (looks_callRuntime sound).anything
  | inspect term =>
    exact .past looks_valueOf fun _ _ => (Bridge.looks_lift looks_inspect).anything
  | equal a b =>
    exact .past looks_valueOf fun _ _ => .past looks_valueOf fun _ _ =>
      .past looks_store fun _ _ => Bridge.grounded_pure trivial
  | slot term => exact .past looks_slotOf fun _ _ => Bridge.grounded_pure trivial
  | valueBox number label => exact (Bridge.looks_lift looks_boxReport).anything
  | setDiagnostics on =>
    exact .past (looks_plain (r := .setTracing on) rfl) fun _ _ => Bridge.grounded_pure trivial
  | diagnostics =>
    exact .past (looks_plain (r := .tracing) rfl) fun _ _ => Bridge.grounded_pure trivial
  | raise failure => exact Bridge.grounded_throw
  | entryKind kind | tag tag | memberGroup group | callableFlags a b | propertyFlags a b
  | environment entries => exact Bridge.grounded_pure trivial

/-! ### Functions -/

theorem grounded_emitFrom {inputs : List Slot} {e : Emission} (sound : db.Sound) :
    Program.Grounded Database.anything (emitFrom inputs e) db :=
  (looks_each fun _ _ => looks_slotOf).next fun _ _ => (Signal.grounded_emit sound).bind
    fun _ _ _ _ => (looks_plain rfl).anything

theorem looks_resultOf {inputs : List Slot} {result : NativeResult} :
    Looks (fun _ => True) (resultOf inputs result) db := by
  cases result with
  | input index | quotient dividend divisor => exact looks_pure trivial
  | references index => exact looks_liveInstance.bind fun _ _ => looks_pure trivial
  | fresh type label =>
    exact looks_entryOf.bind fun _ known => (looks_entry known).bind fun _ _ =>
      looks_createDirect.bind fun _ _ => (looks_plain rfl).bind fun _ _ => looks_pure trivial
  | slot term => exact looks_slotOf

theorem grounded_performAll {steps : List Step} :
    Program.Grounded Database.anything (performAll steps) db :=
  grounded_forEach fun _ _ _ _ => grounded_call (List.forall_mem_nil _)

theorem grounded_runNative {native : Native Step} {inputs outputs : List Slot} (sound : db.Sound) :
    Program.Grounded Database.anything (runNative name native inputs outputs) db := by
  refine looks_showSlots.next fun _ _ => looks_showSlots.next fun _ _ =>
    (looks_plain rfl).next fun _ _ =>
    (looks_forEach fun _ _ => looks_plain (r := .raise _) rfl).next fun _ _ =>
    looks_storeOutputs.next fun stored _ => ?_
  extract_lets rest
  have grounded_rest (later : Database) : Program.Grounded Database.anything (rest ()) later := by
    refine grounded_performAll.bind fun _ last _ _ => ?_
    cases native.error with
    | some text => exact grounded_pure trivial
    | none => exact looks_resultOf.next fun _ _ => grounded_pure trivial
  cases native.emission with
  | some e => exact (grounded_emitFrom sound).bind fun _ later _ _ => grounded_rest later
  | none => exact grounded_rest db

/-- The script of a native function is looked up by its entry. -/
theorem grounded_callNative {callable : Token} {inputs outputs : List Slot} (sound : db.Sound)
    (known : db.Has callable) :
    Program.Grounded Database.anything (callNative callable inputs outputs) db := by
  refine (looks_entry known).next fun e _ => looks_bench.next fun b _ => ?_
  split
  · exact grounded_runNative sound
  · exact grounded_pure trivial

theorem looks_bindArguments {names : List String} {arguments : List Value} :
    Looks (fun _ => True) (bindArguments names arguments) db := by
  induction names generalizing arguments with
  | nil => exact looks_pure trivial
  | cons name names ih =>
    cases arguments with
    | nil => exact looks_pure trivial
    | cons v vs => exact (looks_plain rfl).bind fun _ _ => ih

theorem looks_unbindAll {names : List String} : Looks (fun _ => True) (unbindAll names) db :=
  looks_forEach fun _ _ => (looks_plain (r := .unbind _) rfl).bind fun _ _ => looks_pure trivial

theorem looks_letGoAll {values : List Value} :
    Looks (fun _ => True) (forEach letGo (values.flatMap Value.claims)) db :=
  looks_forEach fun c member => by
    obtain ⟨v, _, claimed⟩ := List.mem_flatMap.mp member
    exact looks_letGo (Database.knows_value c claimed)

theorem grounded_runHost {f : HostFunction Step} {arguments : List Value} :
    Program.Grounded Database.anything (runHost f arguments) db := by
  refine looks_bindArguments.next fun _ _ => looks_letGoAll.next fun _ _ =>
    grounded_performAll.bind fun _ later _ _ => ?_
  split
  · exact looks_unbindAll.next fun _ _ => grounded_pure trivial
  · exact looks_valueOf.next fun _ _ => looks_unbindAll.next fun _ _ => grounded_pure trivial

theorem grounded_callHost {target : Target} {arguments : List Value} (linked : db.Linked) :
    Program.Grounded Database.anything (callHost target arguments) db := by
  refine (looks_each fun _ _ => looks_showValue linked).next fun _ _ =>
    (looks_plain rfl).next fun _ _ => looks_bench.next fun b _ => ?_
  split
  · exact grounded_runHost
  · exact looks_letGoAll.next fun _ _ => grounded_pure trivial

theorem grounded_assignGlobal {v : Value} (linked : db.Linked) :
    Program.Grounded Database.anything (assignGlobal name v) db :=
  (looks_showValue linked).next fun _ _ => (looks_plain rfl).next fun _ _ =>
    (looks_plain rfl).anything

end Session
end ObjectBridge
