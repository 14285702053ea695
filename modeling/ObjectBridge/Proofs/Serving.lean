import ObjectBridge.Session.Respond
import ObjectBridge.Proofs.Boundaries
import ObjectBridge.Proofs.Emitting

/-!
# The steps and functions of a session are tame

A value that a step names comes from a variable or a global, so it was made; a value that it saves
was made by the program of the step.
-/

namespace ObjectBridge

open Program Script

variable {z : Horizon}

theorem mem_of_lookup {α : Type} {name : String} {x : α} {values : List (String × α)}
    (found : values.lookup name = some x) : (name, x) ∈ values := by
  obtain ⟨before, after, rfl, _⟩ := List.lookup_eq_some_iff.mp found
  exact List.mem_append_right _ List.mem_cons_self

theorem Literal.claims_value (l : Literal) : l.value.claims = [] := by
  cases l <;> rfl

namespace Session

/-- Sharing a value that was made is tame. -/
theorem tame_share {v : Value} (known : v.Known z) : Tame (forEach hold v.claims) z plain :=
  tame_forEach fun c member _ later => tame_hold ((known c member).mono later)

theorem tame_valueOf {term : ValueTerm} : Tame (valueOf term) z fun z v => v.Known z := by
  match term with
  | .literal l => exact Codec.tame_bare (Literal.claims_value l)
  | .pointer label => exact reading_addressOf.tame.bind fun _ _ _ _ => Codec.tame_bare rfl
  | .variable name =>
    refine tame_store.bind fun z₁ s _ known => ?_
    split
    · next v found =>
      have made := known.1 name v (mem_of_lookup found)
      exact (tame_share made).bind fun _ _ later _ =>
        tame_pure fun _ later' => made.mono (le_trans later later')
    · exact tame_stop

theorem tame_argumentOf {term : ArgumentTerm} :
    Tame (argumentOf term) z fun z x => x.Known z := by
  cases term with
  | value v => exact tame_valueOf.map fun _ _ known => known
  | keyword name v => exact tame_valueOf.map fun _ _ _ => trivial
  | symbol name => exact tame_pure fun _ _ => trivial
  | output name => exact tame_pure fun _ _ => trivial

theorem tame_handleOf {name : String} : Tame (handleOf name) z fun z h => h < z.1 := by
  refine tame_valueOf.bind fun z₁ v _ known => ?_
  split
  · next h =>
    exact tame_pure fun _ later =>
      Nat.lt_of_lt_of_le (known _ (List.mem_singleton_self _)) later.1
  · exact tame_stop

theorem tame_libraryOf {name : String} : Tame (libraryOf name) z plain := by
  refine tame_valueOf.bind fun z₁ v _ known => ?_
  split
  · exact tame_pure fun _ _ => trivial
  · exact tame_stop

theorem tame_makeInstance {type save : String} :
    Tame (makeInstance type save) z fun z v => v.Known z := by
  refine .region (reading_entryOf.tame.bind fun _ t _ _ => reading_holdEntry.tame.bind
    fun _ _ _ _ => tame_entry.bind fun _ e _ _ => ?_)
  refine Tame.bind (tame_request (r := .createDirect e.number) trivial) fun _ a _ _ => ?_
  refine Handle.tame_retained.bind fun _ h _ made => ?_
  refine Tame.bind (tame_request (r := .giveBackDirect a) trivial) fun _ _ later _ => ?_
  refine Tame.bind (tame_request (r := .label save a) trivial) fun _ _ later' _ => ?_
  exact tame_pure fun _ later'' =>
    Value.known_handle (Nat.lt_of_lt_of_le made (le_trans later (le_trans later' later'')).1)

theorem tame_makeHandle {mode : HandleMode} {type : Option TypeTerm} {label : Option String} :
    Tame (makeHandle mode type label) z fun z v => v.Known z := by
  unfold makeHandle
  extract_lets rest
  have tame_rest (info : Option Token) (z : Horizon) : Tame (rest info) z fun z v => v.Known z := by
    simp only [rest]
    cases mode with
    | unbound =>
      cases info with
      | some t => exact Handle.tame_value Handle.tame_unbound
      | none => exact tame_stop
    | retained =>
      exact reading_addressOf.tame.bind fun _ _ _ _ => Handle.tame_value Handle.tame_retained
    | borrowed =>
      exact reading_addressOf.tame.bind fun _ _ _ _ => Handle.tame_value Handle.tame_borrowed
  split
  · exact reading_describedType.tame.bind fun _ t _ _ => reading_pure.tame.bind
      fun z' _ _ _ => tame_rest _ z'
  · exact reading_pure.tame.bind fun z' _ _ _ => tame_rest _ z'

theorem tame_callRuntime {call : RuntimeCall} : Bridge.Tame (callRuntime call) z plain := by
  cases call with
  | reference label =>
    exact (Bridge.tame_lift reading_addressOf.tame).bind fun _ a _ _ =>
      (Bridge.tame_lift (tame_request (r := .takeDirect a) trivial)).bind fun _ _ _ _ =>
        (Bridge.tame_lift tame_liveInstance).bind fun _ _ _ _ => Bridge.reading_pure.tame
  | unreference label =>
    exact (Bridge.tame_lift reading_addressOf.tame).bind fun _ a _ _ =>
      (Bridge.tame_lift (tame_request (r := .giveBackDirect a) trivial)).bind fun _ _ _ _ =>
        (Bridge.tame_lift tame_store).bind fun _ _ _ _ => Bridge.reading_pure.tame
  | sink label =>
    exact (Bridge.tame_lift reading_addressOf.tame).bind fun _ a _ _ =>
      (Bridge.tame_lift (tame_request (r := .sinkDirect a) trivial)).bind fun _ _ _ _ =>
        (Bridge.tame_lift tame_liveInstance).bind fun _ _ _ _ => Bridge.reading_pure.tame
  | references label | isFloating label | numberOf label | connectionCount label =>
    exact (Bridge.tame_lift reading_addressOf.tame).bind fun _ _ _ _ =>
      (Bridge.tame_lift tame_liveInstance).bind fun _ _ _ _ => Bridge.reading_pure.tame
  | isLive label =>
    exact (Bridge.tame_lift reading_addressOf.tame).bind fun _ _ _ _ =>
      (Bridge.tame_lift tame_store).bind fun _ _ _ _ => Bridge.reading_pure.tame
  | typeName number | isA number ancestor =>
    exact (Bridge.tame_lift tame_database).bind fun _ _ _ _ => Bridge.reading_pure.tame
  | construct number initial label =>
    refine (Bridge.tame_lift reading_initialOf.tame).bind fun _ _ _ _ =>
      tame_constructDirect.bind fun _ a _ _ => ?_
    cases label with
    | some name =>
      exact (Bridge.tame_lift (tame_request (r := .label name a) trivial)).bind fun _ _ _ _ =>
        (Bridge.tame_lift tame_liveInstance).bind fun _ _ _ _ => Bridge.reading_pure.tame
    | none =>
      exact (Bridge.tame_lift tame_liveInstance).bind fun _ _ _ _ => Bridge.reading_pure.tame
  | readProperty label name view =>
    exact (Bridge.tame_lift reading_addressOf.tame).bind fun _ _ _ _ =>
      (Bridge.reading_ofRuntime Runtime.reading_readProperty).tame.bind fun _ _ _ _ =>
        Bridge.tame_lift reading_showSlot.tame
  | writeProperty label name term =>
    exact (Bridge.tame_lift reading_addressOf.tame).bind fun _ _ _ _ =>
      (Bridge.tame_lift reading_slotOf.tame).bind fun _ _ _ _ =>
        (Bridge.tame_ofRuntime Runtime.tame_writeProperty).bind fun _ _ _ _ =>
          Bridge.reading_pure.tame
  | storedProperty label name view =>
    refine (Bridge.tame_lift reading_addressOf.tame).bind fun _ _ _ _ =>
      (Bridge.tame_lift Runtime.reading_storedProperty.tame).bind fun _ stored _ _ => ?_
    split
    · exact (Bridge.tame_lift reading_showSlot.tame).bind fun _ _ _ _ => Bridge.reading_pure.tame
    · exact Bridge.reading_pure.tame
  | connect label signal term =>
    exact (Bridge.tame_lift reading_addressOf.tame).bind fun _ _ _ _ =>
      (Bridge.tame_lift reading_slotOf.tame).bind fun _ slot _ _ =>
        (Bridge.tame_ofRuntime (Signal.tame_attach fun c member => by
          simp [Reaction.claims] at member)).bind fun _ _ _ _ => Bridge.reading_pure.tame

theorem tame_query {t : Token} {question : EntryQuery} : Bridge.Tame (query t question) z plain := by
  by_cases taking : question = .take
  · subst taking
    exact (Bridge.tame_lift tame_entry).bind fun _ _ _ _ =>
      (Bridge.tame_lift (tame_request (r := .takeEntry t) trivial)).bind fun _ _ _ _ =>
        Bridge.tame_lift reading_showEntryReferences.tame
  · by_cases giving : question = .giveBack
    · subst giving
      exact (Bridge.tame_lift tame_entry).bind fun _ _ _ _ =>
        (Bridge.tame_lift (tame_request (r := .giveBackEntry t) trivial)).bind fun _ _ _ _ =>
          Bridge.tame_lift reading_showEntryReferences.tame
    · exact (reading_query taking giving).tame

theorem tame_encodeStep {type : TypeTerm} {term : ValueTerm} {view : View} :
    Bridge.Tame (encodeStep type term view) z plain :=
  (Bridge.tame_lift reading_describedType.tame).bind fun _ _ _ _ =>
    (Bridge.tame_lift tame_valueOf).bind fun _ _ _ _ => Codec.reading_encode.tame.bind
      fun _ _ _ _ => (Bridge.tame_lift reading_showSlot.tame).bind fun _ _ _ _ =>
        Bridge.reading_pure.tame

theorem tame_present {save : Option String} {v : Value} (known : v.Known z) :
    Tame (present save v) z plain := by
  cases save with
  | some name =>
    exact (tame_request (r := .bind name v) known).bind fun _ _ _ _ => reading_showValue.tame
  | none => exact reading_showValue.tame

/-- Reporting what a tame program gives is tame. -/
theorem tame_reportValue {save : Option String} {p : Bridge Value}
    (tame : Bridge.Tame p z fun z v => v.Known z) : Bridge.Tame (reportValue save p) z plain :=
  tame.region.bind fun _ _ _ known => Bridge.tame_lift (tame_present known)

/-- Every step is tame. -/
theorem tame_respond {step : Step} : Bridge.Tame (respond step) z plain := by
  have ask (r : Request) (reads : r.reads = true) (z : Horizon) :
      Bridge.Tame (liftM (request r) : Bridge r.Reply) z plain :=
    Bridge.tame_lift (reading_request reads).tame
  cases step with
  | declareNamespace name version | declarePrivateNamespace directory name version =>
    exact (Bridge.tame_lift tame_database).bind fun _ _ _ _ => (ask _ rfl _).bind
      fun _ _ _ _ => Bridge.reading_pure.tame
  | declare declaration id =>
    refine (Bridge.tame_lift reading_declare.tame).bind fun _ t _ _ => ?_
    cases id with
    | some name => exact (ask _ rfl _).bind fun _ _ _ _ => Bridge.reading_pure.tame
    | none => exact Bridge.reading_pure.tame
  | newInstance type label =>
    exact (Bridge.tame_lift reading_entryOf.tame).bind fun _ _ _ _ =>
      (Bridge.tame_lift tame_entry).bind fun _ e _ _ =>
        (Bridge.tame_lift (tame_request (r := .createDirect e.number) trivial)).bind
          fun _ _ _ _ => (ask _ rfl _).bind fun _ _ _ _ => Bridge.reading_pure.tame
  | makeInstance type save => exact tame_reportValue (Bridge.tame_lift tame_makeInstance)
  | memory label bytes size =>
    exact (ask _ rfl _).bind fun _ _ _ _ => (ask _ rfl _).bind
      fun _ _ _ _ => Bridge.reading_pure.tame
  | peek label view =>
    exact (Bridge.tame_lift reading_addressOf.tame).bind fun _ _ _ _ =>
      Bridge.tame_lift reading_showSlot.tame
  | nativeList label items => exact Bridge.tame_lift reading_nativeList.tame
  | handle mode type label save => exact tame_reportValue (Bridge.tame_lift tame_makeHandle)
  | classHandle type save =>
    exact tame_reportValue <| (Bridge.tame_lift reading_entryOf.tame).bind fun _ _ _ _ =>
      (Bridge.tame_lift reading_holdEntry.tame).bind fun _ _ _ _ =>
        Handle.tame_made (Bridge.tame_lift Handle.tame_unbound)
  | set term save => exact tame_reportValue (Bridge.tame_lift tame_valueOf)
  | drop name =>
    exact (Bridge.tame_lift (tame_request (r := .unbind name) trivial)).bind
      fun _ _ _ _ => Bridge.reading_pure.tame
  | «global» name save =>
    refine (Bridge.tame_lift tame_store).bind fun _ s _ known => ?_
    split
    · next v found =>
      have made := known.2.1 name v (mem_of_lookup found)
      exact (Bridge.tame_lift (tame_share made)).bind fun _ _ later _ =>
        Bridge.tame_lift (tame_present (made.mono later))
    · exact Bridge.reading_pure.tame
  | dropGlobal name =>
    exact (Bridge.tame_lift (tame_request (r := .dropGlobal name) trivial)).bind
      fun _ _ _ _ => Bridge.reading_pure.tame
  | define name function => exact (ask _ rfl _).bind fun _ _ _ _ => Bridge.reading_pure.tame
  | counters => exact (Bridge.tame_lift tame_store).bind fun _ _ _ _ => Bridge.reading_pure.tame
  | require name version save | requirePrivate directory name version save =>
    exact tame_reportValue Library.tame_load
  | searchPath | isLoaded name version | loadedVersion name | publicVersions name | loadedNames =>
    exact (Bridge.tame_lift tame_database).bind fun _ _ _ _ => Bridge.reading_pure.tame
  | prependSearchPath directory =>
    exact (Bridge.tame_lift tame_database).bind fun _ _ _ _ => (ask _ rfl _).bind
      fun _ _ _ _ => Bridge.reading_pure.tame
  | requiredNamespaces =>
    exact (Bridge.tame_lift Library.reading_required.tame).bind
      fun _ _ _ _ => Bridge.reading_pure.tame
  | bridge =>
    exact (Bridge.tame_lift reading_bridgeText.tame).bind fun _ _ _ _ => Bridge.reading_pure.tame
  | libraryExtract on name save =>
    exact tame_reportValue <| (Bridge.tame_lift tame_libraryOf).bind
      fun _ _ _ _ => Library.tame_extract
  | libraryList on =>
    exact (Bridge.tame_lift tame_libraryOf).bind fun _ _ _ _ =>
      (Bridge.tame_lift Library.reading_list.tame).bind fun _ _ _ _ => Bridge.reading_pure.tame
  | libraryText on =>
    exact (Bridge.tame_lift tame_libraryOf).bind fun _ _ _ _ =>
      (Bridge.tame_lift Library.reading_required.tame).bind fun _ _ _ _ => Bridge.reading_pure.tame
  | extract on name save =>
    exact tame_reportValue <| (Bridge.tame_lift tame_handleOf).bind
      fun _ _ _ made => Handle.tame_extract made
  | get on name save =>
    exact tame_reportValue <| (Bridge.tame_lift tame_handleOf).bind fun _ _ _ _ => Handle.tame_get
  | put on name term =>
    exact (Bridge.tame_lift tame_handleOf).bind fun _ _ _ _ => (Bridge.tame_lift tame_valueOf).bind
      fun _ _ _ _ => Handle.tame_set.bind fun _ _ _ _ => Bridge.reading_pure.tame
  | eval on terms save =>
    refine tame_reportValue <| (Bridge.tame_lift tame_handleOf).bind fun _ h _ made =>
      (Bridge.tame_lift <| tame_each (fun term _ _ _ => tame_argumentOf)
        fun _ _ _ later known => known.mono later).bind fun _ arguments later known => ?_
    exact Handle.tame_eval (Nat.lt_of_lt_of_le made later.1) known
  | list on =>
    exact (Bridge.tame_lift tame_handleOf).bind fun _ _ _ _ => Listing.reading_ofHandle.tame.bind
      fun _ _ _ _ => Bridge.reading_pure.tame
  | text on =>
    exact (Bridge.tame_lift tame_handleOf).bind fun _ _ _ _ =>
      (Bridge.tame_lift Handle.reading_text.tame).bind fun _ _ _ _ => Bridge.reading_pure.tame
  | debugText on =>
    exact (Bridge.tame_lift tame_handleOf).bind fun _ _ _ _ =>
      (Bridge.tame_lift Handle.reading_render.tame).bind fun _ _ _ _ => Bridge.reading_pure.tame
  | same a b =>
    exact (Bridge.tame_lift tame_handleOf).bind fun _ _ _ _ =>
      (Bridge.tame_lift tame_handleOf).bind fun _ _ _ _ =>
        (Bridge.tame_lift tame_store).bind fun _ _ _ _ => Bridge.reading_pure.tame
  | connect on name target data =>
    refine (Bridge.tame_lift tame_handleOf).bind fun _ h _ _ => ?_
    cases data with
    | some term =>
      refine (Bridge.tame_lift tame_valueOf).bind fun _ v _ known =>
        (Signal.tame_connect fun u given => ?_).bind fun _ _ _ _ => Bridge.reading_pure.tame
      exact Option.some.inj given ▸ known
    | none =>
      exact (Signal.tame_connect fun u given => by cases given).bind
        fun _ _ _ _ => Bridge.reading_pure.tame
  | emit label name terms =>
    exact (Bridge.tame_lift reading_addressOf.tame).bind fun _ _ _ _ =>
      (Bridge.tame_lift (reading_each fun _ => reading_slotOf).tame).bind fun _ _ _ _ =>
        (Bridge.tame_lift Signal.tame_emit).bind fun _ _ _ _ => Bridge.reading_pure.tame
  | resolve type name =>
    exact (Bridge.tame_lift reading_describedType.tame).bind fun _ _ _ _ =>
      Member.reading_resolve.tame.bind fun _ _ _ _ => Bridge.reading_pure.tame
  | find type lookup name =>
    exact (Bridge.tame_lift reading_describedType.tame).bind fun _ _ _ _ =>
      Bridge.tame_lift reading_find.tame
  | walk type stop =>
    exact (Bridge.tame_lift reading_describedType.tame).bind fun _ _ _ _ =>
      (Bridge.tame_lift reading_walkNames.tame).bind fun _ _ _ _ => Bridge.reading_pure.tame
  | describe type =>
    exact (Bridge.tame_lift reading_describedType.tame).bind fun _ _ _ _ =>
      (Bridge.tame_lift Listing.reading_describe.tame).bind fun _ _ _ _ => Bridge.reading_pure.tame
  | descriptor type =>
    exact (Bridge.tame_lift reading_describedType.tame).bind fun _ _ _ _ =>
      Bridge.tame_lift reading_describeDescriptor.tame
  | signature type =>
    exact (Bridge.tame_lift reading_describedType.tame).bind fun _ _ _ _ =>
      Signature.reading_ofCallable.tame.bind fun _ _ _ _ =>
        Bridge.tame_lift reading_signatureReport.tame
  | invoke type receiver terms save =>
    exact tame_reportValue <| (Bridge.tame_lift reading_describedType.tame).bind fun _ _ _ _ =>
      (Bridge.tame_lift reading_addressOf.tame).bind fun _ _ _ _ =>
        (Bridge.tame_lift <| tame_each (fun term _ _ _ => tame_valueOf)
          fun _ _ _ later known => known.mono later).bind fun _ _ _ _ => Call.tame_invoke
  | encode type term view => exact tame_encodeStep
  | decode type term save =>
    exact tame_reportValue <| (Bridge.tame_lift reading_describedType.tame).bind fun _ _ _ _ =>
      (Bridge.tame_lift reading_slotOf.tame).bind fun _ _ _ _ => Codec.tame_decode
  | roundtrip type term save =>
    exact tame_reportValue <| (Bridge.tame_lift reading_describedType.tame).bind fun _ _ _ _ =>
      (Bridge.tame_lift tame_valueOf).bind fun _ _ _ _ => Codec.reading_encode.tame.bind
        fun _ _ _ _ => Codec.tame_decode
  | query type question =>
    exact (Bridge.tame_lift reading_typeOf.tame).bind fun _ _ _ _ => tame_query
  | catalog question => exact Bridge.tame_lift reading_queryCatalog.tame
  | runtime call => exact tame_callRuntime
  | inspect term =>
    exact (Bridge.tame_lift tame_valueOf).bind fun _ _ _ _ => Bridge.tame_lift reading_inspect.tame
  | equal a b =>
    exact (Bridge.tame_lift tame_valueOf).bind fun _ _ _ _ =>
      (Bridge.tame_lift tame_valueOf).bind fun _ _ _ _ =>
        (Bridge.tame_lift tame_store).bind fun _ _ _ _ => Bridge.reading_pure.tame
  | slot term =>
    exact (Bridge.tame_lift reading_slotOf.tame).bind fun _ _ _ _ => Bridge.reading_pure.tame
  | valueBox number label => exact Bridge.tame_lift reading_boxReport.tame
  | entryKind kind | tag tag | memberGroup group | callableFlags a b | propertyFlags a b
  | environment entries => exact Bridge.reading_pure.tame
  | setDiagnostics on | diagnostics =>
    exact (ask _ rfl _).bind fun _ _ _ _ => Bridge.reading_pure.tame
  | raise failure => exact Bridge.tame_throw

end Session
end ObjectBridge
