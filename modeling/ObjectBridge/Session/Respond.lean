import ObjectBridge.Handle.Eval
import ObjectBridge.Session.Direct
import ObjectBridge.Session.Inspect
import ObjectBridge.Session.Make
import ObjectBridge.Session.Query

/-!
# Answers to steps

Each step of a session is a program that ends with a report.  A step whose value is saved binds the
variable before the report is written.
-/

namespace ObjectBridge
namespace Session

open Program Script

/-- Save a value under a name, if there is one, and show it. -/
def present (save : Option String) (v : Value) : Program Report := do
  match save with
  | some name => request (.bind name v)
  | none => pure ()
  showValue v

/-- Report a value.  The temporaries of the program are given back before the value is saved. -/
def reportValue (save : Option String) (p : Bridge Value) : Bridge Report := do
  let v ← Bridge.region Value.claims p
  present save v

/-- Answer a step. -/
def respond : Step → Bridge Report
  | .declareNamespace name version => do
    let db ← database
    request (.setDatabase { db with catalog := db.catalog.declare name version })
    return .none
  | .declarePrivateNamespace directory name version => do
    let db ← database
    request (.setDatabase { db with catalog := db.catalog.declarePrivate directory name version })
    return .none
  | .declare declaration id => do
    let t ← declare declaration
    match id with
    | some name => request (.identify name t)
    | none => pure ()
    return .nat t
  | .newInstance type label => do
    let t ← entryOf type
    let e ← entry t
    let a : Address ← request (.createDirect e.number)
    request (.label label a)
    return .none
  | .makeInstance type save => reportValue (some save) (makeInstance type save)
  | .memory label bytes size => do
    let a : Address ← request (.place (Cell.ofBytes bytes) size)
    request (.label label a)
    return .none
  | .peek label view => do
    let a ← addressOf label
    showSlot view (.ofAddress a)
  | .nativeList label items => nativeList label items
  | .handle mode type label save => reportValue save (makeHandle mode type label)
  | .classHandle type save => reportValue save do
    let t ← entryOf type
    hold (.entry t)
    let h ← Handle.unbound t
    return .handle h
  | .set term save => reportValue save (valueOf term)
  | .drop name => do
    let existed : Bool ← request (.unbind name)
    return .bool existed
  | .global name save => do
    let s ← store
    match s.globals.lookup name with
    | some v => do
      forEach hold v.claims
      present save v
    | none => return .text "unset"
  | .dropGlobal name => do
    let existed : Bool ← request (.dropGlobal name)
    return .bool existed
  | .define name function => do
    request (.define name function)
    return .none
  | .counters => do
    let s ← store
    return totalsReport s.totals
  | .require name version save => reportValue save (Library.load name version none)
  | .requirePrivate directory name version save =>
    reportValue save (Library.load name version (some directory))
  | .searchPath => do
    let db ← database
    return .texts db.searchPath
  | .prependSearchPath directory => do
    let db ← database
    let path := directory :: db.searchPath
    request (.setDatabase { db with searchPath := path })
    return .texts path
  | .isLoaded name version => do
    let db ← database
    return .bool (db.catalog.isLoaded name version)
  | .loadedVersion name => do
    let db ← database
    return .option .text (db.catalog.loadedVersion? name)
  | .publicVersions name => do
    let db ← database
    return .texts (db.catalog.publicVersions name)
  | .loadedNames => do
    let db ← database
    return .texts db.catalog.loadedNames
  | .requiredNamespaces => do
    let required ← Library.required
    return .each (fun (name, version) => .texts [name, version]) required
  | .bridge => do
    let shown ← bridgeText
    return .text shown
  | .libraryExtract on name save => reportValue save do
    let (library, _) ← libraryOf on
    Library.extract library name
  | .libraryList on => do
    let (library, _) ← libraryOf on
    let found ← Library.list library
    return .each (fun e => .texts [e.kind.name, e.shownName]) found
  | .libraryText on => do
    let (library, version) ← libraryOf on
    let required ← Library.required
    return .list
      [.text (libraryText library version),
        .text ("Namespace(" ++ library ++ " " ++ version ++ ")"), .nat required.length]
  | .extract on name save => reportValue save do
    let h ← handleOf on
    Handle.extract h name
  | .get on name save => reportValue save do
    let h ← handleOf on
    Handle.get h name
  | .put on name term => do
    let h ← handleOf on
    let v ← valueOf term
    Handle.set h name v
    return .none
  | .eval on terms save => reportValue save do
    let h ← handleOf on
    let arguments ← each argumentOf terms
    Handle.eval h arguments
  | .list on => do
    let h ← handleOf on
    let listing ← Listing.ofHandle h
    return listingReport listing
  | .text on => do
    let h ← handleOf on
    let shown ← Handle.text h
    return .text (Text.redact shown)
  | .debugText on => do
    let h ← handleOf on
    let shown ← Handle.render h
    return .text (Text.redact shown)
  | .same a b => do
    let x ← handleOf a
    let y ← handleOf b
    let s ← store
    return .bool (Handle.same s x y)
  | .connect on name target data => do
    let h ← handleOf on
    let userData ←
      match data with
      | some term => do
        let v ← valueOf term
        pure (some v)
      | none => pure none
    let id ← Signal.connect h name target userData
    return .nat id
  | .emit label name terms => do
    let a ← addressOf label
    let slots ← each slotOf terms
    let answer ← Signal.emit a name slots
    return .option bitsReport answer
  | .resolve type name => do
    let t ← describedType type
    let found ← Member.resolve t name
    return memberReport found
  | .find type lookup name => do
    let t ← describedType type
    find t lookup name
  | .walk type stop => do
    let t ← describedType type
    let (names, hit) ← walkNames stop (t + 1) t
    return .record [("seen", .texts names), ("hit", tokenReport hit)]
  | .describe type => do
    let t ← describedType type
    let listing ← Listing.describe t
    return listingReport listing
  | .descriptor type => do
    let t ← describedType type
    describeDescriptor t
  | .signature type => do
    let t ← describedType type
    let s ← Signature.ofCallable t
    signatureReport s
  | .invoke type receiver terms save => reportValue save do
    let t ← describedType type
    let a ← addressOf receiver
    let values ← each valueOf terms
    Call.invoke t a values
  | .encode type term view => encodeStep type term view
  | .decode type term save => reportValue save do
    let t ← describedType type
    let slot ← slotOf term
    Codec.decode slot t
  | .roundtrip type term save => reportValue save do
    let t ← describedType type
    let v ← valueOf term
    let (slot, _) ← Codec.encode v t []
    Codec.decode slot t
  | .query type question => do
    let t ← typeOf type
    query t question
  | .catalog question => queryCatalog question
  | .runtime call => callRuntime call
  | .inspect term => do
    let v ← valueOf term
    inspect v
  | .equal a b => do
    let x ← valueOf a
    let y ← valueOf b
    let s ← store
    return .bool (Value.same s x y)
  | .slot term => do
    let slot ← slotOf term
    return slotReport slot
  | .valueBox number label => boxReport number label
  | .entryKind kind =>
    return .list [.text kind.name, .text kind.name, .bool kind.isCallable, .bool kind.isRegistered,
      .bool kind.isRecord]
  | .tag tag => return .list [.text tag.name, .text tag.name, .bool tag.isList]
  | .memberGroup group => return .text group.heading
  | .callableFlags a b => return flagsReport CallableFlag.names a b
  | .propertyFlags a b => return flagsReport PropertyFlag.names a b
  | .environment entries =>
    let o := Options.ofEnvironment fun name => entries.lookup name
    return .list [.bool o.diagnostics, .bool o.containment, .bool o.floatHold]
  | .setDiagnostics on => do
    let before : Bool ← request (.setTracing on)
    return .bool before
  | .diagnostics => do
    let on : Bool ← request .tracing
    return .bool on
  | .raise failure => throw failure

end Session
end ObjectBridge
