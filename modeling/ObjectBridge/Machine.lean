import ObjectBridge.Program

/-!
# Running programs

The machine answers each request of a program by looking at the world or by changing it.  Native
functions, host functions and nested steps are programs of the session again; the machine is given
what runs them, so that it can be studied for any of them.
-/

namespace ObjectBridge

/-- A state transition that may stop. -/
abbrev Action (α : Type) := World → Outcome α × World

/-- What runs the functions and the nested steps of a session. -/
structure Calls where
  /-- Run a native function with its in and out slots. -/
  native : Token → List Slot → List Slot → Action (Except String Slot × List Slot)
  /-- Run a host function with its arguments. -/
  host : Script.Target → List Value → Action (Except String Value)
  /-- Set a global of the host. -/
  assign : String → Value → Action Unit
  /-- Run a step and note how it ended. -/
  step : Script.Step → Action Unit

namespace Store

/-- Take the newest of some claims out of the temporaries. -/
def dropHeld (s : Store) (c : Claim) : Store := { s with held := s.held.erase c }

/-- Part some claims into those that are kept and the others; a claim is kept once for each time it
is listed. -/
def part : List Claim → List Claim → List Claim × List Claim
  | [], _ => ([], [])
  | c :: rest, kept =>
    if kept.contains c then
      let (staying, leaving) := part rest (kept.erase c)
      (c :: staying, leaving)
    else
      let (staying, leaving) := part rest kept
      (staying, c :: leaving)

/-- Add a claim to the temporaries. -/
def hold (s : Store) (c : Claim) : Store :=
  let s := s.claim c
  { s with held := c :: s.held }

/-- Add a handle to the store; the temporaries hold its first share. -/
def addHandle (s : Store) (r : HandleRecord) : HandleId × Store :=
  let h := s.nextHandle
  let s := s.claimAll r.claims
  (h,
    { s with
      handles := s.handles.insert h r
      nextHandle := h + 1
      held := .handle h :: s.held })

/-- Add an instance to the store, with one reference. -/
def addInstance (s : Store) (a : Address) (number : TypeNumber) (floating : Bool) : Store :=
  { s with
    instances := s.instances.insert a { number := number, floating := floating }
    created := s.created + 1 }

/-- Add a connection at the end of the connections of an instance. -/
def addConnection (s : Store) (a : Address) (i : Instance) (signal : String)
    (reaction : Reaction) : Nat × Store :=
  let id := s.nextConnection
  let c := s.nextClosure
  let connection : Connection := { id := id, signal := signal, closure := c }
  let s := s.claimAll reaction.claims
  (id,
    { s with
      closures := s.closures.insert c { reaction := reaction }
      instances := s.instances.set a { i with connections := i.connections ++ [connection] }
      nextConnection := id + 1
      nextClosure := c + 1 })

end Store

/-- Replace the value of a name in a list of named values, or add it at the end. -/
def assign {α : Type} (name : String) (value : α) : List (String × α) → List (String × α)
  | [] => [(name, value)]
  | (n, old) :: rest =>
    if n = name then (n, value) :: rest else (n, old) :: assign name value rest

/-- The claims of the value of a name in a list of named values. -/
def claimsOf (name : String) (bindings : List (String × Value)) : List Claim :=
  match bindings.lookup name with
  | some v => v.claims
  | none => []

/-- A list of named values without a name. -/
def forget {α : Type} (name : String) (bindings : List (String × α)) : List (String × α) :=
  bindings.filter fun binding => binding.1 ≠ name

namespace World

/-- Look at a live instance and do something with it. -/
def withInstance {α : Type} (w : World) (a : Address) (f : Instance → Outcome α × World) :
    Outcome α × World :=
  match w.store.instances.get? a with
  | some i => f i
  | none => (.stopped (.notLive a), w)

/-- Change the store. -/
def withStore (w : World) (store : Store) : World := { w with store := store }

/-- Change a live instance. -/
def setInstance (w : World) (a : Address) (i : Instance) : World :=
  w.withStore { w.store with instances := w.store.instances.set a i }

/-- Give back the temporaries after a mark, except for some that are kept. -/
def settle (w : World) (mark : Nat) (kept : List Claim) : Outcome Unit × World :=
  let held := w.store.held
  let newer := held.take (held.length - mark)
  let older := held.drop (held.length - mark)
  let (staying, leaving) := Store.part newer kept
  (w.withStore { w.store with held := staying ++ older }).release leaving

/-- Make a handle, which claims what it stands for.  A reference is only taken to a live
instance. -/
def openHandle (w : World) (info : Option Token) (attachment : Option Attachment)
    (keeper : Option HandleId) : Outcome HandleId × World :=
  let add : Outcome HandleId × World :=
    let (h, store) :=
      w.store.addHandle { info := info, attachment := attachment, keeper := keeper }
    (.done h, w.withStore store)
  match attachment with
  | some ⟨a, .retained⟩ => if w.store.isLive a then add else (.stopped (.notLive a), w)
  | _ => add

/-- Reserve memory for some cells, in room for at least `size` of them. -/
def place (w : World) (cells : List Cell) (size : Nat) : Address × World :=
  let (a, memory) := w.memory.place cells size
  (a, { w with memory := memory })

/-- Make a handle on a new block of zeros. -/
def openBlock (w : World) (info : Token) (size : Nat) : Outcome HandleId × World :=
  let (a, w) := w.place [] size
  (w.withStore { w.store with blocks := a :: w.store.blocks }).openHandle (some info)
    (some ⟨a, .block⟩) none

/-- The number of bytes of an instance that fields can lie in. -/
def instanceStorage : Nat := 64

/-- Make an instance with one reference. -/
def create (w : World) (number : TypeNumber) (floating : Bool) : Address × World :=
  let (a, w) := w.place [] instanceStorage
  (a, w.withStore (w.store.addInstance a number floating))

/-- Make an instance whose reference is a temporary. -/
def createHeld (w : World) (number : TypeNumber) (floating : Bool) : Address × World :=
  let (a, w) := w.create number floating
  (a, w.withStore { w.store with held := .reference a :: w.store.held })

/-- Count a reference of the session itself. -/
def balance (w : World) (f : Tally → Tally) : World :=
  w.withStore { w.store with instanceBalance := f w.store.instanceBalance }

/-- Make an instance whose reference is held by the session itself. -/
def createDirect (w : World) (number : TypeNumber) : Address × World :=
  let (a, w) := w.create number false
  (a, w.balance (·.take a))

/-- Take a reference to an instance for the session itself. -/
def takeDirect (w : World) (a : Address) : Outcome Unit × World :=
  w.withInstance a fun i =>
    (.done (), (w.setInstance a { i with references := i.references + 1 }).balance (·.take a))

/-- Give a reference of the session itself back. -/
def giveBackDirect (w : World) (a : Address) : Outcome Unit × World :=
  w.withInstance a fun _ => (w.balance (·.giveBack a)).release [.reference a]

/-- End the floating of an instance, or take a reference to it for the session itself. -/
def sinkDirect (w : World) (a : Address) : Outcome Unit × World :=
  w.withInstance a fun i =>
    if i.floating then (.done (), w.setInstance a { i with floating := false })
    else w.takeDirect a

/-- The entries that the name of an entry is read through. -/
def namePath (db : Database) : Nat → Token → List Token
  | 0, _ => []
  | limit + 1, t =>
    match (db.entry? t).bind Entry.target? with
    | some target => target :: namePath db limit target
    | none => []

/-- Trace the name of an entry: a reference is taken to each entry on the way to the name, and all
are given back. -/
def traceName (w : World) (t : Token) : World :=
  let path := namePath w.database t t
  let taken := path.foldl Tally.take w.store.ledger
  w.withStore { w.store with ledger := path.reverse.foldl Tally.giveBack taken }

/-- Run a native call while fatal signals are contained.  What was recorded before and the
dispositions are the same after the call, however it ended. -/
def contain (call : Action (Except String Slot × List Slot)) : Action NativeReply := fun w =>
  let before := w.signals
  let (outcome, w) := call { w with signals := .guarded }
  let caught := w.signals.pending
  (outcome.map fun (result, outputs) =>
      { outcome :=
          match caught with
          | some signal => .error signal
          | none => .ok result
        outputs := outputs },
    { w with signals := before })

/-- Run a native call. -/
def invoke (w : World) (call : Action (Except String Slot × List Slot)) :
    Outcome NativeReply × World :=
  if w.options.containment then contain call w
  else
    let (outcome, w) := call w
    (outcome.map fun (result, outputs) => { outcome := .ok result, outputs := outputs }, w)

/-- Bind a variable, and give back what it was bound to. -/
def bind (w : World) (name : String) (v : Value) : Outcome Unit × World :=
  let old := claimsOf name w.store.bindings
  let store := w.store.claimAll v.claims
  (w.withStore
    { store with bindings := forget name store.bindings ++ [(name, v)] }).release old

/-- Remove a variable, and give back what it was bound to. -/
def unbind (w : World) (name : String) : Outcome Bool × World :=
  let old := claimsOf name w.store.bindings
  let existed := (w.store.bindings.lookup name).isSome
  let (outcome, w) :=
    (w.withStore { w.store with bindings := forget name w.store.bindings }).release old
  (outcome.map fun _ => existed, w)

/-- Store a global, and give back what it was set to. -/
def storeGlobal (w : World) (name : String) (v : Value) : Outcome Unit × World :=
  let old := claimsOf name w.store.globals
  let store := w.store.claimAll v.claims
  (w.withStore { store with globals := assign name v store.globals }).release old

/-- Remove a global, and give back what it was set to. -/
def dropGlobal (w : World) (name : String) : Outcome Bool × World :=
  let old := claimsOf name w.store.globals
  let existed := (w.store.globals.lookup name).isSome
  let (outcome, w) :=
    (w.withStore { w.store with globals := forget name w.store.globals }).release old
  (outcome.map fun _ => existed, w)

/-- Answer a request. -/
def answer (calls : Calls) (w : World) : (r : Request) → Outcome r.Reply × World
  | .entry t =>
    match w.database.entry? t with
    | some e => (.done e, w)
    | none => (.stopped (.panicked ("unknown info token RawInfo(0x" ++ Text.hexDigits t ++ ")")), w)
  | .database => (.done w.database, w)
  | .memory => (.done w.memory, w)
  | .store => (.done w.store, w)
  | .liveInstance a => w.withInstance a fun i => (.done i, w)
  | .bench => (.done w.bench, w)
  | .options => (.done w.options, w)
  | .required => (.done w.required, w)
  | .mark => (.done w.store.held.length, w)
  | .hold c => (.done (), w.withStore (w.store.hold c))
  | .letGo c =>
    if w.store.held.contains c then (w.withStore (w.store.dropHeld c)).release [c]
    else (.done (), w)
  | .settle mark kept => w.settle mark kept
  | .openHandle info attachment keeper => w.openHandle info attachment keeper
  | .openBlock info size => w.openBlock info size
  | .place cells size =>
    let (a, w) := w.place cells size
    (.done a, w)
  | .write a cells => (.done (), { w with memory := w.memory.write a cells })
  | .create number floating =>
    let (a, w) := w.createHeld number floating
    (.done a, w)
  | .sink a => w.withInstance a fun i => (.done (), w.setInstance a { i with floating := false })
  | .storeProperty a name slot =>
    w.withInstance a fun i =>
      (.done (), w.setInstance a { i with properties := assign name slot i.properties })
  | .attach a signal reaction =>
    w.withInstance a fun i =>
      let (id, store) := w.store.addConnection a i signal reaction
      (.done id, w.withStore store)
  | .invoke callable inputs outputs => w.invoke (calls.native callable inputs outputs)
  | .callHost target arguments => calls.host target arguments w
  | .perform step => calls.step step w
  | .raise signal =>
    match w.signals.raise? signal with
    | some signals => (.done (), { w with signals := signals })
    | none => (.stopped .ended, w)
  | .note event => (.done (), { w with events := event :: w.events })
  | .assignGlobal name v => calls.assign name v w
  | .storeGlobal name v => w.storeGlobal name v
  | .dropGlobal name => w.dropGlobal name
  | .bind name v => w.bind name v
  | .unbind name => w.unbind name
  | .trace entries => (.done (), if w.tracing then entries.foldl traceName w else w)
  | .setTracing on => (.done w.tracing, { w with tracing := on })
  | .tracing => (.done w.tracing, w)
  | .createDirect number =>
    let (a, w) := w.createDirect number
    (.done a, w)
  | .takeDirect a => w.takeDirect a
  | .giveBackDirect a => w.giveBackDirect a
  | .sinkDirect a => w.sinkDirect a
  | .takeEntry t =>
    (.done (), w.withStore
      { w.store with
        ledger := w.store.ledger.take t
        entryBalance := w.store.entryBalance.take t })
  | .giveBackEntry t =>
    (.done (), w.withStore
      { w.store with
        ledger := w.store.ledger.giveBack t
        entryBalance := w.store.entryBalance.giveBack t })
  | .setDatabase db => (.done (), { w with database := db })
  | .recordRequired name version =>
    (.done (), { w with required := assign name version w.required })
  | .identify id t =>
    (.done (), { w with bench := { w.bench with identifiers := (id, t) :: w.bench.identifiers } })
  | .label name a =>
    (.done (), { w with bench := { w.bench with book := w.bench.book ++ [(name, a)] } })
  | .implement t native =>
    (.done (), { w with bench := { w.bench with natives := (t, native) :: w.bench.natives } })
  | .define name function =>
    (.done (),
      { w with bench := { w.bench with functions := (name, function) :: w.bench.functions } })
  | .stop why => (.stopped why, w)

end World

/-- Run a program. -/
def Program.run {α : Type} (calls : Calls) : Program α → Action α
  | .done value, w => (.done value, w)
  | .ask request next, w =>
    match w.answer calls request with
    | (.done reply, w) => (next reply).run calls w
    | (.stopped why, w) => (.stopped why, w)

end ObjectBridge
