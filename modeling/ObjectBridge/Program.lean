import ObjectBridge.World

/-!
# Programs of the bridge

The operations of the bridge are programs: trees of requests to the world, each followed by what
happens for every reply.  A program cannot touch the world except by its requests, so a property
that every request keeps is kept by every program.
-/

namespace ObjectBridge

/-- A request of a program to the world. -/
inductive Request where
  /-- Look at an entry. -/
  | entry (t : Token)
  /-- Look at the type database. -/
  | database
  /-- Look at native memory. -/
  | memory
  /-- Look at the counted things. -/
  | store
  /-- Look at a live instance. -/
  | liveInstance (a : Address)
  /-- Look at what the script has named. -/
  | bench
  /-- Look at the options. -/
  | options
  /-- Look at the required namespaces. -/
  | required
  /-- The number of temporaries. -/
  | mark
  /-- Claim a thing for the temporaries. -/
  | hold (c : Claim)
  /-- Give the newest temporary claim of a thing back. -/
  | letGo (c : Claim)
  /-- Give back the temporaries after a mark, except for some that are kept. -/
  | settle (mark : Nat) (kept : List Claim)
  /-- Make a handle, which claims what it stands for. -/
  | openHandle (info : Option Token) (attachment : Option Attachment) (keeper : Option HandleId)
  /-- Make a handle on a new block of zeros. -/
  | openBlock (info : Token) (size : Nat)
  /-- Reserve memory for some cells, in room for at least `size` of them. -/
  | place (cells : List Cell) (size : Nat)
  /-- Store cells in memory. -/
  | write (a : Address) (cells : List Cell)
  /-- Make an instance, whose first reference is a temporary. -/
  | create (number : TypeNumber) (floating : Bool)
  /-- End the floating of an instance, whose first reference is kept. -/
  | sink (a : Address)
  /-- Store a property of an instance. -/
  | storeProperty (a : Address) (name : String) (slot : Slot)
  /-- Add a connection to an instance; the record claims what it needs. -/
  | attach (a : Address) (signal : String) (reaction : Reaction)
  /-- Call a native function with its in and out slots. -/
  | invoke (callable : Token) (inputs outputs : List Slot)
  /-- Call a host function, which takes the temporary claims of its arguments. -/
  | callHost (target : Script.Target) (arguments : List Value)
  /-- Run a step and note how it ended. -/
  | perform (step : Script.Step)
  /-- Raise a fatal signal. -/
  | raise (signal : FatalSignal)
  /-- Note an event. -/
  | note (event : Event)
  /-- Have the host set one of its globals. -/
  | assignGlobal (name : String) (v : Value)
  /-- Store a global of the host. -/
  | storeGlobal (name : String) (v : Value)
  /-- Remove a global of the host. -/
  | dropGlobal (name : String)
  /-- Bind a variable. -/
  | bind (name : String) (v : Value)
  /-- Remove a variable. -/
  | unbind (name : String)
  /-- Trace the names of some entries, if diagnostics are traced. -/
  | trace (entries : List Token)
  /-- Switch the tracing of diagnostics. -/
  | setTracing (on : Bool)
  /-- Look whether diagnostics are traced. -/
  | tracing
  /-- Make an instance for the session itself. -/
  | createDirect (number : TypeNumber)
  /-- Take a reference to an instance for the session itself. -/
  | takeDirect (a : Address)
  /-- Give a reference of the session itself back. -/
  | giveBackDirect (a : Address)
  /-- End the floating of an instance, or take a reference to it for the session itself. -/
  | sinkDirect (a : Address)
  /-- Take a reference to an entry for the session itself. -/
  | takeEntry (t : Token)
  /-- Give a reference to an entry of the session itself back. -/
  | giveBackEntry (t : Token)
  /-- Replace the type database. -/
  | setDatabase (db : Database)
  /-- Record the version of a required namespace. -/
  | recordRequired (name version : String)
  /-- Name an entry. -/
  | identify (id : String) (t : Token)
  /-- Label an address. -/
  | label (name : String) (a : Address)
  /-- Implement a native function. -/
  | implement (t : Token) (native : Script.Native Script.Step)
  /-- Define a host function. -/
  | define (name : String) (function : Script.HostFunction Script.Step)
  /-- Stop. -/
  | stop (why : Stop)

/-- What comes back from a native call: the contained signal or else the outcome of the function,
and the out slots. -/
structure NativeReply where
  /-- The contained signal, or else the outcome of the function. -/
  outcome : Except FatalSignal (Except String Slot)
  /-- The out slots after the call. -/
  outputs : List Slot

/-- The type of the reply to a request. -/
def Request.Reply : Request → Type
  | .entry _ => Entry
  | .database => Database
  | .memory => Memory
  | .store => Store
  | .liveInstance _ => Instance
  | .bench => Bench
  | .options => Options
  | .required => List (String × String)
  | .mark => Nat
  | .openHandle _ _ _ => HandleId
  | .openBlock _ _ => HandleId
  | .place _ _ => Address
  | .create _ _ => Address
  | .createDirect _ => Address
  | .attach _ _ _ => Nat
  | .invoke _ _ _ => NativeReply
  | .callHost _ _ => Except String Value
  | .dropGlobal _ => Bool
  | .unbind _ => Bool
  | .setTracing _ => Bool
  | .tracing => Bool
  | .stop _ => Empty
  | _ => Unit

/-- A program that ends with a value. -/
inductive Program (α : Type) where
  /-- The program that has ended. -/
  | done (value : α)
  /-- A request, and what follows each reply. -/
  | ask (request : Request) (next : request.Reply → Program α)

namespace Program

variable {α β : Type}

/-- Continue after the end of a program. -/
def bind (p : Program α) (f : α → Program β) : Program β :=
  match p with
  | .done value => f value
  | .ask request next => .ask request fun reply => (next reply).bind f

instance : Monad Program where
  pure := .done
  bind := bind

/-- The program of one request. -/
def request (r : Request) : Program r.Reply := .ask r .done

/-- The program that stops at once. -/
def stop (why : Stop) : Program α := .ask (.stop why) fun impossible => nomatch impossible

/-- Look at an entry. -/
def entry (t : Token) : Program Entry := request (.entry t)

/-- Look at the type database. -/
def database : Program Database := request .database

/-- Look at native memory. -/
def memory : Program Memory := request .memory

/-- Look at the counted things. -/
def store : Program Store := request .store

/-- Look at a live instance. -/
def liveInstance (a : Address) : Program Instance := request (.liveInstance a)

/-- Look at what the script has named. -/
def bench : Program Bench := request .bench

/-- Look at what a handle stands for. -/
def handleRecord (h : HandleId) : Program HandleRecord := do
  let s ← store
  return s.handle h

/-- Claim a thing for the temporaries. -/
def hold (c : Claim) : Program Unit := request (.hold c)

/-- Give the newest temporary claim of a thing back. -/
def letGo (c : Claim) : Program Unit := request (.letGo c)

/-- Trace the names of some entries, if diagnostics are traced. -/
def trace (entries : List Token) : Program Unit := request (.trace entries)

/-- Warn the host. -/
def warn (text : String) : Program Unit := request (.note (.warning (Text.redact text)))

/-- Reserve memory for some cells and store them. -/
def placeCells (cells : List Cell) : Program Address := request (.place cells cells.length)

/-- Reserve memory for some bytes and store them. -/
def place (bytes : List UInt8) : Program Address := placeCells (Cell.ofBytes bytes)

/-- Store a text in memory as a native string. -/
def placeText (text : String) : Program Address := place (Text.encode text ++ [0])

/-- Run a program and give its temporaries back, except for those that its value keeps. -/
def region (keep : α → List Claim) (p : Program α) : Program α := do
  let mark : Nat ← request .mark
  let value ← p
  request (.settle mark (keep value))
  return value

/-- Run a program for each item, one after the other. -/
def each {γ : Type} (f : γ → Program β) : List γ → Program (List β)
  | [] => return []
  | x :: rest => do
    let y ← f x
    let ys ← each f rest
    return y :: ys

/-- Run a program for each item, one after the other. -/
def forEach {γ : Type} (f : γ → Program Unit) : List γ → Program Unit
  | [] => return ()
  | x :: rest => do
    f x
    forEach f rest

end Program

/-- A program of the object runtime, which may report a failure. -/
abbrev Runtime (α : Type) := ExceptT RuntimeFailure Program α

/-- A program that may fail. -/
abbrev Bridge (α : Type) := ExceptT Failure Program α

namespace Bridge

variable {α β : Type}

/-- The program that fails. -/
def fail (f : Failure) : Bridge α := throw f

/-- A program of the object runtime, whose failures get a reading. -/
def ofRuntime (reading : RuntimeFailure → Failure) (p : Runtime α) : Bridge α :=
  ExceptT.mk (do
    let outcome ← p.run
    return outcome.mapError reading)

/-- Run a program and give its temporaries back, except for those that its value keeps. -/
def region (keep : α → List Claim) (p : Bridge α) : Bridge α :=
  ExceptT.mk <| Program.region
    (fun outcome =>
      match outcome with
      | .ok value => keep value
      | .error _ => [])
    p.run

/-- Run a program for each item, one after the other, until one fails. -/
def each {γ : Type} (f : γ → Bridge β) : List γ → Bridge (List β)
  | [] => return []
  | x :: rest => do
    let y ← f x
    let ys ← each f rest
    return y :: ys

end Bridge

/-- The claims that nothing keeps. -/
def keepNothing {α : Type} (_ : α) : List Claim := []

end ObjectBridge
