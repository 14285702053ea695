import ObjectBridge.Proofs.Deeds
import ObjectBridge.Proofs.Refusing
import ObjectBridge.Signature

/-!
# Calls of native functions

A call is refused for the first reason that there is: the number of arguments, a missing receiver,
or the first argument that its type refuses.  A call that is refused does nothing.  Any other call
calls the native function exactly once, with the receiver and the encoded arguments in the order of
declaration, and its result is what the native function makes of them.
-/

namespace ObjectBridge

open Program Descriptor

variable {v : World} {t : Nat} {e : Entry}

/-- The parameter that an argument entry declares. -/
def Database.parameter? (db : Database) (argument : Token) : Option SignatureParameter :=
  (db.entry? argument).bind fun a =>
    a.declared?.map fun type => ⟨a.shownName, a.passing, type⟩

/-- The signature of a callable, as the database has it. -/
def Database.signature (db : Database) (e : Entry) : Signature :=
  let flags := if e.kind = .function then e.callableFlags else .empty
  { parameters := e.arguments.filterMap db.parameter?
    result := e.result?
    isMethod := flags.contains CallableFlag.method
    fails := flags.contains CallableFlag.fails }

/-- The name of an entry that is no type, with its namespace. -/
def Entry.fullName (e : Entry) : String :=
  if e.shownHome = "" then e.shownName else e.shownHome ++ "." ++ e.shownName

namespace Bridge

variable {ε α γ : Type}

end Bridge

namespace Signature

theorem finds_qualifiedName (found : v.database.entry? t = some e) (other : e.kind ≠ .type) :
    Finds (qualifiedName t) v (· = e.fullName) := by
  refine (finds_entry found).next ?_
  rw [if_neg other, Entry.fullName]
  split <;> exact finds_pure rfl

/-- Among slots for the parameters, those of the parameters that travel otherwise. -/
def travelling (other : Passing) (parameters : List SignatureParameter) (slots : List Slot) :
    List Slot :=
  ((parameters.zip slots).filter fun row => row.1.passing ≠ other).map Prod.snd

/-- The in slots of a call: the receiver of a method, and then the arguments that travel in. -/
def inputs (s : Signature) (receiver : Address) (slots : List Slot) : List Slot :=
  (if s.isMethod then [.ofAddress receiver] else []) ++ travelling .out s.parameters slots

/-- The out slots of a call: the arguments that travel out. -/
def outputs (s : Signature) (slots : List Slot) : List Slot := travelling .into s.parameters slots

end Signature

namespace Call

open Signature

/-- Arguments are encoded one after the other, each into a slot of its own. -/
inductive Encoded (calls : Calls) : List (SignatureParameter × Value) → Codec.ArgumentBlock →
    World → List Slot → World → Prop
  /-- There is no argument left. -/
  | nil {block : Codec.ArgumentBlock} {w : World} : Encoded calls [] block w [] w
  /-- An argument is encoded, and then the others are. -/
  | cons {p : SignatureParameter} {x : Value} {rest : List (SignatureParameter × Value)}
      {block block' : Codec.ArgumentBlock} {w w₁ w₂ : World} {slot : Slot} {slots : List Slot}
      (first : (Codec.encode x p.type block).run.run calls w = (.done (.ok (slot, block')), w₁))
      (others : Encoded calls rest block' w₁ slots w₂) :
      Encoded calls ((p, x) :: rest) block w (slot :: slots) w₂

variable {w : World} {calls : Calls} {callable : Token} {receiver : Address} {arguments : List Value}

/-- Decode the slot that a native function gave. -/
def decodeResult (s : Signature) (slot : Slot) : Bridge Value :=
  match s.result with
  | some type => Codec.decode slot type
  | none => return .nil

/-- What a call makes of the reply of the native function. -/
def conclude (s : Signature) (name : String) (outputs : List Slot) (reply : NativeReply) :
    Bridge Value := do
  let slot ← replySlot reply
  warnOfOutputs name outputs
  decodeResult s slot

/-- What a call does once its arguments are encoded. -/
def complete (s : Signature) (name : String) (callable : Token) (slots : Slots) : Bridge Value := do
  let reply : NativeReply ← request (.invoke callable slots.inputs slots.outputs)
  conclude s name slots.outputs reply

theorem Encoded.length {rows : List (SignatureParameter × Value)} {block : Codec.ArgumentBlock}
    {w' : World} {slots : List Slot} (encoded : Encoded calls rows block w slots w') :
    slots.length = rows.length := by
  induction encoded with
  | nil => rfl
  | cons first others ih => rw [List.length_cons, List.length_cons, ih]

/-- The warning of a call that succeeded, if any argument travels out. -/
def warnings (s : Signature) (name : String) : List Event :=
  let count := s.parameters.countP (·.passing ≠ .into)
  if count = 0 then []
  else
    [.warning (Text.redact ("unimplemented: positional out arguments (" ++ toString count
      ++ " ignored in " ++ name ++ ")"))]

/-- The result of a call whose native function gave a slot. -/
def resultOf (calls : Calls) (s : Signature) (slot : Slot) (w : World) :
    Outcome (Except Failure Value) :=
  match s.result with
  | some type => ((Codec.decode slot type).run.run calls w).1
  | none => .done (.ok .nil)

theorem silent_decodeResult {s : Signature} {slot : Slot} : Bridge.Silent (decodeResult s slot) := by
  unfold decodeResult
  split
  · exact Codec.silent_decode
  · exact Bridge.silent_pure

end Call
end ObjectBridge
