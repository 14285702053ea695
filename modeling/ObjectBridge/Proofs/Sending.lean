import ObjectBridge.Proofs.Anchoring
import ObjectBridge.Proofs.Calling
import ObjectBridge.Proofs.Invoking
import ObjectBridge.Proofs.Lending

/-!
# The argument block of a call

A call encodes its arguments with storage of an argument block, sends the slots to its native
function, and decodes what comes back.  The call itself stores nothing anywhere.  An address of the
block can only be in its value if the native function gave that very address back as its result, and
then only under a result type whose values stand for any address.
-/

namespace ObjectBridge

open Program Bridge Descriptor

variable {calls : Calls} {w w₁ w' : World} {a : Address}

namespace Call

variable {callable : Token} {receiver : Address} {arguments : List Value}

/-- What a call sends to its native function, and the argument block that it holds meanwhile. -/
structure Sent where
  /-- The signature of the callable. -/
  signature : Signature
  /-- The name of the callable. -/
  name : String
  /-- The slots of the native call. -/
  slots : Slots
  /-- The argument block. -/
  block : Codec.ArgumentBlock

/-- A call up to its native function. -/
def send (callable : Token) (receiver : Address) (arguments : List Value) : Bridge Sent := do
  let signature ← Signature.ofCallable callable
  let name ← Descriptor.qualifiedName callable
  if !countFits signature arguments then
    throw (.argumentCount signature.arity arguments.length)
  let start ← receiverSlots signature name receiver
  let (slots, block) ← encodeArguments signature.parameters arguments start []
  return ⟨signature, name, slots, block⟩

/-- A call sends its arguments, and then it completes without the argument block. -/
theorem invoke_eq :
    invoke callable receiver arguments
      = region Value.claims (send callable receiver arguments >>= fun sent =>
          complete sent.signature sent.name callable sent.slots) := by
  unfold invoke send
  simp only [bind_assoc]
  congr 1
  refine congrArg _ (funext fun signature => congrArg _ (funext fun name => ?_))
  split
  · rfl
  · simp only [bind_assoc, pure_bind]
    rfl

theorem silent_send : Bridge.Silent (send callable receiver arguments) := by
  refine Signature.silent_ofCallable.bind fun signature =>
    (silent_lift silent_qualifiedName).bind fun name => ?_
  dsimp only
  split
  · exact silent_throw_bind
  · exact silent_receiverSlots.bind fun _ => silent_encodeArguments.bind fun _ =>
      Bridge.silent_pure

theorem reading_send : Bridge.Reading (send callable receiver arguments) := by
  refine Signature.reading_ofCallable.bind fun signature =>
    (reading_lift reading_qualifiedName).bind fun name => ?_
  dsimp only
  split
  · exact reading_throw_bind
  · exact reading_receiverSlots.bind fun _ => reading_encodeArguments.bind fun _ =>
      Bridge.reading_pure

/-- The block of several arguments is storage that was reserved while they were encoded. -/
theorem grown_encodeArguments {parameters : List SignatureParameter} {start slots : Slots}
    {block block' : Codec.ArgumentBlock}
    (ran : Succeeds calls (encodeArguments parameters arguments start block) w (slots, block') w') :
    block.Grown w block' w' := by
  induction parameters generalizing arguments start block w with
  | nil => cases arguments <;> exact Codec.grown_of_pure ran
  | cons p ps ih =>
    cases arguments with
    | nil => exact Codec.grown_of_pure ran
    | cons v vs =>
      obtain ⟨⟨slot, middle⟩, w₁, encoded, others⟩ := succeeds_bind.mp ran
      exact (Codec.held_encode encoded).grown.trans (ih others)
        (encoded.looked Codec.silent_encode Codec.reading_encode).next
        (others.looked silent_encodeArguments reading_encodeArguments).next

/-- What a call sends: the world is the same up to new storage, in which the block lies. -/
theorem sent_of_succeeds {sent : Sent}
    (ran : Succeeds calls (send callable receiver arguments) w sent w₁) :
    w.Looked w₁ ∧ ∀ a, sent.block.Owns a → w.memory.next ≤ a ∧ a < w₁.memory.next := by
  refine ⟨ran.looked silent_send reading_send, fun a owned => ?_⟩
  obtain ⟨signature, w₂, declared, rest⟩ := succeeds_bind.mp ran
  obtain ⟨name, w₃, named, rest⟩ := succeeds_bind.mp rest
  dsimp only at rest
  split at rest
  · exact absurd rest not_succeeds_throw_bind
  · obtain ⟨start, w₄, started, rest⟩ := succeeds_bind.mp rest
    obtain ⟨⟨slots, block⟩, w₅, encoded, last⟩ := succeeds_bind.mp rest
    obtain ⟨same, rfl⟩ := succeeds_pure.mp last
    cases same
    have before := ((declared.looked Signature.silent_ofCallable Signature.reading_ofCallable).trans
      (named.looked (silent_lift silent_qualifiedName)
        (reading_lift reading_qualifiedName))).trans
      (started.looked silent_receiverSlots reading_receiverSlots)
    obtain ⟨above, below⟩ := (grown_encodeArguments encoded a owned).resolve_left
      Codec.not_owns_nil
    exact ⟨Nat.le_trans before.next above, below⟩

/-- What becomes of the argument block of a call. -/
structure Contained (calls : Calls) (w : World) (callable : Token) (receiver : Address)
    (arguments : List Value) : Prop where
  /-- The call itself stores no address, in no property and in no field. -/
  stores : ∀ a, ¬(invoke callable receiver arguments).run.Stores calls w a
  /-- An address of the block is in the value only if it is the result of the native function, and
  the values of the result type stand for any address. -/
  value : ∀ v w', Succeeds calls (invoke callable receiver arguments) w v w' →
    ∃ sent w₁ reply w₂ slot, Succeeds calls (send callable receiver arguments) w sent w₁
      ∧ w₁.invoke (calls.native callable sent.slots.inputs sent.slots.outputs) = (.done reply, w₂)
      ∧ replySlot reply = .ok slot
      ∧ ∀ a, sent.block.Owns a → v.Mentions w'.store a →
        a = slot.address ∧ ∃ t, sent.signature.result = some t ∧ w₂.database.lends t = true

section Performs

variable {kind : World × Request → Prop}

theorem performs_warnOfOutputs {name : String} {outputs : List Slot}
    (performs : (warnOfOutputs name outputs).Performs calls w kind) :
    ∃ event, kind (w, .note event) := by
  unfold warnOfOutputs at performs
  split at performs
  · exact absurd performs not_performs_pure
  · exact ⟨_, performs.request⟩

/-- A call calls the native function, and it may warn. -/
theorem performs_invoke (performs : (invoke callable receiver arguments).run.Performs calls w kind) :
    (∃ u inputs outputs, kind (u, .invoke callable inputs outputs))
      ∨ ∃ u event, kind (u, .note event) := by
  rw [invoke_eq] at performs
  obtain ⟨sent, w₁, _, completes⟩ := performs_after silent_send (performs_region performs)
  rcases performs_bind completes with called | ⟨reply, w₂, _, concludes⟩
  · exact .inl ⟨w₁, _, _, (performs_lift called).request⟩
  · obtain ⟨slot, w₃, _, later⟩ := performs_after silent_except concludes
    rcases performs_bind later with warned | ⟨_, w₄, _, decoded⟩
    · exact .inr ⟨w₃, performs_warnOfOutputs (performs_lift warned)⟩
    · exact absurd decoded (Program.Silent.not_performs silent_decodeResult)

end Performs

/-- Warning changes only the events. -/
theorem run_warnOfOutputs {name : String} {outputs : List Slot}
    (ran : (warnOfOutputs name outputs).run calls w = (.done (), w')) :
    w'.database = w.database ∧ w'.store = w.store := by
  unfold warnOfOutputs at ran
  split at ran
  · cases ran
    exact ⟨rfl, rfl⟩
  · cases ran
    exact ⟨rfl, rfl⟩

/-- The value of a call stands for the result of the native function, under a result type whose
values stand for any address or for a live instance. -/
theorem mentions_complete {s : Signature} {name : String} {slots : Slots} {v : Value}
    (ran : Succeeds calls (complete s name callable slots) w v w') :
    ∃ reply w₂ slot, w.invoke (calls.native callable slots.inputs slots.outputs) = (.done reply, w₂)
      ∧ replySlot reply = .ok slot
      ∧ ∀ a, v.Mentions w'.store a → a = slot.address
        ∧ ((∃ t, s.result = some t ∧ w₂.database.lends t = true) ∨ w₂.store.isLive a = true) := by
  obtain ⟨reply, w₂, called, rest⟩ := succeeds_bind.mp ran
  obtain ⟨slot, w₃, given, rest⟩ := succeeds_bind.mp rest
  obtain ⟨gave, rfl⟩ := succeeds_except.mp given
  obtain ⟨_, w₄, warned, decoded⟩ := succeeds_bind.mp rest
  obtain ⟨database, store⟩ := run_warnOfOutputs (succeeds_lift.mp warned)
  have answered : (request (.invoke callable slots.inputs slots.outputs)).run calls w
      = w.invoke (calls.native callable slots.inputs slots.outputs) := run_request
  refine ⟨reply, w₂, slot, answered ▸ succeeds_lift.mp called, gave, fun a mentions => ?_⟩
  unfold decodeResult at decoded
  split at decoded
  · next t result =>
    obtain ⟨same, lends⟩ := Codec.mentions_decode decoded mentions
    rw [database, store] at lends
    exact ⟨same, lends.imp_left fun lends => ⟨t, result, lends⟩⟩
  · obtain ⟨rfl, _⟩ := succeeds_pure.mp decoded
    exact absurd mentions id

/-- No call lets an address of its argument block out, except as the result of the native
function. -/
theorem contained (along : calls.Along World.Anchors) (bounded : w.Bounded) :
    Contained calls w callable receiver arguments where
  stores a stores := by
    rcases performs_invoke stores with ⟨_, _, _, called⟩ | ⟨_, _, warned⟩
    · exact called
    · exact warned
  value v w' ran := by
    rw [invoke_eq] at ran
    obtain ⟨w₃, inside, rfl⟩ := ran.region
    obtain ⟨sent, w₁, sends, completes⟩ := succeeds_bind.mp inside
    obtain ⟨looked, fresh⟩ := sent_of_succeeds sends
    obtain ⟨reply, w₂, slot, called, gave, stands⟩ := mentions_complete completes
    refine ⟨sent, w₁, reply, w₂, slot, sends, called, gave, fun a owned mentions => ?_⟩
    obtain ⟨same, lends | live⟩ := stands a (mentions.of_shrunk (w₃.shrunk_settle _ _))
    · exact ⟨same, lends⟩
    · -- no instance lives in storage that was new when the native function was called
      have stays : w₁.Anchors w₂ := by
        have after := World.elementary_anchors.invoke
          (along.native callable sent.slots.inputs sent.slots.outputs) w₁
        rwa [called] at after
      obtain ⟨above, below⟩ := fresh a owned
      rcases stays.instances a live with before | ⟨later, _⟩
      · rw [Store.isLive, looked.instances] at before
        exact absurd (bounded.instances a before) (Nat.not_lt.mpr above)
      · exact absurd below (Nat.not_lt.mpr later)

end Call
end ObjectBridge
