import ObjectBridge.Machine
import ObjectBridge.Signature
import Mathlib.Tactic.Common

/-!
# Guarded calls nest

A guarded function raises signals, makes guarded calls, and returns or panics, so guarded calls form
a tree.  What a call comes to is decided by its own function alone: by the last signal that the
function itself raises, and without one by its own result.  The signals of the functions that it
calls do not matter to it, nor do its own to them, and the record and the dispositions are after
each call what they were before it.
-/

namespace ObjectBridge

/-- A function that runs guarded. -/
inductive Guarded where
  /-- It gives a result or reports an error, and has set its out slots. -/
  | returns (result : Except String Slot) (outputs : List Slot)
  /-- It panics. -/
  | panics (message : String)
  /-- It raises a fatal signal, and goes on if the process does not end. -/
  | raises (signal : FatalSignal) (next : Guarded)
  /-- It makes a guarded call and goes on with what this came to; a panic reaches it as well. -/
  | calls (callee : Guarded) (next : Outcome NativeReply → Guarded)

namespace Guarded

variable {calls : Calls}

/-- What running a guarded function does to a world. -/
def run (calls : Calls) : Guarded → Action (Except String Slot × List Slot)
  | returns result outputs, w => (.done (result, outputs), w)
  | panics message, w => (.stopped (.panicked message), w)
  | raises signal next, w =>
    match w.answer calls (.raise signal) with
    | (.done _, w) => next.run calls w
    | (.stopped why, w) => (.stopped why, w)
  | .calls callee next, w =>
    let (outcome, w) := World.contain (callee.run calls) w
    (next outcome).run calls w

/-- What a guarded call comes to, given the signals that its function raises itself and how the
function ends. -/
def conclude (raised : List FatalSignal) (ending : Outcome (Except String Slot × List Slot)) :
    Outcome NativeReply :=
  ending.map fun (result, outputs) =>
    { outcome :=
        match raised.getLast? with
        | some signal => .error signal
        | none => .ok result
      outputs := outputs }

/-- The signals that a function raises itself, in order, and how it ends. -/
def own : Guarded → List FatalSignal × Outcome (Except String Slot × List Slot)
  | returns result outputs => ([], .done (result, outputs))
  | panics message => ([], .stopped (.panicked message))
  | raises signal next => (signal :: next.own.1, next.own.2)
  | .calls callee next => (next (conclude callee.own.1 callee.own.2)).own

/-- The signals that a function raises itself, in order. -/
def raised (f : Guarded) : List FatalSignal := f.own.1

/-- What a guarded call of a function comes to. -/
def reply (f : Guarded) : Outcome NativeReply := conclude f.own.1 f.own.2

/-- The functions that run in the tree of a guarded call below it, in the order of the calls. -/
def callees : Guarded → List Guarded
  | returns _ _ => []
  | panics _ => []
  | raises _ next => next.callees
  | .calls callee next => callee :: (callee.callees ++ (next callee.reply).callees)

/-- No function that runs in the tree of a guarded call raises the same signal more than twice
itself. -/
def Moderate (f : Guarded) : Prop := ∀ g ∈ f :: f.callees, ∀ signal, g.raised.count signal ≤ 2

instance (f : Guarded) : Decidable f.Moderate :=
  decidable_of_iff
    (∀ g ∈ f :: f.callees, g.raised.count .abort ≤ 2 ∧ g.raised.count .segfault ≤ 2)
    ⟨fun each g member signal => by
      cases signal with
      | abort => exact (each g member).1
      | segfault => exact (each g member).2,
    fun moderate g member => ⟨moderate g member .abort, moderate g member .segfault⟩⟩

end Guarded

namespace Containment

/-- What a guarded function has left of the containment when it has raised some signals itself: the
last one is recorded, and only a signal that was raised twice has its default disposition back. -/
structure State.Records (s : State) (raised : List FatalSignal) : Prop where
  /-- The last signal is recorded. -/
  pending : s.pending = raised.getLast?
  /-- A signal that would end the process was raised twice. -/
  reset : ∀ signal, s.disposition signal = .terminate → 2 ≤ raised.count signal

namespace State

variable {s : State} {raised : List FatalSignal} {signal other : FatalSignal}

/-- A guarded call starts without a recorded signal. -/
theorem records_guarded : guarded.Records [] where
  pending := rfl
  reset signal ends := by cases signal <;> cases ends

@[simp]
theorem disposition_record (pending : Option FatalSignal) :
    disposition { s with pending := pending } signal = s.disposition signal := by
  cases signal <;> rfl

theorem disposition_reset_of_ne (different : other ≠ signal) :
    (s.reset signal).disposition other = s.disposition other := by
  cases signal <;> cases other <;> first | rfl | exact absurd rfl different

@[simp]
theorem pending_reset : (s.reset signal).pending = s.pending := by
  cases signal <;> rfl

/-- A signal that was raised at most once so far is recorded. -/
theorem Records.raise (records : s.Records raised) (few : (raised ++ [signal]).count signal ≤ 2) :
    ∃ s', s.raise? signal = some s' ∧ s'.Records (raised ++ [signal]) := by
  rw [List.count_append, List.count_singleton_self] at few
  have handled : s.disposition signal = .recording := by
    cases disposed : s.disposition signal with
    | recording => rfl
    | terminate =>
      have twice := records.reset signal disposed
      omega
  have earlier (other : FatalSignal) (ends : s.disposition other = .terminate) :
      2 ≤ (raised ++ [signal]).count other := by
    have twice := records.reset other ends
    rw [List.count_append]
    omega
  simp only [raise?, handled]
  refine ⟨_, rfl, ?_, fun other ends => ?_⟩
  · split <;> simp
  · split at ends
    · next repeated =>
      -- The signal was the last one, so this is its second time.
      by_cases same : other = signal
      · subst same
        have before : 0 < raised.count other :=
          List.count_pos_iff.mpr (List.mem_of_getLast? (records.pending ▸ repeated))
        rw [List.count_append, List.count_singleton_self]
        omega
      · rw [disposition_reset_of_ne same, disposition_record] at ends
        exact earlier other ends
    · rw [disposition_record] at ends
      exact earlier other ends

end State
end Containment

namespace Guarded

variable {f : Guarded} {calls : Calls}

/-- What a function of the tree calls is in the tree. -/
theorem callees_subset (f : Guarded) : ∀ g ∈ f.callees, g.callees ⊆ f.callees := by
  induction f with
  | returns result outputs => simp [callees]
  | panics message => simp [callees]
  | raises signal next ih => exact ih
  | calls callee next inner ih =>
    intro g member h below
    rcases List.mem_cons.mp member with rfl | later
    · exact List.mem_cons_of_mem _ (List.mem_append_left _ below)
    · rcases List.mem_append.mp later with inside | after
      · exact List.mem_cons_of_mem _ (List.mem_append_left _ (inner g inside below))
      · exact List.mem_cons_of_mem _ (List.mem_append_right _ (ih callee.reply g after below))

/-- A function in the tree of a moderate one is moderate. -/
theorem Moderate.callee (moderate : f.Moderate) {g : Guarded} (member : g ∈ f :: f.callees) :
    g.Moderate := by
  intro h below
  rcases List.mem_cons.mp member with rfl | inside
  · exact moderate h below
  · rcases List.mem_cons.mp below with rfl | deeper
    · exact moderate h (List.mem_cons_of_mem _ inside)
    · exact moderate h (List.mem_cons_of_mem _ (f.callees_subset g inside deeper))

/-- A guarded call comes to what its function does on its own, and restores the containment. -/
theorem contain_of_run {w : World} {signals : Containment.State}
    (ended : f.run calls { w with signals := .guarded } = (f.own.2, { w with signals := signals }))
    (recorded : signals.Records ([] ++ f.raised)) :
    World.contain (f.run calls) w = (f.reply, w) := by
  simp only [World.contain, ended, recorded.pending, List.nil_append]
  rfl

/-- A guarded function, run after some signals that it raised before, ends as it does on its own; it
leaves the last signal that it raised recorded, and changes nothing but the containment. -/
theorem run_eq (f : Guarded) (before : List FatalSignal)
    (few : ∀ signal, (before ++ f.raised).count signal ≤ 2)
    (moderate : ∀ g ∈ f.callees, ∀ signal, g.raised.count signal ≤ 2) {w : World}
    (records : w.signals.Records before) :
    ∃ signals : Containment.State, f.run calls w = (f.own.2, { w with signals := signals })
      ∧ signals.Records (before ++ f.raised) := by
  induction f generalizing before w with
  | returns result outputs =>
    exact ⟨w.signals, rfl, by simpa [raised, own] using records⟩
  | panics message =>
    exact ⟨w.signals, rfl, by simpa [raised, own] using records⟩
  | raises signal next ih =>
    have split : before ++ (raises signal next).raised = (before ++ [signal]) ++ next.raised := by
      simp [raised, own]
    rw [split] at few ⊢
    have first : (before ++ [signal]).count signal ≤ 2 := by
      have all := few signal
      rw [List.count_append] at all
      omega
    obtain ⟨s', raises, records'⟩ := records.raise first
    obtain ⟨signals, ran, left⟩ :=
      ih (before ++ [signal]) few moderate (w := { w with signals := s' }) records'
    refine ⟨signals, ?_, left⟩
    simp only [run, World.answer, raises, ran, own]
  | calls callee next inner ih =>
    -- The call starts afresh, whatever was raised before it, and its own record is forgotten.
    obtain ⟨_, ended, recorded⟩ := inner [] (fun signal => moderate callee List.mem_cons_self signal)
      (fun g member => moderate g (List.mem_cons_of_mem _ (List.mem_append_left _ member)))
      (w := { w with signals := .guarded }) Containment.State.records_guarded
    have called := contain_of_run ended recorded
    obtain ⟨signals, ran, left⟩ := ih callee.reply before few
      (fun g member => moderate g (List.mem_cons_of_mem _ (List.mem_append_right _ member))) records
    refine ⟨signals, ?_, left⟩
    simp only [run, called]
    exact ran

/-- A guarded call of a moderate function comes to what the function makes of it. -/
theorem Moderate.contain_run (moderate : f.Moderate) (w : World) :
    World.contain (f.run calls) w = (f.reply, w) := by
  have started : ({ w with signals := .guarded } : World).signals.Records [] :=
    Containment.State.records_guarded
  obtain ⟨_, ended, recorded⟩ := f.run_eq [] (fun signal => moderate f List.mem_cons_self signal)
    (fun g member => moderate g (List.mem_cons_of_mem _ member)) started
  exact contain_of_run ended recorded

/-- Each call in a tree of guarded calls, wherever it stands, comes to what its own function makes of
it: a failure that names the last signal that the function itself raised, and without one what the
function gives.  After the call, also after a panic, the world is the one before it. -/
theorem guarded_calls_nest (calls : Calls) {f : Guarded} (moderate : f.Moderate) :
    ∀ g ∈ f :: f.callees,
      (∀ w : World, World.contain (g.run calls) w = (g.reply, w))
        ∧ match g.own.2 with
          | .stopped why => g.reply = .stopped why
          | .done (result, outputs) => ∃ reply, g.reply = .done reply ∧ reply.outputs = outputs
            ∧ match g.raised.getLast? with
              | some signal => Call.replySlot reply = .error (.fatalSignal signal.name)
              | none => reply.outcome = .ok result := by
  intro g member
  have each := moderate.callee member
  refine ⟨fun w => each.contain_run w, ?_⟩
  unfold reply conclude raised
  cases g.own.2 with
  | stopped why => rfl
  | done ending =>
    refine ⟨_, rfl, rfl, ?_⟩
    cases g.own.1.getLast? with
    | some signal => rfl
    | none => rfl

/-- A function that raises a signal before and after a call whose function raises the other signal
twice in a row and then makes a call that panics. -/
def sampleTree : Guarded :=
  let innermost := raises .abort (panics "lost")
  let inner := raises .segfault (raises .segfault (.calls innermost fun _ => returns (.ok ⟨7⟩) []))
  raises .abort (.calls inner fun _ => raises .abort (returns (.ok .zero) [⟨1⟩]))

theorem guarded_calls_nest_sample :
    sampleTree.Moderate
      ∧ sampleTree.callees.map reply
        = [.done ⟨.error .segfault, []⟩, .stopped (.panicked "lost")]
      ∧ (∀ calls : Calls, ∀ g ∈ sampleTree :: sampleTree.callees, ∀ w : World,
        World.contain (g.run calls) w = (g.reply, w))
      ∧ sampleTree.reply = .done ⟨.error .abort, [⟨1⟩]⟩ := by
  have moderate : sampleTree.Moderate := by decide
  exact ⟨moderate, rfl, fun calls g member => (guarded_calls_nest calls moderate g member).1, rfl⟩

/-- A signal that is raised three times in a row ends the process, guarded or not. -/
example (calls : Calls) (next : Guarded) (w : World) :
    (World.contain ((raises .abort (raises .abort (raises .abort next))).run calls) w).1
      = .stopped .ended := rfl

end Guarded
end ObjectBridge
