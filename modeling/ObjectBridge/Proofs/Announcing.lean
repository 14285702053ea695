import ObjectBridge.Proofs.Delivering

/-!
# What an emission runs

An emission runs the connections that were on the signal when it started, each of them once and in
order, and its result is the answer of the last one.  What host functions connect on the way has to
wait for the next emission: the records of the first connections last, and nothing is put between
them.  Only a panic ends an emission before.
-/

namespace ObjectBridge
namespace Signal

open Program

variable {calls : Calls} {w : World} {a : Address} {extras : List Slot}

/-- The connections of an emission, one after the other: each answers once, in the world that the
one before it has left.  The indices are what is done, the answers, whether a panic ended it, and the
world that is left. -/
inductive Emitted (calls : Calls) (a : Address) (extras : List Slot) :
    List Reaction → World → List (World × Request) → List Slot → Outcome Unit → World → Prop
  /-- No connection is left. -/
  | nil {w : World} : Emitted calls a extras [] w [] [] (.done ()) w
  /-- A connection answers before the others. -/
  | cons {w w₁ w₂ : World} {reaction : Reaction} {rest : List Reaction}
      {deeds more : List (World × Request)} {slot : Slot} {slots : List Slot}
      {outcome : Outcome Unit}
      (first : Answers calls a extras w reaction deeds (.done slot) w₁)
      (others : Emitted calls a extras rest w₁ more slots outcome w₂) :
      Emitted calls a extras (reaction :: rest) w (deeds ++ more) (slot :: slots) outcome w₂
  /-- After a panic the others do not answer. -/
  | stopped {w w₁ : World} {reaction : Reaction} {rest : List Reaction}
      {deeds : List (World × Request)} {why : Stop}
      (first : Answers calls a extras w reaction deeds (.stopped why) w₁) :
      Emitted calls a extras (reaction :: rest) w deeds [] (.stopped why) w₁

/-- Whenever the turn of a connection comes, what the emission relies on is there. -/
def Undisturbed (calls : Calls) (a : Address) (extras : List Slot) : List Reaction → World → Prop
  | [], _ => True
  | reaction :: rest, w =>
    Ready a extras reaction w
      ∧ ∀ slot w', (react reaction (.ofAddress a :: extras)).run calls w = (.done slot, w') →
        Undisturbed calls a extras rest w'

/-- The connection records that a live instance names are live. -/
theorem closure_of_connection (orderly : w.Orderly) {i : Instance}
    (live : w.store.instances.get? a = some i) {connection : Connection}
    (member : connection ∈ i.connections) :
    ∃ closure, w.store.closures.get? connection.closure = some closure := by
  have counted : 0 < i.claims.count (.closure connection.closure) :=
    List.count_pos_iff.mpr (List.mem_map_of_mem member)
  have weight := Table.le_weight (fun i => i.claims.count (.closure connection.closure)) live
  have named := orderly.books.named connection.closure
  have present : w.store.closures.contains connection.closure = true := by
    by_contra absent
    rw [Store.namings, if_neg absent] at named
    omega
  exact Option.isSome_iff_exists.mp present

/-- What lasts of a connection while its instance stays live. -/
theorem reaction_of_lasts {w₀ : World} (orderly₀ : w₀.Orderly) (orderly : w.Orderly)
    (lasts : w₀.Lasts w) {i : Instance} (live₀ : w₀.store.instances.get? a = some i)
    (live : w.store.isLive a = true) {connection : Connection}
    (member : connection ∈ i.connections) {reaction : Reaction}
    (answers : (w₀.store.closures.get? connection.closure).map Closure.reaction = some reaction) :
    ∃ closure, w.store.closures.get? connection.closure = some closure
      ∧ closure.reaction = reaction := by
  obtain ⟨i', live'⟩ := Option.isSome_iff_exists.mp live
  have reserved := (orderly₀.books.instances a i live₀).2
  obtain ⟨j, same, grown⟩ := lasts.store.instances a reserved i' live'
  rw [live₀] at same
  cases same
  obtain ⟨closure, found⟩ := closure_of_connection orderly live' (grown.mem member)
  have below := orderly₀.instance_known live₀ connection member
  obtain ⟨before, found₀, alike⟩ := lasts.store.closures _ below closure found
  rw [found₀] at answers
  exact ⟨closure, found, alike.trans (Option.some.inj answers)⟩

/-- The first connection of a run is that of its record. -/
theorem does_runAll_cons {slots : List Slot} {c : ClosureId} {rest : List ClosureId}
    {last : Option Slot} {closure : Closure} (found : w.store.closures.get? c = some closure)
    {deeds : List (World × Request)} {outcome : Outcome (Option Slot)} {w' : World}
    (does : (react closure.reaction slots >>= fun slot => runAll slots rest (some slot)).Does calls w
      deeds outcome w') : (runAll slots (c :: rest) last).Does calls w deeds outcome w' := by
  have looks : (store : Program Store).Passes calls w w.store w := passes_request rfl rfl
  rw [runAll]
  refine looks.bind_does ?_
  rw [found]
  exact does

/-- The connections of an emission answer one after the other, and the last answer is the result. -/
theorem emitted_runAll {stage : Stage} (tame : stage.Tame) (lasting : stage.calls.Lasting)
    {w₀ : World} (orderly₀ : w₀.Orderly) (nonnull : a ≠ 0) {i : Instance}
    (live₀ : w₀.store.instances.get? a = some i) {chosen : List Connection}
    (among : ∀ c ∈ chosen, c ∈ i.connections) {reactions : List Reaction}
    (answers : chosen.map (fun c => (w₀.store.closures.get? c.closure).map Closure.reaction)
      = reactions.map some)
    (lasts : w₀.Lasts w) (orderly : w.Orderly)
    (undisturbed : Undisturbed stage.calls a extras reactions w) (last : Option Slot) :
    ∃ deeds slots outcome w',
      (runAll (.ofAddress a :: extras) (chosen.map Connection.closure) last).Does stage.calls w
          deeds (outcome.map fun _ => slots.getLast?.or last) w'
        ∧ Emitted stage.calls a extras reactions w deeds slots outcome w' ∧ w'.Orderly := by
  -- The world changes with every answer; what carries the induction is that the records and the
  -- connections of the first world last.
  induction chosen generalizing reactions w last with
  | nil =>
    cases reactions with
    | nil => exact ⟨[], [], .done (), w, passes_pure.does, .nil, orderly⟩
    | cons reaction rest => cases answers
  | cons connection chosen ih =>
    cases reactions with
    | nil => cases answers
    | cons reaction rest =>
      obtain ⟨first, others⟩ := List.cons.inj answers
      obtain ⟨ready, undisturbed⟩ := undisturbed
      obtain ⟨closure, found, rfl⟩ := reaction_of_lasts orderly₀ orderly lasts live₀ ready.live
        (among connection List.mem_cons_self) first
      obtain ⟨deeds, outcome, w₁, reacts, answered, onward⟩ :=
        answers_react tame orderly nonnull (orderly.store_known.2.2 _ closure found) ready
      cases outcome with
      | stopped why =>
        exact ⟨deeds, [], .stopped why, w₁, does_runAll_cons found reacts.bind_stopped,
          .stopped answered, onward.orderly⟩
      | done slot =>
        have later : w.Lasts w₁ := by
          have ran := Program.lasts_run lasting (react closure.reaction (.ofAddress a :: extras)) w
          rwa [reacts.run] at ran
        obtain ⟨more, slots, outcome, w₂, goes, emitted, orderly₂⟩ :=
          ih (fun c member => among c (List.mem_cons_of_mem connection member)) others
            (lasts.trans later) onward.orderly (undisturbed slot w₁ reacts.run) (some slot)
        have result : (slot :: slots).getLast?.or last = slots.getLast?.or (some slot) := by
          rw [List.getLast?_cons]
          cases slots.getLast? <;> rfl
        rw [← result] at goes
        exact ⟨deeds ++ more, slot :: slots, outcome, w₂,
          does_runAll_cons found (reacts.bind goes), .cons answered emitted, orderly₂⟩

/-- A world in which some connection records are held. -/
def holding (w : World) (chosen : List Connection) : World :=
  w.withStore (chosen.foldl (fun s c => s.hold (.closure c.closure)) w.store)

/-- An emission holds the records of its connections. -/
theorem passes_holding (calls : Calls) (chosen : List Connection) (w : World) :
    (forEach (fun c => hold (.closure c)) (chosen.map Connection.closure)).Passes calls w ()
      (holding w chosen) := by
  induction chosen generalizing w with
  | nil => exact passes_pure
  | cons c rest ih =>
    have holds : (hold (.closure c.closure)).Passes calls w ()
        (w.withStore (w.store.hold (.closure c.closure))) := passes_request rfl rfl
    exact holds.bind (ih _)

/-- The connections of an instance on a signal. -/
def chosen (i : Instance) (signal : String) : List Connection :=
  i.connections.filter fun c => c.signal = signal

/-- How the connections of an instance on a signal answer. -/
def reactions (w : World) (i : Instance) (signal : String) : List Reaction :=
  (chosen i signal).filterMap fun c => (w.store.closures.get? c.closure).map Closure.reaction

/-- Each connection of a live instance has its reaction. -/
theorem map_reactions (orderly : w.Orderly) {i : Instance}
    (live : w.store.instances.get? a = some i) (signal : String) :
    (chosen i signal).map (fun c => (w.store.closures.get? c.closure).map Closure.reaction)
      = (reactions w i signal).map some := by
  rw [reactions, List.map_filterMap_some_eq_filter_map_isSome]
  refine (List.filter_eq_self.mpr fun found member => ?_).symm
  obtain ⟨c, among, rfl⟩ := List.mem_map.mp member
  obtain ⟨closure, there⟩ := closure_of_connection orderly live (List.mem_filter.mp among).1
  rw [there]
  rfl

/-- Holding connection records keeps a world orderly. -/
theorem onward_holding {chosen : List Connection} (orderly : w.Orderly)
    (known : ∀ c ∈ chosen, c.closure < w.horizon.2) : w.Onward (holding w chosen) := by
  have holds : (forEach (fun c => hold (.closure c)) (chosen.map Connection.closure)).Tame w.horizon
      plain := tame_forEach fun c member z' later => tame_hold (by
        obtain ⟨connection, there, rfl⟩ := List.mem_map.mp member
        exact Nat.lt_of_lt_of_le (known connection there) later.2)
  have quiet := (passes_holding (Session.calls 0) chosen w).quiet
  have onward := quiet.onward holds orderly
  rwa [(passes_holding (Session.calls 0) chosen w).run] at onward

/-- An emission runs each connection that was there when it started, once and in order. -/
theorem emitted_emit {stage : Stage} (tame : stage.Tame) (lasting : stage.calls.Lasting)
    (orderly : w.Orderly) (nonnull : a ≠ 0) {i : Instance}
    (live : w.store.instances.get? a = some i) (signal : String)
    (undisturbed : Undisturbed stage.calls a extras (reactions w i signal)
      (holding w (chosen i signal))) :
    ∃ deeds slots outcome w' result w'',
      Emitted stage.calls a extras (reactions w i signal) (holding w (chosen i signal)) deeds slots
          outcome w'
        ∧ w'.Settles w.store.held.length (outcome.map fun _ => slots.getLast?) result w''
        ∧ (emit a signal extras).Does stage.calls w deeds result w'' := by
  have among : ∀ c ∈ chosen i signal, c ∈ i.connections :=
    fun c member => (List.mem_filter.mp member).1
  have looks : (liveInstance a).Passes stage.calls w i w :=
    passes_request rfl (by simp [World.answer, World.withInstance, live])
  have holds := passes_holding stage.calls (chosen i signal) w
  have held := onward_holding orderly fun c member => orderly.instance_known live c (among c member)
  have lasts : w.Lasts (holding w (chosen i signal)) := by
    have ran := Program.lasts_run lasting
      (forEach (fun c => hold (.closure c)) ((chosen i signal).map Connection.closure)) w
    rwa [holds.run] at ran
  obtain ⟨deeds, slots, outcome, w', runs, emitted, orderly'⟩ :=
    emitted_runAll tame lasting orderly nonnull live among (map_reactions orderly live signal) lasts
      held.orderly undisturbed none
  rw [Option.or_none] at runs
  have whole := looks.bind_does (f := fun i => forEach (fun c => hold (.closure c))
    ((i.connections.filter fun c => c.signal = signal).map Connection.closure) >>= fun _ =>
      runAll (.ofAddress a :: extras)
        ((i.connections.filter fun c => c.signal = signal).map Connection.closure) none)
    (holds.bind_does runs)
  obtain ⟨result, w'', settles, emits⟩ := whole.region orderly'
  exact ⟨deeds, slots, outcome, w', result, w'', emitted, settles, emits⟩

/-- An emission on a live instance runs each connection that was on the signal when it started,
exactly once and in the order of the connections, whatever the host functions do short of a panic;
each connection answers as described, and the result is the last answer. -/
theorem signal_delivery (depth : Nat) {w : World} (orderly : w.Orderly) {a : Address}
    (nonnull : a ≠ 0) {i : Instance} (live : w.store.instances.get? a = some i) (signal : String)
    (extras : List Slot)
    (undisturbed : Undisturbed (Session.calls depth) a extras (reactions w i signal)
      (holding w (chosen i signal))) :
    (chosen i signal).map (fun c => (w.store.closures.get? c.closure).map Closure.reaction)
        = (reactions w i signal).map some
      ∧ ∃ deeds slots outcome w' result w'',
        Emitted (Session.calls depth) a extras (reactions w i signal) (holding w (chosen i signal))
            deeds slots outcome w'
          ∧ w'.Settles w.store.held.length (outcome.map fun _ => slots.getLast?) result w''
          ∧ (emit a signal extras).Does (Session.calls depth) w deeds result w'' := by
  have lasting := Session.calls_lasting depth
  rw [← Session.stage_calls depth] at undisturbed lasting ⊢
  exact ⟨map_reactions orderly live signal,
    emitted_emit (Session.stage_tame depth) lasting orderly nonnull live signal undisturbed⟩

/-- An object type with a signal that passes a number and an instance and answers with a truth
value. -/
def sampleTypes : Database :=
  let types := (({} : Database).addObject "Demo" "Widget" none false).2
  let types := (types.addType (.plain .int32)).2
  let types := (types.addType (.reference 1)).2
  let types := (types.addType (.plain .boolean)).2
  (types.addSignal 1 "changed" [2, 3] 4).2

theorem sampleTypes_built : sampleTypes.Built := by
  refine .next (.next (.next (.next (.next .empty (.object "Demo" "Widget" false ?_)) (.type ?_))
    (.type ?_)) (.type ?_)) (.signal "changed" ?_ ?_ ?_)
  all_goals decide

/-- A world with a host function that connects itself to the signal of its first argument. -/
def sampleStart : World :=
  { database := sampleTypes
    bench :=
      { identifiers := [("Widget", 1)]
        functions := [("f", ⟨["sender", "number", "other"],
          [.connect "sender" "changed" (.named "f") none], none, .literal (.int 1)⟩)] } }

/-- The world after the host function was connected to the signal of an instance. -/
def sampleListening : World :=
  (Session.advanceAll 1
    [.newInstance "Widget" "w",
      .handle .retained (some (.existing "Widget")) (some "w") (some "h"),
      .connect "h" "changed" (.named "f") none] sampleStart).2

/-- The instance that the host function is connected to. -/
def sampleEmitter : Address := UInt64.size + 4096

/-- What stands there. -/
def sampleInstance : Instance :=
  { number := 100
    references := 2
    connections := [{ id := 1, signal := "changed", closure := 1 }] }

/-- A number and the emitter itself. -/
def sampleExtras : List Slot := [.ofInteger ⟨32, true⟩ 7, .ofAddress sampleEmitter]

/-- The connection of the host function. -/
def sampleRelay : Relay :=
  { signal := 7
    emitterType := 1
    target := .named "f"
    userData := none
    argumentTypes := [2, 3]
    answersTruth := true }

theorem sampleListening_orderly : sampleListening.Orderly := by
  have start : sampleStart.Orderly :=
    ⟨Store.accounted_empty (by decide +kernel), fun _ member => absurd member List.not_mem_nil⟩
  exact (Session.between_idle 1 _ start rfl _ (Session.last_mem_between 1 _ sampleStart)).1

theorem sampleListening_undisturbed :
    Undisturbed (Session.calls 2) sampleEmitter sampleExtras
      (reactions sampleListening sampleInstance "changed")
      (holding sampleListening (chosen sampleInstance "changed")) := by
  have single : reactions sampleListening sampleInstance "changed" = [.relay sampleRelay] := by
    decide +kernel
  have same : (holding sampleListening (chosen sampleInstance "changed")).database
      = sampleTypes := by decide +kernel
  rw [single]
  refine ⟨⟨by decide +kernel, same ▸ sampleTypes_built.sound, fun r equal => ?_⟩,
    fun _ _ _ => trivial⟩
  cases equal
  have free : ∀ p ∈ sampleExtras.zip sampleRelay.argumentTypes,
      sampleTypes.retained p.1 p.2 = [] := by decide +kernel
  refine ⟨same ▸ by decide, same ▸ by decide, fun p member b retained => ?_⟩
  rw [same, free p member] at retained
  cases retained

theorem signal_delivery_sample :
    let p := emit sampleEmitter "changed" sampleExtras
    (∃ deeds slots outcome w' result w'',
      Emitted (Session.calls 2) sampleEmitter sampleExtras
          (reactions sampleListening sampleInstance "changed")
          (holding sampleListening (chosen sampleInstance "changed")) deeds slots outcome w'
        ∧ w'.Settles sampleListening.store.held.length (outcome.map fun _ => slots.getLast?)
          result w''
        ∧ p.Does (Session.calls 2) sampleListening deeds result w'')
    ∧ (p.deeds (Session.calls 2) sampleListening).filterMap (fun deed =>
        match deed.2 with
        | .callHost _ arguments => some arguments
        | _ => none) = [[.handle 2, .int 7, .handle 3]]
    ∧ (p.run (Session.calls 2) sampleListening).1 = .done (some (.ofBool true)) := by
  have live : sampleListening.store.instances.get? sampleEmitter = some sampleInstance := by
    decide +kernel
  exact ⟨(signal_delivery 2 sampleListening_orderly (by decide) live "changed" sampleExtras
    sampleListening_undisturbed).2, by decide +kernel, by decide +kernel⟩

end Signal
end ObjectBridge
