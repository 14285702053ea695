import ObjectBridge.Proofs.Converting
import ObjectBridge.Proofs.Emitting

/-!
# Delivering a signal to a connection

A connection of a host function gets the emitter in a handle that retains it, a value for each
argument of the signal, and its user data.  Whatever goes wrong on the way becomes a warning: an
argument that cannot be converted is absent, and a host function that fails has no answer.
-/

namespace ObjectBridge
namespace Signal

open Program Descriptor

variable {calls : Calls} {w w' v : World} {signal : String} {slot : Slot} {type : Token}

theorem finds_viewedTarget (linked : w.database.Linked) (known : w.database.Has type) :
    (argumentValue.viewedTarget type).Finds w (· = w.database.viewed? type) := by
  obtain ⟨e, found⟩ := known.entry
  refine ((finds_entry found).next finds_take).next ?_
  rw [Database.viewed?, found, Option.bind_some]
  cases named : e.target? with
  | none => exact finds_pure rfl
  | some target =>
    obtain ⟨f, there⟩ :=
      (Codec.has_of_reference linked found (Codec.mem_references_of_target named)).entry
    refine (finds_entry there).next (finds_pure ?_)
    simp only [Option.filter, there, Option.any_some]

/-- The warning of an argument that was not converted. -/
def unconverted (signal : String) (f : Failure) : Event :=
  .warning (Text.redact ("signal " ++ signal ++ ": argument not converted: " ++ f.message))

/-- What becomes of an argument of a signal: the value that the host function gets in a later world,
and the warnings that are sent until then. -/
inductive Converted (calls : Calls) (signal : String) (w v : World) (slot : Slot) (type : Token) :
    Value → List Event → Prop
  /-- An instance of an object type or an interface is viewed, and retained by nothing. -/
  | viewed {target : Token} {h : HandleId} (object : w.database.viewed? type = some target)
      (free : w.database.retained slot type = []) (bound : slot.isNull = false)
      (stands : v.Stands h (some target) (some ⟨slot.address, .borrowed⟩)) :
      Converted calls signal w v slot type (.handle h) []
  /-- The null address is no instance. -/
  | absent {target : Token} (object : w.database.viewed? type = some target)
      (free : w.database.retained slot type = []) (null : slot.isNull = true) :
      Converted calls signal w v slot type .nil []
  /-- Any other argument is decoded. -/
  | decoded {top : List Claim} {taken : List Address} {w₁ w₂ : World} {x : Value}
      (plain : w.database.viewed? type = none) (before : w.Gathers w₁ top taken)
      (decodes : (Codec.decode slot type).run.run calls w₁ = (.done (.ok x), w₂)) :
      Converted calls signal w v slot type x []
  /-- Where that fails, nothing is passed, and there is one warning. -/
  | refused {top : List Claim} {taken : List Address} {w₁ w₂ : World} {f : Failure}
      (plain : w.database.viewed? type = none) (before : w.Gathers w₁ top taken)
      (refuses : (Codec.decode slot type).run.run calls w₁ = (.done (.error f), w₂)) :
      Converted calls signal w v slot type .nil [unconverted signal f]

/-- What follows the decoding of an argument. -/
def orWarn (signal : String) (outcome : Except Failure Value) : Program Value :=
  match outcome with
  | .ok x => return x
  | .error f => do
    request (.note (unconverted signal f))
    return .nil

theorem collects_orWarn (calls : Calls) (signal : String) (w : World) (f : Failure) :
    (orWarn signal (.error f)).Collects calls w [unconverted signal f] .nil
      { w with events := unconverted signal f :: w.events } [] [] := by
  have warns := collects_note calls w (unconverted signal f)
  exact warns.bind (f := fun _ => pure Value.nil) (collects_pure calls _ _)

/-- What follows the look at the type of an argument. -/
def viewOrDecode (signal : String) (slot : Slot) (type : Token) (viewed : Option Token) :
    Program Value :=
  match viewed with
  | some target =>
    if slot.isNull then return .nil
    else Handle.borrowed (some target) slot.address >>= fun h => return .handle h
  | none => (Codec.decode slot type).run >>= orWarn signal

/-- A program gathers what an argument becomes, with references to entries below it. -/
def Converts (calls : Calls) (signal : String) (slot : Slot) (type : Token) (p : Program Value)
    (w : World) : Prop :=
  ∃ x warnings w' newer,
    p.Collects calls w warnings x w' (x.claims ++ newer) (w.database.retained slot type)
      ∧ (∀ c ∈ newer, c.isEntry = true)
      ∧ ∀ w₀ v older earlier, w₀.Gathers w older earlier →
        (∀ h info attachment, w'.Stands h info attachment → v.Stands h info attachment) →
        Converted calls signal w₀ v slot type x warnings

theorem converts_view (calls : Calls) (signal : String) (slot : Slot) {target : Token}
    (viewed : w.database.viewed? type = some target) :
    Converts calls signal slot type (viewOrDecode signal slot type (some target)) w := by
  have free := Codec.retained_of_viewed viewed slot
  rw [Converts, free, viewOrDecode]
  by_cases null : slot.isNull = true
  · rw [if_pos null]
    exact ⟨.nil, [], w, [], collects_pure calls w _, by simp, fun _ _ _ _ before _ =>
      .absent (before.database ▸ viewed) (before.database ▸ free) null⟩
  · obtain ⟨_, w', newer, views, entries, h, rfl, stood⟩ :=
      Codec.yields_borrowed calls w (some target) slot.address
    have bound : slot.address ≠ 0 := fun zero => null (decide_eq_true zero)
    rw [if_neg bound] at stood
    rw [if_neg null]
    exact ⟨.handle h, [], w', newer, views, entries, fun _ _ _ _ before stands =>
      .viewed (before.database ▸ viewed) (before.database ▸ free) (Bool.eq_false_iff.mpr null)
        (stands h _ _ stood)⟩

theorem converts_decode (calls : Calls) (signal : String) (sound : w.database.Sound)
    (known : w.database.Has type) (direct : w.database.viewed? type = none)
    (live : ∀ b ∈ w.database.retained slot type, w.store.isLive b = true) :
    Converts calls signal slot type (viewOrDecode signal slot type none) w := by
  obtain ⟨outcome, w', newer, decodes, entries, _⟩ :=
    Codec.yields_decode calls slot sound known direct live
  cases outcome with
  | ok x =>
    have both := decodes.bind (f := orWarn signal) (collects_pure calls w' x)
    rw [List.append_nil (w.database.retained slot type)] at both
    exact ⟨x, [], w', newer, both, entries, fun _ _ _ _ before _ =>
      .decoded (before.database ▸ direct) before decodes.run⟩
  | error f =>
    have both := decodes.bind (collects_orWarn calls signal w' f)
    rw [List.append_nil (w.database.retained slot type)] at both
    exact ⟨.nil, [unconverted signal f], _, newer, both, entries, fun _ _ _ _ before _ =>
      .refused (before.database ▸ direct) before decodes.run⟩

/-- Converting an argument gathers what the value keeps. -/
theorem collects_argumentValue (calls : Calls) (signal : String) (sound : w.database.Sound)
    (known : w.database.Has type)
    (live : ∀ b ∈ w.database.retained slot type, w.store.isLive b = true) :
    ∃ x warnings w',
      (argumentValue signal slot type).Collects calls w warnings x w' x.claims
          (w.database.retained slot type)
        ∧ ∀ w₀ v older newer earlier later, w₀.Gathers w older earlier → w'.Gathers v newer later →
          Converted calls signal w₀ v slot type x warnings := by
  obtain ⟨_, w₁, older, looks, olderEntries, rfl⟩ :=
    (finds_viewedTarget sound.toLinked known).collects calls
  have database : w₁.database = w.database := looks.gathers.database
  have converts : Converts calls signal slot type
      (viewOrDecode signal slot type (w.database.viewed? type)) w₁ := by
    cases viewed : w.database.viewed? type with
    | some target => exact converts_view calls signal slot (database ▸ viewed)
    | none =>
      refine converts_decode calls signal (database ▸ sound) (database ▸ known) (database ▸ viewed)
        fun b member => ?_
      rw [database] at member
      rw [looks.gathers.isLive]
      exact live b member
  obtain ⟨x, warnings, w₂, newer, rest, newerEntries, converted⟩ := converts
  rw [database] at rest
  obtain ⟨w', collects, stands⟩ := looks.region_bind Value.claims olderEntries rest newerEntries
  exact ⟨x, warnings, w', collects, fun w₀ v _ _ _ _ before after =>
    converted w₀ v _ _ (before.trans looks.gathers) fun h info attachment stood =>
      after.stands (stands h info attachment stood)⟩

/-- Converting the arguments one after the other gathers what their values keep. -/
theorem collects_argumentValues (calls : Calls) (signal : String) (slots : List Slot)
    {types : List Token} (sound : w.database.Sound) (known : ∀ t ∈ types, w.database.Has t)
    (live : ∀ p ∈ slots.zip types, ∀ b ∈ w.database.retained p.1 p.2, w.store.isLive b = true) :
    ∃ rows top w',
      (argumentValues signal slots types).Collects calls w (rows.flatMap Prod.snd)
          (rows.map Prod.fst) w' top
          ((slots.zip types).flatMap fun p => w.database.retained p.1 p.2)
        ∧ ∀ w₀ v older newer earlier later, w₀.Gathers w older earlier → w'.Gathers v newer later →
          List.Forall₂ (fun p row => Converted calls signal w₀ v p.1 p.2 row.1 row.2)
            (slots.zip types) rows := by
  induction slots generalizing types w with
  | nil => exact ⟨[], [], w, collects_pure calls w [], fun _ _ _ _ _ _ _ _ => .nil⟩
  | cons slot slots ih =>
    cases types with
    | nil => exact ⟨[], [], w, collects_pure calls w [], fun _ _ _ _ _ _ _ _ => .nil⟩
    | cons type types =>
      obtain ⟨x, warnings, w₁, first, converted⟩ :=
        collects_argumentValue calls signal sound (known type List.mem_cons_self)
          (live (slot, type) List.mem_cons_self)
      have database : w₁.database = w.database := first.gathers.database
      have there : ∀ t ∈ types, w₁.database.Has t := fun t member =>
        database ▸ known t (List.mem_cons_of_mem type member)
      obtain ⟨rows, top, w₂, others, rest⟩ := ih (w := w₁) (database ▸ sound) there
        fun p member b retained => by
          rw [database] at retained
          rw [first.gathers.isLive]
          exact live p (List.mem_cons_of_mem _ member) b retained
      refine ⟨(x, warnings) :: rows, top ++ x.claims, w₂, ?_, fun w₀ v _ _ _ _ before after => ?_⟩
      · have kept := others.map (x :: ·)
        rw [database] at kept
        exact first.bind (f := fun v => argumentValues signal slots types >>= fun vs =>
          pure (v :: vs)) kept
      · exact .cons (converted w₀ v _ _ _ _ before (others.gathers.trans after))
          (rest w₀ v _ _ _ _ (before.trans first.gathers) after)

/-- Taking a share of the handles among some values. -/
theorem collects_holdAll (calls : Calls) (values : List Value) (w : World) :
    ∃ top w',
      (forEach (fun x : Value => forEach hold x.claims) values).Collects calls w [] () w' top [] := by
  induction values generalizing w with
  | nil => exact ⟨[], w, collects_pure calls w ()⟩
  | cons x rest ih =>
    have one : ∃ top w', (forEach hold x.claims).Collects calls w [] () w' top [] := by
      cases x with
      | handle h =>
        have holds : (hold (.handle h)).Passes calls w ()
            (w.withStore (w.store.hold (.handle h))) := passes_request rfl rfl
        exact ⟨_, _, (holds.collects (w.gathers_hold h)).map id⟩
      | _ => exact ⟨[], w, collects_pure calls w ()⟩
    obtain ⟨older, w₁, first⟩ := one
    obtain ⟨newer, w₂, others⟩ := ih w₁
    exact ⟨newer ++ older, w₂,
      first.bind (f := fun _ => forEach (fun x : Value => forEach hold x.claims) rest) others⟩

/-- The entry that types the handle of a live instance: that of its runtime type where that is
registered. -/
def runtimeType (w : World) (a : Address) (declared : Token) : Token :=
  match w.store.instances.get? a with
  | some i => (w.database.typeOf? i.number).getD declared
  | none => declared

/-- What a connection of a host function needs in a world to be delivered some arguments. -/
structure Suits (r : Relay) (w : World) (extras : List Slot) : Prop where
  /-- The signal is there. -/
  signal : w.database.Has r.signal
  /-- The types of its arguments are there. -/
  types : ∀ t ∈ r.argumentTypes, w.database.Has t
  /-- A record that is retained is live. -/
  extras : ∀ p ∈ extras.zip r.argumentTypes, ∀ b ∈ w.database.retained p.1 p.2,
    w.store.isLive b = true

/-- What the host function of a connection gets: the handle of the emitter, a value for each
argument of the signal, and the user data. -/
def passed (r : Relay) (h : HandleId) (rows : List (Value × List Event)) : List Value :=
  .handle h :: rows.map Prod.fst ++ r.userData.toList

/-- The handle of the emitter and the values of the arguments are ready for a call of the host
function of a connection, and the warnings were sent. -/
structure Prepared (calls : Calls) (signal : String) (r : Relay) (a : Address) (extras : List Slot)
    (w v : World) (h : HandleId) (rows : List (Value × List Event))
    (noted : List (World × Request)) : Prop where
  /-- The handle retains the emitter and is typed after its runtime type. -/
  emitter : v.Stands h (some (runtimeType w a r.emitterType)) (some ⟨a, .retained⟩)
  /-- Each argument is converted. -/
  converted : List.Forall₂ (fun p row => Converted calls signal w v p.1 p.2 row.1 row.2)
    (extras.zip r.argumentTypes) rows
  /-- The count of the emitter is raised by one, and so are those of records that are retained. -/
  raised : ∀ b, w.store.isLive b = true → v.store.references b = w.store.references b
    + (a :: (extras.zip r.argumentTypes).flatMap fun p => w.database.retained p.1 p.2).count b
  /-- Only arguments that were not converted were warned of. -/
  warned : noted.map Prod.snd = (rows.flatMap Prod.snd).map .note

/-- The warning of a host function that failed. -/
def failed (signal message : String) : Event :=
  .warning (Text.redact ("callback for signal " ++ signal ++ " failed: " ++ message))

/-- What follows the call of a host function. -/
def conclude (signal : String) (outcome : Except String Value) : Program (Option Value) :=
  match outcome with
  | .ok x => return some x
  | .error message => do
    request (.note (failed signal message))
    return none

/-- Delivering gets the arguments ready and calls the host function. -/
theorem deliver_calls (calls : Calls) (sound : w.database.Sound) {r : Relay} {a : Address}
    {extras : List Slot} (suits : Suits r w extras) (nonnull : a ≠ 0) {i : Instance}
    (live : w.store.instances.get? a = some i) {s : Entry}
    (found : w.database.entry? r.signal = some s) :
    ∃ v h rows noted, Prepared calls s.shownName r a extras w v h rows noted
      ∧ ∀ deeds outcome v',
        (request (.callHost r.target (passed r h rows)) >>= conclude s.shownName).Does calls v deeds
            outcome v' →
          (deliver r (.ofAddress a) extras).Does calls w (noted ++ deeds) outcome v' := by
  obtain ⟨_, w₁, top₁, asks, _, same⟩ := (finds_entry found).collects calls
  rw [same] at asks
  have database₁ : w₁.database = w.database := asks.gathers.database
  have live₁ : w₁.store.instances.get? a = some i := by
    rw [asks.gathers.instances, live, Option.map_some]
    simp
  obtain ⟨_, w₂, top₂, wraps, _, h, rfl, stands⟩ :=
    Codec.yields_wrapInstance calls nonnull live₁ r.emitterType
  have database₂ : w₂.database = w.database := wraps.gathers.database.trans database₁
  obtain ⟨rows, top₃, w₃, converts, converted⟩ :=
    collects_argumentValues calls s.shownName extras (database₂ ▸ sound)
      (database₂ ▸ suits.types) fun p member b retained => by
        rw [database₂] at retained
        rw [wraps.gathers.isLive, asks.gathers.isLive]
        exact suits.extras p member b retained
  obtain ⟨top₄, v, holds⟩ := collects_holdAll calls r.userData.toList w₃
  have before := asks.gathers.trans wraps.gathers
  have after := converts.gathers.trans holds.gathers
  have goes : (deliver r (.ofAddress a) extras).Warns calls w (rows.flatMap Prod.snd ++ [])
      (request (.callHost r.target (passed r h rows)) >>= conclude s.shownName) v :=
    asks.warns.trans (wraps.warns.trans (converts.warns.trans holds.warns))
  rw [List.append_nil] at goes
  obtain ⟨noted, warned, does⟩ := goes.does
  refine ⟨v, h, rows, noted,
    ⟨?_, converted w v _ _ _ _ before holds.gathers, fun b there => ?_, warned⟩, does⟩
  · have typed : runtimeType w a r.emitterType
        = (w₁.database.typeOf? i.number).getD r.emitterType := by
      rw [runtimeType, live, database₁]
    rw [typed]
    exact after.stands stands
  · rw [(before.trans after).references there]
    simp [database₂]

/-- How a delivery with the right number of slots goes: what is done, how it ends, and the world
that it leaves. -/
inductive Delivers (calls : Calls) (signal : String) (r : Relay) (a : Address) (extras : List Slot)
    (w : World) : List (World × Request) → Outcome (Option Value) → World → Prop
  /-- The host function is called once, after the warnings of arguments that were not converted. -/
  | returned {h : HandleId} {rows : List (Value × List Event)} {noted : List (World × Request)}
      {v v' : World} {x : Value} (prepared : Prepared calls signal r a extras w v h rows noted)
      (returned : calls.host r.target (passed r h rows) v = (.done (.ok x), v')) :
      Delivers calls signal r a extras w (noted ++ [(v, .callHost r.target (passed r h rows))])
        (.done (some x)) v'
  /-- If it fails, there is one further warning, and no value. -/
  | failed {h : HandleId} {rows : List (Value × List Event)} {noted : List (World × Request)}
      {v v' : World} {message : String}
      (prepared : Prepared calls signal r a extras w v h rows noted)
      (returned : calls.host r.target (passed r h rows) v = (.done (.error message), v')) :
      Delivers calls signal r a extras w
        (noted ++ [(v, .callHost r.target (passed r h rows)), (v', .note (failed signal message))])
        (.done none) { v' with events := failed signal message :: v'.events }
  /-- If it panics, so does the delivery. -/
  | stopped {h : HandleId} {rows : List (Value × List Event)} {noted : List (World × Request)}
      {v v' : World} {why : Stop} (prepared : Prepared calls signal r a extras w v h rows noted)
      (stops : calls.host r.target (passed r h rows) v = (.stopped why, v')) :
      Delivers calls signal r a extras w (noted ++ [(v, .callHost r.target (passed r h rows))])
        (.stopped why) v'

variable {a : Address} {extras : List Slot} {r : Relay}

/-- If there are as many slots as the signal declares, the host function is called. -/
theorem delivers_dispatch (calls : Calls) (sound : w.database.Sound) (suits : Suits r w extras)
    (nonnull : a ≠ 0) (live : w.store.isLive a = true) {s : Entry}
    (found : w.database.entry? r.signal = some s)
    (same : extras.length = r.argumentTypes.length) :
    ∃ deeds outcome v, Delivers calls s.shownName r a extras w deeds outcome v
      ∧ (dispatch r (.ofAddress a :: extras)).Does calls w deeds outcome v := by
  obtain ⟨i, there⟩ := Option.isSome_iff_exists.mp live
  obtain ⟨v, h, rows, noted, prepared, goes⟩ := deliver_calls calls sound suits nonnull there found
  have delivers : dispatch r (.ofAddress a :: extras) = deliver r (.ofAddress a) extras :=
    if_pos (congrArg (· + 1) same)
  rw [delivers]
  cases returned : calls.host r.target (passed r h rows) v with
  | mk outcome v' =>
    have call : (request (.callHost r.target (passed r h rows))).Does calls v
        [(v, .callHost r.target (passed r h rows))] outcome v' := does_request rfl returned
    cases outcome with
    | stopped why => exact ⟨_, _, _, .stopped prepared returned, goes _ _ _ call.bind_stopped⟩
    | done outcome =>
      cases outcome with
      | ok x =>
        have concludes : (conclude s.shownName (.ok x)).Does calls v' [] (.done (some x)) v' :=
          passes_pure.does
        exact ⟨_, _, _, .returned prepared returned, goes _ _ _ (call.bind concludes)⟩
      | error message =>
        have notes : (request (.note (failed s.shownName message)) : Program Unit).Does calls v'
            [(v', .note (failed s.shownName message))] (.done ())
            { v' with events := failed s.shownName message :: v'.events } := does_request rfl rfl
        have concludes : (conclude s.shownName (.error message)).Does calls v'
            [(v', .note (failed s.shownName message))] (.done none)
            { v' with events := failed s.shownName message :: v'.events } :=
          notes.bind passes_pure.does
        exact ⟨_, _, _, .failed prepared returned, goes _ _ _ (call.bind concludes)⟩

/-- The warning of an emission with another number of slots than the signal declares. -/
def miscounted (signal : String) (given declared : Nat) : Event :=
  .warning (Text.redact ("signal " ++ signal ++ " delivered " ++ toString given
    ++ " slots, expected " ++ toString declared))

/-- The slot that a connection answers with, given what its host function gave. -/
def answer (r : Relay) (s : Store) (x : Option Value) : Slot :=
  .ofBool (r.answersTruth && x.any (Codec.truthy s))

/-- How a connection answers an emission: what it does, the slot that it answers with, and the world
that it leaves. -/
inductive Answers (calls : Calls) (a : Address) (extras : List Slot) (w : World) :
    Reaction → List (World × Request) → Outcome Slot → World → Prop
  /-- A fixed answer takes nothing. -/
  | fixed {slot : Slot} : Answers calls a extras w (.fixed slot) [] (.done slot) w
  /-- If the number of slots is another one, the host function is not called, and there is one
  warning. -/
  | unfit {r : Relay} {s : Entry} {noted : List (World × Request)} {w' : World}
      (found : w.database.entry? r.signal = some s)
      (other : extras.length ≠ r.argumentTypes.length)
      (warned : noted.map Prod.snd
        = [.note (miscounted s.shownName (extras.length + 1) (r.argumentTypes.length + 1))])
      (after : w.Gathers w' [] []) :
      Answers calls a extras w (.relay r) noted (.done (.ofBool false)) w'
  /-- Otherwise the arguments are delivered, the temporaries are given back, and the connection
  answers with the truth of what the host function gave. -/
  | relay {r : Relay} {s : Entry} {deeds : List (World × Request)}
      {given : Outcome (Option Value)} {outcome : Outcome Slot} {v w' : World}
      (found : w.database.entry? r.signal = some s)
      (same : extras.length = r.argumentTypes.length)
      (delivers : Delivers calls s.shownName r a extras w deeds given v)
      (settles : v.Settles w.store.held.length (given.map (answer r v.store)) outcome w') :
      Answers calls a extras w (.relay r) deeds outcome w'

/-- What an emission relies on when the turn of a connection comes. -/
structure Ready (a : Address) (extras : List Slot) (reaction : Reaction) (w : World) : Prop where
  /-- The emitter is live. -/
  live : w.store.isLive a = true
  /-- The type database is in order. -/
  sound : w.database.Sound
  /-- The arguments suit the connection. -/
  suits : ∀ r, reaction = .relay r → Suits r w extras

/-- What follows a delivery. -/
def reply (r : Relay) (x : Option Value) : Program Slot := do
  let s ← store
  return answer r s x

theorem react_relay (r : Relay) (slots : List Slot) :
    react (.relay r) slots = region keepNothing (dispatch r slots >>= reply r) := by
  rw [react]
  congr 1
  refine congrArg (dispatch r slots >>= ·) (funext fun x => ?_)
  cases x <;> rfl

theorem passes_reply (calls : Calls) (r : Relay) (x : Option Value) (v : World) :
    (reply r x).Passes calls v (answer r v.store x) v := by
  have looks : (store : Program Store).Passes calls v v.store v := passes_request rfl rfl
  exact looks.bind passes_pure

/-- After delivering, the temporaries are given back, and the connection answers with the truth of
what the host function gave. -/
theorem does_react {stage : Stage} (tame : stage.Tame) (orderly : w.Orderly)
    (known : ∀ c ∈ (Reaction.relay r).claims, c.Known w.horizon) {slots : List Slot}
    {deeds : List (World × Request)} {given : Outcome (Option Value)}
    (does : (dispatch r slots).Does stage.calls w deeds given v) :
    ∃ outcome w', v.Settles w.store.held.length (given.map (answer r v.store)) outcome w'
      ∧ (react (.relay r) slots).Does stage.calls w deeds outcome w' := by
  have dispatches : (dispatch r slots).Tame w.horizon plain := tame_dispatch known
  have later := (dispatches stage tame w orderly le_rfl).onward
  rw [does.run] at later
  rw [react_relay]
  cases given with
  | stopped why => exact does.bind_stopped.region later.orderly
  | done x =>
    have whole := does.bind (passes_reply stage.calls r x v).does
    rw [List.append_nil] at whole
    exact whole.region later.orderly

/-- If the number of slots is another one, there is one warning. -/
theorem collects_unfit (calls : Calls) {s : Entry} (found : w.database.entry? r.signal = some s)
    (other : extras.length ≠ r.argumentTypes.length) (emitter : Slot) :
    ∃ w', (react (.relay r) (emitter :: extras)).Collects calls w
      [miscounted s.shownName (extras.length + 1) (r.argumentTypes.length + 1)] (.ofBool false) w'
      [] [] := by
  obtain ⟨_, w₁, older, asks, entries, same⟩ := (finds_entry found).collects calls
  rw [same] at asks
  let event (s : Entry) :=
    miscounted s.shownName (extras.length + 1) (r.argumentTypes.length + 1)
  let rest (s : Entry) : Program Slot := request (.note (event s)) >>= fun _ => reply r none
  have unfit : ¬(emitter :: extras).length = r.argumentTypes.length + 1 :=
    fun equal => other (Nat.succ.inj equal)
  have dispatches : dispatch r (emitter :: extras)
      = (entry r.signal >>= fun s => request (.note (event s)) >>= fun _ => pure none) :=
    if_neg unfit
  have whole : react (.relay r) (emitter :: extras)
      = region keepNothing (entry r.signal >>= rest) := by
    rw [react_relay, dispatches]
    rfl
  let noted : World := { w₁ with events := event s :: w₁.events }
  have replies : (reply r none).Collects calls noted [] (.ofBool false) noted [] [] := by
    have passes := passes_reply calls r none noted
    rw [answer, Option.any_none, Bool.and_false] at passes
    exact passes.collects (.refl noted)
  have warns : (rest s).Collects calls w₁ [event s] (.ofBool false) noted [] [] :=
    (collects_note calls w₁ (event s)).bind (f := fun _ => reply r none) replies
  obtain ⟨w', collects, _⟩ :=
    asks.region_bind keepNothing entries warns fun _ member => absurd member List.not_mem_nil
  exact ⟨w', whole ▸ collects⟩

/-- When its turn comes, a connection answers. -/
theorem answers_react {stage : Stage} (tame : stage.Tame) (orderly : w.Orderly) (nonnull : a ≠ 0)
    {reaction : Reaction} (known : ∀ c ∈ reaction.claims, c.Known w.horizon)
    (ready : Ready a extras reaction w) :
    ∃ deeds outcome w',
      (react reaction (.ofAddress a :: extras)).Does stage.calls w deeds outcome w'
        ∧ Answers stage.calls a extras w reaction deeds outcome w' ∧ w.Onward w' := by
  have answered : ∃ deeds outcome w',
      (react reaction (.ofAddress a :: extras)).Does stage.calls w deeds outcome w'
        ∧ Answers stage.calls a extras w reaction deeds outcome w' := by
    cases reaction with
    | fixed slot => exact ⟨[], .done slot, w, passes_pure.does, .fixed⟩
    | relay r =>
      have suits := ready.suits r rfl
      obtain ⟨s, found⟩ := suits.signal.entry
      by_cases same : extras.length = r.argumentTypes.length
      · obtain ⟨deeds, given, v, delivers, does⟩ :=
          delivers_dispatch stage.calls ready.sound suits nonnull ready.live found same
        obtain ⟨outcome, w', settles, reacts⟩ := does_react tame orderly known does
        exact ⟨deeds, outcome, w', reacts, .relay found same delivers settles⟩
      · obtain ⟨w', collects⟩ := collects_unfit stage.calls found same (.ofAddress a)
        exact ⟨_, _, w', ⟨collects.run, rfl⟩, .unfit found same collects.deeds collects.gathers⟩
  obtain ⟨deeds, outcome, w', does, answers⟩ := answered
  have reacts : (react reaction (.ofAddress a :: extras)).Tame w.horizon plain := tame_react known
  have onward := (reacts stage tame w orderly le_rfl).onward
  rw [does.run] at onward
  exact ⟨deeds, outcome, w', does, answers, onward⟩

end Signal
end ObjectBridge
