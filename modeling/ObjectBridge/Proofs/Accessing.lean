import ObjectBridge.Proofs.Failing

/-!
# Accessing members one after the other

An evaluation of a handle on an instance writes and reads members in the order of its arguments.
An access that fails changes nothing, but the accesses before it stay done: what a failing
evaluation leaves is what the evaluation of the arguments before the failing access leaves.
-/

namespace ObjectBridge

open Program Bridge Descriptor

variable {calls : Calls} {w w₁ w' : World}

namespace Program

variable {α β : Type} {p : Program α} {f : α → Program β} {x : α}

/-- A program that ends with its temporaries on top of the earlier ones. -/
def Piles (calls : Calls) (p : Program α) : Prop :=
  ∀ w x w', p.run calls w = (.done x, w') → ∃ top, w'.store.held = top ++ w.store.held

theorem piles_pure : Piles calls (pure x : Program α) := fun _ _ _ ran => by
  cases ran
  exact ⟨[], rfl⟩

theorem Piles.bind (first : p.Piles calls) (rest : ∀ x, (f x).Piles calls) :
    (p >>= f).Piles calls := fun w y w' ran => by
  obtain ⟨x, w₁, passed, later⟩ := run_bind_done.mp ran
  obtain ⟨older, below⟩ := first w x w₁ passed
  obtain ⟨newer, above⟩ := rest x w₁ y w' later
  exact ⟨newer ++ older, by rw [above, below, List.append_assoc]⟩

theorem Reading.piles (reading : p.Reading) : p.Piles calls := fun w x w' ran => by
  obtain ⟨_, top, read⟩ :=
    reading ⟨calls, fun _ _ _ _ => [], fun _ _ _ => [], fun _ _ _ => [], fun _ _ => []⟩ w
  rw [ran] at read
  exact ⟨top, read.held⟩

theorem piles_request {r : Request}
    (answered : ∀ (w : World) x (w' : World), w.answer calls r = (.done x, w') →
      ∃ top, w'.store.held = top ++ w.store.held) : Piles calls (request r) :=
  fun w x w' ran => answered w x w' (run_request.symm.trans ran)

theorem piles_openHandle {info : Option Token} {attachment : Option Attachment}
    {keeper : Option HandleId} :
    Piles calls (request (.openHandle info attachment keeper) : Program HandleId) :=
  piles_request fun w x w' (answered : w.openHandle info attachment keeper = _) => by
    unfold World.openHandle at answered
    dsimp only at answered
    split at answered
    · split at answered
      · cases answered
        exact ⟨[_], Store.addHandle_held _ w.store⟩
      · cases answered
    · cases answered
      exact ⟨[_], Store.addHandle_held _ w.store⟩

theorem piles_storeProperty {a : Address} {name : String} {slot : Slot} :
    Piles calls (request (.storeProperty a name slot) : Program Unit) :=
  piles_request fun w x w' (answered : w.withInstance a _ = _) => by
    rw [World.withInstance] at answered
    split at answered
    · cases answered
      exact ⟨[], rfl⟩
    · cases answered

/-- Of the temporaries of a region only those are left that its value keeps. -/
theorem Piles.region_held {keep : α → List Claim} (piles : p.Piles calls)
    (ran : (region keep p).run calls w = (.done x, w')) :
    ∃ top, w'.store.held = (Store.part top (keep x)).1 ++ w.store.held := by
  obtain ⟨w₁, passed, rfl⟩ := run_region_done ran
  obtain ⟨top, held⟩ := piles w x w₁ passed
  refine ⟨top, (Store.release_held _ _).trans ?_⟩
  simp only [World.withStore, held, List.length_append, Nat.add_sub_cancel, List.take_left,
    List.drop_left]

theorem Piles.region {keep : α → List Claim} (piles : p.Piles calls) :
    (region keep p).Piles calls := fun _ _ _ ran => by
  obtain ⟨top, held⟩ := piles.region_held ran
  exact ⟨_, held⟩

end Program

/-- A program that may fail and ends with its temporaries on top of the earlier ones. -/
def Bridge.Piles {ε α : Type} (calls : Calls) (p : ExceptT ε Program α) : Prop :=
  Program.Piles calls p.run

namespace Bridge

variable {ε α β : Type} {p : ExceptT ε Program α} {f : α → ExceptT ε Program β}

theorem piles_throw {e : ε} : Piles calls (throw e : ExceptT ε Program α) := Program.piles_pure

theorem piles_throw_bind {e : ε} : Piles calls (throw e >>= f : ExceptT ε Program β) :=
  piles_throw

theorem Reading.piles (reading : Reading p) : Piles calls p := Program.Reading.piles reading

theorem piles_lift {p : Program α} (piles : p.Piles calls) :
    Piles calls (liftM p : ExceptT ε Program α) :=
  piles.bind fun _ => Program.piles_pure

theorem Piles.bind (first : Piles calls p) (rest : ∀ x, Piles calls (f x)) :
    Piles calls (p >>= f) := by
  refine Program.Piles.bind first fun r => ?_
  cases r with
  | error e => exact Program.piles_pure
  | ok x => exact rest x

theorem piles_ofRuntime {reading : RuntimeFailure → Failure} {p : Runtime α}
    (piles : Piles calls p) : Piles calls (ofRuntime reading p) :=
  Program.Piles.bind piles fun _ => Program.piles_pure

theorem Piles.region {keep : α → List Claim} {p : Bridge α} (piles : Piles calls p) :
    Piles calls (region keep p) := by
  rw [Piles, region_eq]
  exact Program.Piles.region piles

/-- A region that keeps nothing ends with the temporaries that were there before. -/
theorem Piles.held {p : Bridge α} {x : α} (piles : Piles calls p)
    (ran : Succeeds calls (Bridge.region keepNothing p) w x w') :
    w'.store.held = w.store.held := by
  rw [Succeeds, region_eq] at ran
  obtain ⟨top, held⟩ := Program.Piles.region_held piles ran
  have nothing : keepOk keepNothing (.ok x) = [] := rfl
  rwa [nothing, Store.part_nil] at held

end Bridge

namespace Codec

theorem piles_wrapInstance {a : Address} {declared : Token} {retain : Bool} :
    Program.Piles calls (wrapInstance a declared retain) := by
  refine .region ?_
  split
  · exact Program.piles_pure
  · refine reading_store.piles.bind fun s => ?_
    extract_lets give wrap
    have wraps (actual? : Option Token) : (wrap actual?).Piles calls := by
      simp only [wrap]
      cases actual? with
      | some actual =>
        refine reading_trace.piles.bind fun _ => ?_
        split <;> exact piles_openHandle.bind fun _ => Program.piles_pure
      | none =>
        dsimp only
        split <;> exact piles_openHandle.bind fun _ => Program.piles_pure
    split
    · exact reading_liveInstance.piles.bind fun i => reading_registered.piles.bind wraps
    · exact wraps none

theorem piles_wrapRecord {a : Address} {declared : Token} :
    Program.Piles calls (wrapRecord a declared) := by
  refine .region ?_
  split
  · exact Program.piles_pure
  · refine reading_entry.piles.bind fun e => reading_registered.piles.bind fun found =>
      reading_entry.piles.bind fun infoEntry => ?_
    split <;> exact piles_openHandle.bind fun _ => Program.piles_pure

theorem piles_decodeShape {slot : Slot} {t : Token} {wanted : Shape} :
    Program.Piles calls (decodeShape slot t wanted) := by
  cases wanted with
  | text => exact reading_memory.piles.bind fun _ => Program.piles_pure
  | array element zeroTerminated fixedSize =>
    exact reading_memory.piles.bind fun _ => reading_entry.piles.bind fun _ => Program.piles_pure
  | object target => exact piles_wrapInstance
  | interface target => exact reading_store.piles.bind fun _ => piles_wrapInstance
  | record target boxed => exact piles_wrapRecord
  | list => exact piles_openHandle.bind fun _ => Program.piles_pure
  | _ => exact Program.piles_pure

theorem piles_decode {slot : Slot} {t : Token} : Bridge.Piles calls (decode slot t) :=
  .region <| reading_shape.piles.bind fun _ =>
    (Bridge.piles_lift reading_trace.piles).bind fun _ => Bridge.piles_lift piles_decodeShape

end Codec

namespace Runtime

theorem piles_storeProperty {a : Address} {property : Token} {name : String} {slot : Slot} :
    Program.Piles calls (storeProperty a property name slot) :=
  reading_database.piles.bind fun _ => reading_liveInstance.piles.bind fun _ =>
    reading_copyString.piles.bind fun _ => Program.piles_storeProperty

end Runtime

namespace Handle

variable {h : HandleId} {r : HandleRecord} {member : Token} {name : String} {v : Value}
  {arguments rest : List Argument} {f : Failure}

theorem piles_commit {m : Assignment} : Bridge.Piles calls m.commit := by
  unfold Assignment.commit
  split
  · exact piles_ofRuntime Runtime.reading_writeField.piles
  · exact piles_ofRuntime <| Runtime.reading_findProperty.piles.bind fun _ =>
      piles_lift Runtime.piles_storeProperty

/-- Looking a property up, or else a field, and then doing something with it. -/
theorem piles_member {α : Type} {onProperty onField : HandleRecord → Token → String → Bridge α}
    (property : ∀ r t spelling, Bridge.Piles calls (onProperty r t spelling))
    (field : ∀ r t spelling, Bridge.Piles calls (onField r t spelling)) :
    Bridge.Piles calls (do
      let r ← handleRecord h
      let info ← typed r
      match ← Member.findProperty info name with
      | some (t, spelling) => onProperty r t spelling
      | none =>
        match ← Member.findField info name with
        | some (t, spelling) => onField r t spelling
        | none => throw (.noMember name) : Bridge α) := by
  refine (piles_lift reading_handleRecord.piles).bind fun r => reading_typed.piles.bind fun info =>
    (piles_lift Member.reading_findProperty.piles).bind fun found => ?_
  cases found with
  | some found => exact property r found.1 found.2
  | none =>
    refine (piles_lift Member.reading_findField.piles).bind fun found => ?_
    cases found with
    | some found => exact field r found.1 found.2
    | none => exact Bridge.piles_throw

theorem piles_setBody : Bridge.Piles calls (do
    let r ← handleRecord h
    let info ← typed r
    match ← Member.findProperty info name with
    | some (t, spelling) => writeProperty r t spelling v
    | none =>
      match ← Member.findField info name with
      | some (t, spelling) => writeField r t spelling v
      | none => throw (.noMember name) : Bridge Unit) := by
  refine piles_member (fun r t spelling => ?_) fun r t spelling => ?_
  · rw [writeProperty_eq]
    exact .region (reading_prepareProperty.piles.bind fun _ => piles_commit)
  · rw [writeField_eq]
    exact .region (reading_prepareField.piles.bind fun _ => piles_commit)

theorem piles_readMember : Bridge.Piles calls (readProperty r member name) := by
  refine .region <| reading_receiver.piles.bind fun a =>
    (piles_lift reading_entry.piles).bind fun e => ?_
  dsimp only
  split
  · exact Bridge.piles_throw_bind
  · exact reading_memberType.piles.bind fun _ =>
      (piles_ofRuntime Runtime.reading_readProperty.piles).bind fun _ => Codec.piles_decode

theorem piles_readField : Bridge.Piles calls (readField r member name) :=
  .region <| reading_receiver.piles.bind fun _ => reading_memberType.piles.bind fun _ =>
    (piles_ofRuntime Runtime.reading_readField.piles).bind fun _ => Codec.piles_decode

theorem piles_get : Bridge.Piles calls (get h name) :=
  .region (piles_member (fun _ _ _ => piles_readMember) fun _ _ _ => piles_readField)

/-- Reading a member into a global. -/
def readInto (h : HandleId) (name global : String) : Bridge Unit :=
  Bridge.region keepNothing do
    let v ← get h name
    request (.assignGlobal global v)

/-- A name and an output reference read a member into a global. -/
theorem access_read {first : Argument} {global : String} (named : first.name? = some name) :
    access h (first :: .output global :: rest) = readInto h name global >>= fun _ => pure rest := by
  have chosen : access h (first :: .output global :: rest)
      = Bridge.region keepNothing (get h name >>= fun v =>
          (liftM (request (.assignGlobal global v) : Program Unit) : Bridge Unit) >>= fun _ =>
            pure rest) := by
    cases first with
    | keyword => cases named
    | value v | symbol name | output name =>
      unfold access
      simp only [named]
      rfl
  rw [chosen, readInto, ← region_map]
  exact congrArg (Bridge.region keepNothing) (bind_assoc _ _ _).symm

/-- The first arguments write a member, read one or have a wrong form. -/
theorem access_cases (first : Argument) (rest : List Argument) :
    (∃ name v, first = .keyword name v)
      ∨ (∃ name global others, first.name? = some name ∧ rest = .output global :: others)
      ∨ ∃ f, access h (first :: rest) = throw f := by
  cases first with
  | keyword name v => exact .inl ⟨name, v, rfl⟩
  | value v | symbol name | output name =>
    refine .inr ?_
    unfold access
    dsimp only
    split
    · exact .inr ⟨_, rfl⟩
    · next name named =>
      split
      · exact .inl ⟨name, _, _, named, rfl⟩
      · exact .inr ⟨_, rfl⟩

/-- Of the arguments of an access only the first ones matter, and those that follow are left. -/
theorem access_split (some : arguments ≠ [])
    (ran : Succeeds calls (access h arguments) w rest w') :
    ∃ first, first ≠ [] ∧ arguments = first ++ rest
      ∧ ∀ more, Succeeds calls (access h (first ++ more)) w more w' := by
  cases arguments with
  | nil => exact absurd rfl some
  | cons a others =>
    rcases access_cases (h := h) a others with
      ⟨name, v, rfl⟩ | ⟨name, global, others, named, rfl⟩ | ⟨f, wrong⟩
    · obtain ⟨_, w₁, done, last⟩ := succeeds_bind.mp ran
      obtain ⟨rfl, rfl⟩ := succeeds_pure.mp last
      exact ⟨[.keyword name v], List.cons_ne_nil _ _, rfl,
        fun more => succeeds_bind.mpr ⟨(), w₁, done, succeeds_pure.mpr ⟨rfl, rfl⟩⟩⟩
    · rw [access_read named] at ran
      obtain ⟨_, w₁, done, last⟩ := succeeds_bind.mp ran
      obtain ⟨rfl, rfl⟩ := succeeds_pure.mp last
      refine ⟨[a, .output global], List.cons_ne_nil _ _, rfl, fun more => ?_⟩
      rw [List.cons_append, List.cons_append, List.nil_append, access_read named]
      exact succeeds_bind.mpr ⟨(), w₁, done, succeeds_pure.mpr ⟨rfl, rfl⟩⟩
    · rw [wrong] at ran
      exact absurd ran not_succeeds_throw

/-- An access that fails changes nothing. -/
theorem untouched_of_access (ran : Fails calls (access h arguments) w f w') : w.Untouched w' := by
  cases arguments with
  | nil => exact absurd ran not_fails_pure
  | cons a others =>
    rcases access_cases (h := h) a others with
      ⟨name, v, rfl⟩ | ⟨name, global, others, named, rfl⟩ | ⟨f, wrong⟩
    · rcases fails_bind.mp ran with sets | ⟨_, w₁, _, last⟩
      · exact untouched_of_set sets
      · exact absurd last not_fails_pure
    · rw [access_read named] at ran
      rcases fails_bind.mp ran with reads | ⟨_, w₁, _, last⟩
      · exact (clean_get.before fun _ _ _ _ _ => not_fails_lift).untouched reads
      · exact absurd last not_fails_pure
    · rw [wrong] at ran
      cases ran
      exact .refl w

/-- An access gives the temporaries that it makes back. -/
theorem held_of_access (piles : ∀ name v, Program.Piles calls (request (.assignGlobal name v)))
    (ran : Succeeds calls (access h arguments) w rest w') : w'.store.held = w.store.held := by
  cases arguments with
  | nil =>
    obtain ⟨_, rfl⟩ := succeeds_pure.mp ran
    rfl
  | cons a others =>
    rcases access_cases (h := h) a others with
      ⟨name, v, rfl⟩ | ⟨name, global, others, named, rfl⟩ | ⟨f, wrong⟩
    · obtain ⟨_, w₁, done, last⟩ := succeeds_bind.mp ran
      obtain ⟨_, rfl⟩ := succeeds_pure.mp last
      exact piles_setBody.held done
    · rw [access_read named] at ran
      obtain ⟨_, w₁, done, last⟩ := succeeds_bind.mp ran
      obtain ⟨_, rfl⟩ := succeeds_pure.mp last
      exact (piles_get.bind fun v => piles_lift (piles global v)).held done
    · rw [wrong] at ran
      exact absurd ran not_succeeds_throw

/-- Every access takes at least one argument, so the limit does not matter. -/
theorem accessAll_limit {limit : Nat} (enough : arguments.length ≤ limit) :
    accessAll h limit arguments = accessAll h arguments.length arguments := by
  induction limit using Nat.strong_induction_on generalizing arguments with
  | _ limit ih =>
    cases arguments with
    | nil => cases limit <;> rfl
    | cons a others =>
      cases limit with
      | zero => exact absurd enough (Nat.not_succ_le_zero _)
      | succ limit =>
        have enough := Nat.le_of_succ_le_succ enough
        have shorter {rest : List Argument} (fewer : rest.length ≤ others.length) :
            accessAll h limit rest = accessAll h others.length rest := by
          rw [ih limit (Nat.lt_succ_self _) (Nat.le_trans fewer enough),
            ih others.length (Nat.lt_succ_of_le enough) fewer]
        change access h (a :: others) >>= accessAll h limit
          = access h (a :: others) >>= accessAll h others.length
        rcases access_cases (h := h) a others with
          ⟨name, v, rfl⟩ | ⟨name, global, later, named, rfl⟩ | ⟨f, wrong⟩
        · have written : access h (.keyword name v :: others)
              = set h name v >>= fun _ => pure others := rfl
          simp only [written, bind_assoc, pure_bind, shorter (Nat.le_refl _)]
        · simp only [access_read named, bind_assoc, pure_bind, shorter (Nat.le_succ _)]
        · rw [wrong]
          rfl

/-- One access and then others. -/
theorem succeeds_accessAll {first : List Argument} (some : first ≠ [])
    (accessed : Succeeds calls (access h (first ++ rest)) w rest w₁)
    (later : Succeeds calls (accessAll h rest.length rest) w₁ () w') :
    Succeeds calls (accessAll h (first ++ rest).length (first ++ rest)) w () w' := by
  cases first with
  | nil => exact absurd rfl some
  | cons a others =>
    refine succeeds_bind.mpr ⟨rest, w₁, accessed, ?_⟩
    have enough : rest.length ≤ (others ++ rest).length := by
      rw [List.length_append]
      exact Nat.le_add_left _ _
    exact (accessAll_limit enough).symm ▸ later

/-- Accesses of which one fails: those before it are done, and the failing one changes nothing. -/
theorem split_of_accessAll {limit : Nat} (enough : arguments.length ≤ limit)
    (ran : Fails calls (accessAll h limit arguments) w f w') :
    ∃ done rest u u', arguments = done ++ rest ∧ rest ≠ []
      ∧ Succeeds calls (accessAll h done.length done) w () u
      ∧ Fails calls (access h rest) u f u' ∧ u.Untouched w' := by
  induction limit generalizing arguments w with
  | zero => exact absurd ran not_fails_pure
  | succ limit ih =>
    cases arguments with
    | nil => exact absurd ran not_fails_pure
    | cons a others =>
      rcases fails_bind.mp ran with failed | ⟨rest, w₁, accessed, later⟩
      · exact ⟨[], a :: others, w, w', rfl, List.cons_ne_nil _ _, succeeds_pure.mpr ⟨rfl, rfl⟩,
          failed, untouched_of_access failed⟩
      · obtain ⟨first, some, parted, accesses⟩ := access_split (List.cons_ne_nil _ _) accessed
        have shorter : rest.length ≤ limit := by
          have lengths := congrArg List.length parted
          have positive := List.length_pos_iff.mpr some
          rw [List.length_append] at lengths
          omega
        obtain ⟨done, rest', u, u', rfl, left, succeeded, failed, untouched⟩ := ih shorter later
        exact ⟨first ++ done, rest', u, u', by rw [parted, List.append_assoc], left,
          succeeds_accessAll some (accesses done) succeeded, failed, untouched⟩

theorem held_of_accessAll {limit : Nat}
    (piles : ∀ name v, Program.Piles calls (request (.assignGlobal name v)))
    (ran : Succeeds calls (accessAll h limit arguments) w () w') :
    w'.store.held = w.store.held := by
  induction limit generalizing arguments w with
  | zero =>
    obtain ⟨_, rfl⟩ := succeeds_pure.mp ran
    rfl
  | succ limit ih =>
    cases arguments with
    | nil =>
      obtain ⟨_, rfl⟩ := succeeds_pure.mp ran
      rfl
    | cons a others =>
      obtain ⟨rest, w₁, accessed, later⟩ := succeeds_bind.mp ran
      exact (ih later).trans (held_of_access piles accessed)

theorem fails_finish (ran : Fails calls (finish h arguments) w f w') :
    Fails calls (accessAll h arguments.length arguments) w f w' := by
  unfold finish at ran
  split at ran
  · exact absurd ran not_fails_pure
  · rcases fails_bind.mp ran with failed | ⟨_, w₁, _, last⟩
    · exact failed
    · exact absurd last not_fails_pure

theorem succeeds_finish (ran : Succeeds calls (accessAll h arguments.length arguments) w () w') :
    Succeeds calls (finish h arguments) w (.handle h) w' := by
  unfold finish
  split
  · next lone =>
    unfold isLoneNil at lone
    split at lone
    · obtain ⟨rest, w₁, accessed, _⟩ := succeeds_bind.mp ran
      exact absurd accessed not_succeeds_throw
    · cases lone
  · exact succeeds_bind.mpr ⟨(), w', ran, succeeds_pure.mpr ⟨rfl, rfl⟩⟩

/-- A handle on an instance, typed by an object, interface or record type. -/
structure OnInstance (w : World) (h : HandleId) (info : Token) (e : Entry) : Prop where
  /-- There is an instance. -/
  bound : (w.store.handle h).isBound = true
  /-- The entry that types the handle. -/
  typed : (w.store.handle h).info = some info
  /-- The entry is known. -/
  known : w.database.entry? info = some e
  /-- The entry describes a type of instances. -/
  kind : e.kind = .object ∨ e.kind = .interface ∨ e.kind.isRecord = true

/-- Such a handle is live. -/
theorem OnInstance.live {info : Token} {e : Entry} (on : OnInstance w h info e) :
    ∃ r, w.store.handles.get? h = some r := by
  have bound := on.bound
  rw [Store.handle] at bound
  cases found : w.store.handles.get? h with
  | some r => exact ⟨r, rfl⟩
  | none =>
    rw [found] at bound
    cases bound

/-- A type of instances is neither a list nor a callable. -/
theorem plain_of_kind {e : Entry}
    (kind : e.kind = .object ∨ e.kind = .interface ∨ e.kind.isRecord = true) :
    ListCursor.isListType e = false ∧ e.kind.isCallable = false
      ∧ (decide (e.kind = .object) || decide (e.kind = .interface) || e.kind.isRecord) = true := by
  rw [ListCursor.isListType]
  cases same : e.kind <;> simp [same, EntryKind.isRecord] at kind <;>
    simp [EntryKind.isCallable, EntryKind.isRecord]

/-- Evaluating a handle on an instance accesses the members of that instance. -/
theorem run_eval {info : Token} {e : Entry} (on : OnInstance w h info e)
    (arguments : List Argument) :
    (eval h arguments).run.run calls w
      = close w.store.held.length (keepOk Value.claims)
        ((finish h arguments).run.run calls (w.withStore (w.store.hold (.handle h)))) := by
  have record : (handleRecord h).Passes calls w (w.store.handle h) w :=
    ⟨rfl, silent_handleRecord calls w⟩
  have known : (entry info).Passes calls w e w :=
    ⟨run_entry.mpr ⟨on.known, rfl⟩, silent_entry calls w⟩
  have held : (hold (.handle h)).Passes calls w () (w.withStore (w.store.hold (.handle h))) :=
    ⟨rfl, silent_hold calls w⟩
  rw [eval, region_eq, run_region]
  congr 1
  obtain ⟨list, callable, kind⟩ := plain_of_kind on.kind
  rw [(leads_bind (passes_lift record)).run, typed, on.typed, pure_bind,
    (leads_bind (passes_lift known)).run, list, callable]
  simp only [Bool.false_eq_true, if_false, kind, if_true, evalInstance, on.bound]
  exact (leads_bind (passes_lift held)).run

/-- The world in which the members are accessed. -/
abbrev entered (w : World) (h : HandleId) : World := w.withStore (w.store.hold (.handle h))

theorem held_entered (w : World) (h : HandleId) :
    (entered w h).store.held = .handle h :: w.store.held :=
  congrArg (Claim.handle h :: ·) (Store.claim_held _ _)

/-- A handle that was only kept alive is given back. -/
theorem settle_entered {r : HandleRecord} (live : w.store.handles.get? h = some r)
    (shared : 0 < r.shares) :
    (entered w h).settle w.store.held.length [] = (.done (), w) := by
  have restored : { (entered w h).store with held := w.store.held }
      = w.store.claim (.handle h) := by
    rw [← Store.claim_held (.handle h) w.store]
    rfl
  have released := Store.release_claim_handle live shared
  rw [← restored] at released
  rw [World.settle_append [.handle h] (held_entered w h), Store.part_nil]
  exact congrArg (fun r : List Address × Store =>
    (Outcome.ofFaults r.1, { w with store := r.2 })) released

/-- Setting a global in a session leaves the earlier temporaries in place. -/
theorem piles_assignGlobal (depth : Nat) (name : String) (v : Value) :
    Program.Piles (Session.calls depth) (request (.assignGlobal name v)) := by
  refine piles_request fun w _ w' (answered : (Session.calls depth).assign name v w = _) => ?_
  cases depth with
  | zero => cases answered
  | succ depth =>
    refine (Session.reading_showValue.piles.bind fun shown =>
      (reading_request (r := .note (.global name shown)) rfl).piles.bind fun _ => ?_)
      w _ w' answered
    refine piles_request fun u _ u' (stored : u.storeGlobal name v = _) => ⟨[], ?_⟩
    have kept := congrArg (fun result => result.2.store.held) stored
    exact kept.symm.trans ((Store.release_held _ _).trans (Store.claimAll_held _ _))

/-- An evaluation fails as its accesses do, and then its temporaries are given back. -/
theorem fails_eval {info : Token} {e : Entry} (on : OnInstance w h info e)
    (ran : Fails calls (eval h arguments) w f w') :
    ∃ w₁, Fails calls (accessAll h arguments.length arguments) (entered w h) f w₁
      ∧ w₁.settle w.store.held.length [] = (.done (), w') := by
  rw [Fails, run_eval on] at ran
  obtain ⟨w₁, failed, settled⟩ := close_done.mp ran
  exact ⟨w₁, fails_finish failed, settled⟩

/-- An evaluation whose accesses succeed ends with the handle itself. -/
theorem succeeds_eval {info : Token} {e : Entry} (on : OnInstance w h info e)
    (piles : ∀ name v, Program.Piles calls (request (.assignGlobal name v)))
    (ran : Succeeds calls (accessAll h arguments.length arguments) (entered w h) () w') :
    Succeeds calls (eval h arguments) w (.handle h) w' := by
  rw [Succeeds, run_eval on]
  refine close_done.mpr ⟨w', succeeds_finish ran, ?_⟩
  have held := (held_of_accessAll piles ran).trans (held_entered w h)
  exact World.settle_kept held

/-- A failing evaluation of a handle on an instance did some of its accesses, and the next one fails
and changes nothing.  So what it leaves is what the evaluation of the arguments before that access
leaves, which succeeds; nothing is taken back.  Where the first access fails, nothing changed. -/
theorem eval_fails_after (depth : Nat) (w : World) (orderly : w.Orderly) (h : HandleId)
    (info : Token) (e : Entry) (on : OnInstance w h info e) (arguments : List Argument)
    (f : Failure) (w' : World)
    (failed : Fails (Session.calls depth) (eval h arguments) w f w') :
    ∃ done rest w₁, arguments = done ++ rest ∧ rest ≠ []
      ∧ Succeeds (Session.calls depth) (Bridge.region keepNothing (eval h done)) w (.handle h) w₁
      ∧ (∃ u u', Succeeds (Session.calls depth) (accessAll h done.length done) (entered w h) () u
        ∧ Fails (Session.calls depth) (access h rest) u f u')
      ∧ w₁.Untouched w'
      ∧ (done = [] → w.Untouched w') := by
  obtain ⟨v, body, settled⟩ := fails_eval on failed
  obtain ⟨done, rest, u, u', parted, some, succeeded, refused, untouched⟩ :=
    split_of_accessAll (Nat.le_refl _) body
  obtain ⟨same, left⟩ := untouched.settle w.store.held.length []
  rw [settled] at same left
  have evaluated := succeeds_eval on (piles_assignGlobal depth) succeeded
  have given : u.settle w.store.held.length [] = (.done (), (u.settle w.store.held.length []).2) :=
    Prod.ext same.symm rfl
  refine ⟨done, rest, _, parted, some, ?_, ⟨u, u', succeeded, refused⟩, left, fun none => ?_⟩
  · rw [Succeeds, region_eq, run_region]
    exact close_done.mpr ⟨u, evaluated, given⟩
  · subst none
    obtain ⟨_, rfl⟩ := succeeds_pure.mp succeeded
    obtain ⟨r, live⟩ := on.live
    rw [settle_entered live (orderly.books.handles h r live).1] at left
    exact left

/-- An object type with a property, and an instance in which the property is three. -/
def sampleWidgetSteps : List Script.Step :=
  [.declareNamespace "Demo" "1.0", .declare (.object "Demo" "Widget" none false) (some "Widget"),
    .declare (.property "Widget" "width" (.plain .int32)
      (PropertyFlag.readable.union PropertyFlag.writable)) none,
    .require "Demo" none (some "demo"), .libraryExtract "demo" "Widget" (some "widgets"),
    .eval "widgets" [.keyword "width" (.literal (.int 3))] (some "widget")]

/-- The world in which the handle with number two is on that instance. -/
def sampleWidget : World := (Session.advanceAll 1 sampleWidgetSteps (Session.start {})).2

/-- The property is set to five, and then a member that does not exist. -/
def sampleAccesses : List Argument := [.keyword "width" (.int 5), .keyword "missing" (.int 1)]

/-- What the property is in a world. -/
def sampleWidth (w : World) : Option Slot :=
  (w.store.instances.get? (w.store.handle 2).address).bind fun i => i.properties.lookup "width"

theorem sampleWidget_onInstance : ∃ e, OnInstance sampleWidget 2 1 e := by
  have kind : (sampleWidget.database.entry? 1).map Entry.kind = some .object := by decide +kernel
  obtain ⟨e, known, object⟩ := Option.map_eq_some_iff.mp kind
  exact ⟨e, by decide +kernel, by decide +kernel, known, .inl object⟩

/-- The evaluation fails at the second argument, and the property is not what it was. -/
theorem eval_fails_partly :
    ((eval 2 sampleAccesses).run.run (Session.calls 1) sampleWidget).1
        = .done (.error (.noMember "missing"))
      ∧ sampleWidth sampleWidget = some ⟨3⟩
      ∧ sampleWidth ((eval 2 sampleAccesses).run.run (Session.calls 1) sampleWidget).2
        = some ⟨5⟩ := by
  decide +kernel

theorem eval_fails_after_second :
    ∃ done rest w₁, sampleAccesses = done ++ rest ∧ rest ≠ []
      ∧ Succeeds (Session.calls 1) (Bridge.region keepNothing (eval 2 done)) sampleWidget
        (.handle 2) w₁
      ∧ w₁.Untouched ((eval 2 sampleAccesses).run.run (Session.calls 1) sampleWidget).2 := by
  have orderly : sampleWidget.Orderly :=
    Session.boundaries_orderly 1 sampleWidgetSteps (Session.start_orderly {}) _
      (Session.last_mem_boundaries 1 sampleWidgetSteps (Session.start {}))
  obtain ⟨e, on⟩ := sampleWidget_onInstance
  have failed : ((eval 2 sampleAccesses).run.run (Session.calls 1) sampleWidget).1
      = .done (.error (.noMember "missing")) := by decide +kernel
  obtain ⟨done, rest, w₁, parted, some, succeeded, _, untouched, _⟩ := eval_fails_after 1
    sampleWidget orderly 2 1 e on sampleAccesses (.noMember "missing") _ (Prod.ext failed rfl)
  exact ⟨done, rest, w₁, parted, some, succeeded, untouched⟩

end Handle
end ObjectBridge
