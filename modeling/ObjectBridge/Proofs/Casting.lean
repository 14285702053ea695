import ObjectBridge.Proofs.Accessing

/-!
# Casting handles

A type without an instance takes over the instance of another handle.  The new handle takes a
reference of its own if either handle is typed by an object type, whatever the instance is: on a
record that is no live instance such a cast panics, and on everything else casting gives a handle on
the same address.
-/

namespace ObjectBridge

open Program Bridge Descriptor

variable {calls : Calls} {w w₁ : World} {a : Address}

/-- Whether a cast takes a reference: the target, or the type of the source, is an object type. -/
def Database.castRetains (db : Database) (target : Entry) (r : HandleRecord) : Bool :=
  decide (target.kind = .object)
    || (r.info.bind db.entry?).any fun e => decide (e.kind = .object)

namespace Store

theorem references_claim_other {c : Claim} (other : ∀ b, c ≠ .reference b) (s : Store)
    (b : Address) : (s.claim c).references b = s.references b := by
  cases c with
  | reference d => exact absurd rfl (other d)
  | handle h | closure h =>
    rw [claim]
    split <;> rfl
  | _ => rfl

theorem references_claim_reference {s : Store} (live : s.isLive a = true) (b : Address) :
    (s.claim (.reference a)).references b = s.references b + if b = a then 1 else 0 := by
  rw [isLive, Table.contains, Option.isSome_iff_exists] at live
  obtain ⟨i, found⟩ := live
  rw [claim, found]
  dsimp only
  rw [references, references, Table.get?_set]
  by_cases same : b = a
  · rw [if_pos same, if_pos same, same, found]
    rfl
  · rw [if_neg same, if_neg same]
    rfl

end Store

/-- Tracing names leaves everything as it was. -/
theorem Program.run_trace (calls : Calls) (entries : List Token) (w : World) :
    ∃ w₁, (trace entries).Passes calls w () w₁ ∧ w.Untouched w₁ ∧ w₁.memory = w.memory := by
  refine ⟨_, passes_request rfl rfl, ?_⟩
  split
  · exact ⟨(w.reading_trace entries).untouched (w.steady_trace entries),
      (World.memory_trace entries w).1⟩
  · exact ⟨.refl w, rfl⟩

namespace Handle

variable {h source : HandleId} {info : Token} {e : Entry}

/-- A handle without an instance, typed by an object, interface or record type. -/
structure OnTarget (w : World) (h : HandleId) (info : Token) (e : Entry) : Prop where
  /-- There is no instance. -/
  unbound : (w.store.handle h).isBound = false
  /-- The entry that types the handle. -/
  typed : (w.store.handle h).info = some info
  /-- The entry is known. -/
  known : w.database.entry? info = some e
  /-- The entry describes a type of instances. -/
  kind : e.kind = .object ∨ e.kind = .interface ∨ e.kind.isRecord = true

/-- A handle on an instance, typed by a known entry if it is typed at all. -/
structure OnSource (w : World) (source : HandleId) : Prop where
  /-- There is an instance. -/
  bound : (w.store.handle source).address ≠ 0
  /-- The entry that types the handle is known. -/
  typed : ∀ t, (w.store.handle source).info = some t → w.database.Has t

/-- The record of a cast: it retains the instance, or it is kept by the source. -/
def castRecord (info : Token) (source : HandleId) (a : Address) : Bool → HandleRecord
  | true => { info := some info, attachment := some ⟨a, .retained⟩ }
  | false => { info := some info, attachment := some ⟨a, .borrowed⟩, keeper := some source }

/-- Make a handle with a record. -/
def openRecord (w : World) (r : HandleRecord) : Outcome HandleId × World :=
  w.openHandle r.info r.attachment r.keeper

/-- A cast makes the handle in the end. -/
theorem run_derived (calls : Calls) (w : World) (present : a ≠ 0) (retains : Bool) :
    (derived source (some info) a retains : Program HandleId).run calls w
      = openRecord w (castRecord info source a retains) := by
  cases retains with
  | true =>
    have taken : (retained (some info) a : Program HandleId)
        = request (.openHandle (some info) (some ⟨a, .retained⟩) none) := by
      rw [retained, if_neg present]
    exact (congrArg (fun p : Program HandleId => p.run calls w) taken).trans run_request
  | false =>
    have kept : (dependent source (some info) a : Program HandleId)
        = request (.openHandle (some info) (some ⟨a, .borrowed⟩) (some source)) := if_neg present
    exact (congrArg (fun p : Program HandleId => p.run calls w) kept).trans run_request

theorem openRecord_dead (dead : w.store.isLive a = false) :
    openRecord w (castRecord info source a true) = (.stopped (.notLive a), w) :=
  if_neg (by rw [dead]; exact Bool.false_ne_true)

theorem openRecord_fine {retains : Bool} (fine : retains = true → w.store.isLive a = true) :
    openRecord w (castRecord info source a retains)
      = (.done w.store.nextHandle,
        w.withStore (w.store.addHandle (castRecord info source a retains)).2) := by
  cases retains with
  | true => exact if_pos (fine rfl)
  | false => rfl

/-- A cast looks at both types and then makes the handle. -/
theorem run_cast (calls : Calls) (known : w.database.entry? info = some e)
    (on : OnSource w source) :
    ∃ w₁, w.Untouched w₁ ∧ w₁.memory = w.memory
      ∧ (cast info source).run calls w
        = (derived source (some info) (w.store.handle source).address
            (w.database.castRetains e (w.store.handle source))).run calls w₁ := by
  obtain ⟨w₁, traced, untouched, memory⟩ := run_trace calls [info] w
  refine ⟨w₁, untouched, memory, ?_⟩
  have record : (handleRecord source).Passes calls w (w.store.handle source) w :=
    ⟨rfl, silent_handleRecord calls w⟩
  have target : (entry info).Passes calls w e w :=
    ⟨run_entry.mpr ⟨known, rfl⟩, silent_entry calls w⟩
  rw [cast, record.leads.run, target.leads.run]
  cases named : (w.store.handle source).info with
  | none =>
    have kept : w.database.castRetains e (w.store.handle source) = decide (e.kind = .object) := by
      rw [Database.castRetains, named]
      exact Bool.or_false _
    rw [kept]
    have passes : (pure false : Program Bool).Passes calls w false w := passes_pure
    refine passes.leads.run.trans (traced.leads.run.trans ?_)
    rw [Bool.or_false]
  | some t =>
    obtain ⟨f, found⟩ := (on.typed t named).entry
    have kept : w.database.castRetains e (w.store.handle source)
        = (decide (e.kind = .object) || decide (f.kind = .object)) := by
      rw [Database.castRetains, named, Option.bind_some, found, Option.any_some]
    rw [kept]
    have passes : (entry t).Passes calls w f w :=
      ⟨run_entry.mpr ⟨found, rfl⟩, silent_entry calls w⟩
    exact passes.leads.run.trans traced.leads.run

/-- Evaluating a type with a handle as its only argument casts the handle. -/
theorem run_eval_cast (on : OnTarget w h info e) (source : HandleId) :
    (eval h [.value (.handle source)]).run.run calls w
      = close w.store.held.length (keepOk Value.claims)
        ((cast info source >>= fun made => pure (.ok (.handle made))).run calls w) := by
  have record : (handleRecord h).Passes calls w (w.store.handle h) w :=
    ⟨rfl, silent_handleRecord calls w⟩
  have known : (entry info).Passes calls w e w :=
    ⟨run_entry.mpr ⟨on.known, rfl⟩, silent_entry calls w⟩
  obtain ⟨list, callable, kind⟩ := plain_of_kind on.kind
  rw [eval, region_eq, run_region]
  congr 1
  rw [(leads_bind (passes_lift record)).run, typed, on.typed, pure_bind,
    (leads_bind (passes_lift known)).run, list, callable]
  simp only [Bool.false_eq_true, if_false, kind, if_true, evalInstance, on.unbound]
  exact congrArg (fun p : Program (Except Failure Value) => p.run calls w)
    (bind_assoc (m := Program) (cast info source) _ _)

/-- What a cast leaves: a new handle on the instance of the source, and one more reference to it if
the handle retains it. -/
structure Casts (w w' : World) (info : Token) (source : HandleId) (retains : Bool) : Prop where
  /-- Nothing but the counted things changes. -/
  steady : w.Steady w'
  /-- Memory is the same. -/
  memory : w'.memory = w.memory
  /-- The new handle is on the address of the source. -/
  handle : w'.store.handles.get? w.store.nextHandle
    = some (castRecord info source (w.store.handle source).address retains)
  /-- A reference is taken exactly if the handle retains the instance. -/
  references : ∀ b, w'.store.references b = w.store.references b
    + if retains = true ∧ b = (w.store.handle source).address then 1 else 0

/-- Making the handle of a cast, whose reference goes to a live instance. -/
theorem casts_addHandle (untouched : w.Untouched w₁) (memory : w₁.memory = w.memory)
    {retains : Bool} (fine : retains = true → w.store.isLive (w.store.handle source).address) :
    Casts w
      (w₁.withStore (w₁.store.addHandle
        (castRecord info source (w.store.handle source).address retains)).2)
      info source retains where
  steady := untouched.toSteady.trans (w₁.steady_withStore _)
  memory := memory
  handle := by
    have same : w₁.store.nextHandle = w.store.nextHandle := by rw [untouched.alike.rest]
    rw [← same]
    exact Table.get?_insert_self _ _ _
  references b := by
    have before (b : Address) : w₁.store.references b = w.store.references b := by
      rw [Store.references, untouched.instances]
      rfl
    have entryOther : ∀ b, Claim.entry info ≠ .reference b := fun b same => by cases same
    have handleOther : ∀ b, Claim.handle source ≠ .reference b := fun b same => by cases same
    cases retains with
    | true =>
      have live : w₁.store.isLive (w.store.handle source).address = true := by
        rw [Store.isLive, untouched.instances]
        exact fine rfl
      change ((w₁.store.claim (.reference _)).claim (.entry info)).references b = _
      rw [Store.references_claim_other entryOther, Store.references_claim_reference live, before]
      simp only [true_and]
    | false =>
      change ((w₁.store.claim (.entry info)).claim (.handle source)).references b = _
      rw [Store.references_claim_other handleOther, Store.references_claim_other entryOther, before]
      simp only [Bool.false_eq_true, false_and, if_false, Nat.add_zero]

/-- Casting panics exactly where it takes a reference to what is no live instance.  For a handle
without an instance, typed by an object, interface or record type, and a handle on an instance, the
evaluation of the one with the other as its only argument stops and leaves everything as it was if
either type is an object type and the address is not that of a live instance.  Otherwise it gives a
new handle on the same address: one that retains the instance if either type is an object type, and
one that is kept by the other handle if not. -/
theorem eval_casts (calls : Calls) (w : World) (h source : HandleId) (info : Token) (e : Entry)
    (on : OnTarget w h info e) (there : OnSource w source) :
    let a := (w.store.handle source).address
    let retains := w.database.castRetains e (w.store.handle source)
    (retains = true ∧ w.store.isLive a = false →
      ∃ w', (eval h [.value (.handle source)]).run.run calls w = (.stopped (.notLive a), w')
        ∧ w.Untouched w')
    ∧ (retains = false ∨ w.store.isLive a = true →
      ∃ w', Succeeds calls (eval h [.value (.handle source)]) w (.handle w.store.nextHandle) w'
        ∧ Casts w w' info source retains) := by
  intro a retains
  obtain ⟨w₁, untouched, memory, ran⟩ := run_cast calls on.known there
  rw [run_derived calls w₁ there.bound] at ran
  have live : w₁.store.isLive a = w.store.isLive a := by
    rw [Store.isLive, untouched.instances]
    rfl
  constructor
  · rintro ⟨retained, dead⟩
    refine ⟨w₁, ?_, untouched⟩
    change _ = openRecord w₁ (castRecord info source a retains) at ran
    rw [retained, openRecord_dead (live.trans dead)] at ran
    rw [run_eval_cast on, run_bind, ran]
    rfl
  · intro fine
    have taken : retains = true → w.store.isLive a = true := fun retained =>
      fine.resolve_left (by rw [retained]; exact Bool.noConfusion)
    change _ = openRecord w₁ (castRecord info source a retains) at ran
    rw [openRecord_fine fun retained => live.trans (taken retained)] at ran
    have rest : w₁.store.held = w.store.held := by rw [untouched.alike.rest]
    have next : w₁.store.nextHandle = w.store.nextHandle := by rw [untouched.alike.rest]
    rw [next] at ran
    refine ⟨_, ?_, casts_addHandle untouched memory taken⟩
    rw [Succeeds, run_eval_cast on, run_bind, ran]
    refine Program.close_done.mpr ⟨_, rfl, World.settle_kept ?_⟩
    refine (Store.addHandle_held _ _).trans ?_
    rw [next, rest]

/-- An object type and a record type, handles on both, and a handle on a new record. -/
def sampleBlockSteps : List Script.Step :=
  [.declareNamespace "Demo" "1.0", .declare (.object "Demo" "Widget" none false) (some "Widget"),
    .declare (.struct "Demo" "Rect" 8) (some "Rect"), .classHandle "Widget" (some "widgets"),
    .classHandle "Rect" (some "rects"), .eval "rects" [] (some "rect")]

/-- The world in which the handle with number three owns the record. -/
def sampleBlock : World := (Session.advanceAll 1 sampleBlockSteps (Session.start {})).2

theorem sampleBlock_onSource : OnSource sampleBlock 3 where
  bound := by decide +kernel
  typed t named := by
    have info : (sampleBlock.store.handle 3).info = some 2 := by decide +kernel
    have there : (sampleBlock.database.entry? 2).isSome = true := by decide +kernel
    obtain ⟨e, known⟩ := Option.isSome_iff_exists.mp there
    rw [info] at named
    exact Option.some.inj named ▸ Database.has_of_entry known

theorem sampleBlock_onTarget (h info : Nat) {kind : EntryKind}
    (kinds : kind = .object ∨ kind.isRecord = true)
    (found : (sampleBlock.database.entry? info).map Entry.kind = some kind)
    (unbound : (sampleBlock.store.handle h).isBound = false)
    (typed : (sampleBlock.store.handle h).info = some info) :
    ∃ e, e.kind = kind ∧ OnTarget sampleBlock h info e := by
  obtain ⟨e, known, same⟩ := Option.map_eq_some_iff.mp found
  exact ⟨e, same, unbound, typed, known, same ▸ kinds.imp_right .inr⟩

/-- A record that the bridge owns is cast to an object type: the cast asks for a reference to it,
and panics. -/
theorem cast_panics :
    (sampleBlock.store.handle 3).attachment
        = some ⟨(sampleBlock.store.handle 3).address, .block⟩
      ∧ (sampleBlock.store.handle 3).address ∈ sampleBlock.store.blocks
      ∧ ((eval 1 [.value (.handle 3)]).run.run (Session.calls 1) sampleBlock).1
        = .stopped (.notLive (sampleBlock.store.handle 3).address) := by
  decide +kernel

theorem eval_casts_block :
    (∃ w', (eval 1 [.value (.handle 3)]).run.run (Session.calls 1) sampleBlock
        = (.stopped (.notLive (sampleBlock.store.handle 3).address), w') ∧ sampleBlock.Untouched w')
      ∧ ∃ w', Succeeds (Session.calls 1) (eval 2 [.value (.handle 3)]) sampleBlock (.handle 4) w'
        ∧ Casts sampleBlock w' 2 3 false := by
  have asObject : EntryKind.object = .object ∨ EntryKind.object.isRecord = true := .inl rfl
  have asRecord : EntryKind.struct = .object ∨ EntryKind.struct.isRecord = true := .inr rfl
  obtain ⟨widget, object, onWidget⟩ := sampleBlock_onTarget 1 1 asObject
    (by decide +kernel) (by decide +kernel) (by decide +kernel)
  obtain ⟨rect, record, onRect⟩ := sampleBlock_onTarget 2 2 asRecord
    (by decide +kernel) (by decide +kernel) (by decide +kernel)
  have typed : (sampleBlock.store.handle 3).info = some 2 := by decide +kernel
  have retains : sampleBlock.database.castRetains widget (sampleBlock.store.handle 3) = true := by
    rw [Database.castRetains, object]
    rfl
  have keeps : sampleBlock.database.castRetains rect (sampleBlock.store.handle 3) = false := by
    rw [Database.castRetains, typed, Option.bind_some, onRect.known, Option.any_some, record]
    rfl
  obtain ⟨dead, _⟩ := eval_casts (Session.calls 1) sampleBlock 1 3 1 widget onWidget
    sampleBlock_onSource
  obtain ⟨_, fine⟩ := eval_casts (Session.calls 1) sampleBlock 2 3 2 rect onRect
    sampleBlock_onSource
  have next : sampleBlock.store.nextHandle = 4 := by decide +kernel
  rw [keeps, next] at fine
  exact ⟨dead ⟨retains, by decide +kernel⟩, fine (.inl rfl)⟩

end Handle
end ObjectBridge
