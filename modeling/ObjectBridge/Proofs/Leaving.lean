import ObjectBridge.Proofs.Seeking
import ObjectBridge.Proofs.Sparing
import ObjectBridge.Proofs.Unswitched

/-!
# What lookups collect

A lookup claims the entry that it gives and nothing else: what else it claimed on its way, it has
given back.  So two lookups that give the same entry end in worlds that are alike, whichever way
they went, and what is blind to the order of the ledger goes on alike after both.
-/

namespace ObjectBridge

open Program Descriptor

variable {calls : Calls} {v w w' u u' : World} {before top : List Claim}

/-- What claiming some entries makes of a world: they are the newest temporaries, and nothing else
changed but the order in which the ledger lists its counts. -/
structure World.Took (w u : World) (top : List Claim) : Prop where
  /-- All but the store is the same. -/
  rest : u = { w with store := u.store }
  /-- The temporaries are references to entries. -/
  reading : w.Reading u top

namespace World

theorem Took.refl (w : World) : w.Took w [] := ⟨rfl, .refl w⟩

theorem Took.trans (first : w.Took u before) (second : u.Took u' top) :
    w.Took u' (top ++ before) :=
  ⟨by rw [second.rest, first.rest], first.reading.trans second.reading⟩

theorem Took.settle (took : w.Took u top) (kept : List Claim) :
    w.Took (u.settle w.store.held.length kept).2 (Store.part top kept).1 := by
  refine ⟨?_, (took.reading.settle kept).2⟩
  have closes : (u.settle w.store.held.length kept).2
      = { u with store := (u.settle w.store.held.length kept).2.store } := rfl
  generalize (u.settle w.store.held.length kept).2 = closed at closes ⊢
  exact closes.trans (by conv_lhs => rw [took.rest])

theorem took_hold (w : World) (t : Token) :
    w.Took (w.withStore (w.store.hold (.entry t))) [.entry t] :=
  ⟨rfl, w.reading_hold t⟩

theorem took_of_steady (steady : w.Steady u) (memory : u.memory = w.memory)
    (reading : w.Reading u top) : w.Took u top := by
  refine ⟨?_, reading⟩
  rw [steady.frame, memory]

/-- What claims the same entries makes worlds that are alike. -/
theorem Took.alike (first : w.Took u top) (second : w.Took u' top) : u.Alike u' where
  rest := by
    rw [second.rest]
    conv_rhs => rw [first.rest]
  store :=
    { rest := by rw [second.reading.store, first.reading.store]
      ledger := fun t => by rw [second.reading.ledger, first.reading.ledger]
      total := by rw [second.reading.total, first.reading.total] }

end World

/-- From temporaries that were claimed before, a program that ends with a value has claimed what
stands for the value. -/
def Program.Leaves {α : Type} (p : Program α) (before : List Claim) (claims : α → List Claim) :
    Prop :=
  ∀ (calls : Calls) (v w : World) (x : α) (u : World), v.Took w before →
    p.run calls w = (.done x, u) → v.Took u (claims x)

namespace Program

variable {α β : Type} {p : Program α} {f : α → Program β} {claims : α → List Claim}
  {claims₂ : β → List Claim}

theorem leaves_pure {x : α} (same : claims x = before) : Leaves (pure x) before claims := by
  intro calls v w y u took ran
  cases ran
  rwa [same]

theorem Leaves.bind (first : p.Leaves before claims)
    (rest : ∀ x, (f x).Leaves (claims x) claims₂) : (p >>= f).Leaves before claims₂ := by
  intro calls v w y u took ran
  obtain ⟨x, w₁, ran, later⟩ := run_bind_done.mp ran
  exact rest x calls v w₁ y u (first calls v w x w₁ took ran) later

/-- What a region leaves it keeps. -/
theorem Leaves.region {keep : α → List Claim} (leaves : p.Leaves [] claims) :
    (region keep p).Leaves before fun x => (Store.part (claims x) (keep x)).1 ++ before := by
  intro calls v w x u took ended
  obtain ⟨w₁, ran, rfl⟩ := run_region_done ended
  exact took.trans ((leaves calls w w x w₁ (.refl w) ran).settle (keep x))

theorem Leaves.weaken {claims' : α → List Claim} (leaves : p.Leaves before claims)
    (same : ∀ x, claims x = claims' x) : p.Leaves before claims' :=
  fun calls v w x u took ran => same x ▸ leaves calls v w x u took ran

/-- Of what it only reads, a region that keeps nothing leaves nothing. -/
theorem leaves_nothing (silent : p.Silent) (reading : p.Reading) (spares : p.Spares) :
    (region keepNothing p).Leaves before fun _ => before := by
  intro calls v w x u took ended
  obtain ⟨w₁, ran, rfl⟩ := run_region_done ended
  obtain ⟨steady, _, reading⟩ := looked_of_run silent reading ran
  have memory : w₁.memory = w.memory := by rw [← spares calls w, ran]
  have settled := (World.took_of_steady steady memory reading).settle []
  rw [Store.part_nil] at settled
  exact took.trans settled

/-- A request that claims nothing. -/
theorem leaves_request {r : Request}
    (answered : ∀ (calls : Calls) (w : World), w.Took (w.answer calls r).2 []) :
    (request r).Leaves before fun _ => before := by
  intro calls v w x u took ran
  have goes : (request r).run calls w = w.answer calls r := run_request
  have after := answered calls w
  rw [← goes, ran] at after
  exact took.trans after

theorem leaves_entry {t : Token} : (entry t).Leaves before fun _ => before := by
  refine leaves_request fun calls w => ?_
  rw [World.answer]
  split <;> exact .refl w

theorem leaves_trace {entries : List Token} :
    (trace entries).Leaves before fun _ => before := by
  refine leaves_request fun calls w => ?_
  rw [World.answer]
  split
  · exact World.took_of_steady (World.steady_trace entries w) (World.memory_trace entries w).1
      (World.reading_trace entries w)
  · exact .refl w

theorem leaves_hold {t : Token} :
    (hold (.entry t)).Leaves before fun _ => .entry t :: before := by
  intro calls v w x u took ran
  cases ran
  exact took.trans (w.took_hold t)

end Program

/-- What follows a program that cannot fail. -/
theorem Bridge.leaves_after {ε α β : Type} {p : Program α} {f : α → ExceptT ε Program β}
    {claims : α → List Claim} {claims₂ : Except ε β → List Claim} (first : p.Leaves before claims)
    (rest : ∀ x, Program.Leaves (f x).run (claims x) claims₂) :
    Program.Leaves (liftM p >>= f : ExceptT ε Program β).run before claims₂ := by
  have lifted : (liftM p >>= f : ExceptT ε Program β).run = p >>= fun x => (f x).run := by
    refine (bind_assoc p _ _).trans (bind_congr fun x => ?_)
    rfl
  rw [lifted]
  exact first.bind rest

namespace Descriptor

variable {group : MemberGroup} {name : String} {t : Token}

/-- Giving back the entry that was claimed just before. -/
theorem run_letGo (calls : Calls) (w : World) (t : Token) :
    ∃ u, (letGo (.entry t)).run calls (w.withStore (w.store.hold (.entry t))) = (.done (), u)
      ∧ w.Took u [] := by
  let stage : Stage := ⟨calls, fun _ _ _ _ => [], fun _ _ _ => [], fun _ _ _ => [], fun _ _ => []⟩
  obtain ⟨u, ends, reading⟩ := ends_letGo stage w t
  have ran : (letGo (.entry t)).run calls (w.withStore (w.store.hold (.entry t))) = (.done (), u) :=
    ends.run
  have given : Spares (letGo (.entry t)) := spares_request rfl
  have memory := given calls (w.withStore (w.store.hold (.entry t)))
  have steady := Silent.steady (silent_request rfl) ran
  rw [ran] at memory
  exact ⟨u, ran, World.took_of_steady ((w.steady_withStore _).trans steady) memory reading⟩

/-- The claim of what a lookup gives, if it gives something. -/
def leavings : Option Token → List Claim
  | some t => claims t
  | none => []

theorem leaves_firstNamed {entries : List Token} :
    (firstNamed name entries).Leaves [] leavings := by
  induction entries with
  | nil => exact leaves_pure rfl
  | cons t rest ih =>
    intro calls v w found u took ran
    obtain ⟨_, w₁, held, ran⟩ := run_bind_done.mp ran
    cases held
    obtain ⟨e, _, looked, ran⟩ := run_bind_done.mp ran
    obtain ⟨_, rfl⟩ := run_entry.mp looked
    split at ran
    · cases ran
      exact took.trans (w.took_hold t)
    · obtain ⟨_, w₂, given, ran⟩ := run_bind_done.mp ran
      obtain ⟨w₃, goes, released⟩ := run_letGo calls w t
      cases given.symm.trans goes
      exact ih calls v w₂ found u (took.trans released) ran

theorem leaves_member : (member? group name t).Leaves [] leavings :=
  leaves_entry.bind fun _ => leaves_firstNamed

/-- A walk gives the entries back that it went through. -/
theorem leaves_walkWithin {limit : Nat} :
    (walkWithin claims (member? group name) limit t).Leaves [] leavings := by
  induction limit generalizing t with
  | zero =>
    intro calls v w x u took ran
    cases ran
  | succ limit ih =>
    refine leaves_member.bind fun found => ?_
    cases found with
    | some m => exact leaves_pure rfl
    | none =>
      refine leaves_entry.bind fun e => ?_
      split
      · exact leaves_pure rfl
      · next parent up =>
        have inner : Leaves (do
            hold (.entry parent)
            trace [parent]
            walkWithin claims (member? group name) limit parent) [] fun found =>
              leavings found ++ [.entry parent] := by
          refine leaves_hold.bind fun _ => leaves_trace.bind fun _ => ?_
          intro calls v w found u took ran
          exact took.trans (ih calls w w found u (.refl w) ran)
        refine inner.region.weaken fun found => ?_
        cases found with
        | none => rfl
        | some m => simp [leavings, claims, Store.part]

end Descriptor

namespace Member

variable {group : MemberGroup} {name : String} {t : Token}

/-- The claims of what a name means, if it means something. -/
def resolved : Except Failure Member → List Claim
  | .ok member => member.claims
  | .error _ => []

theorem leaves_findEither :
    (findEither group t name).Leaves [] fun found => leavings (found.map Prod.fst) := by
  refine leaves_member.bind fun found => ?_
  cases found with
  | some m => exact leaves_pure rfl
  | none =>
    cases hyphenate? name with
    | none => exact leaves_pure rfl
    | some hyphenated =>
      refine leaves_member.bind fun found => ?_
      cases found <;> exact leaves_pure rfl

theorem leaves_findProperty :
    (findProperty t name).Leaves [] fun found => leavings (found.map Prod.fst) := by
  refine leaves_entry.bind fun e => ?_
  split
  · exact leaves_findEither
  · exact leaves_pure rfl

theorem leaves_findField :
    (findField t name).Leaves [] fun found => leavings (found.map Prod.fst) := by
  refine leaves_entry.bind fun e => ?_
  split
  · exact leaves_findEither
  · exact leaves_pure rfl

theorem leaves_findMethod : (findMethod t name).Leaves [] leavings := by
  refine leaves_entry.bind fun e => ?_
  split
  · exact leaves_walkWithin
  · exact leaves_member

theorem leaves_findPlain {kind : EntryKind} :
    (findPlain kind t name).Leaves [] fun found => (found.map Member.claims).getD [] := by
  unfold findPlain
  extract_lets rest
  have after (method : Option Token) :
      (rest method).Leaves (leavings method) fun found =>
        (found.map Member.claims).getD [] := by
    cases method with
    | some found => exact leaves_pure rfl
    | none =>
      refine leaves_findProperty.bind fun property => ?_
      cases property with
      | some found => exact leaves_pure rfl
      | none =>
        refine leaves_findField.bind fun field => ?_
        cases field <;> exact leaves_pure rfl
  split
  · exact leaves_findMethod.bind after
  · exact (leaves_pure rfl).bind after

theorem leaves_findSignal : (findSignal t name).Leaves [] leavings := leaves_walkWithin

theorem leaves_findEnumValue : (findEnumValue t name).Leaves before fun _ => before := by
  refine leaves_nothing (silent_member.bind fun found => ?_) (reading_member.bind fun found => ?_)
    (spares_member.bind fun found => ?_)
  · cases found with
    | none => exact silent_pure
    | some m => exact silent_entry.bind fun _ => silent_pure
  · cases found with
    | none => exact reading_pure
    | some m => exact reading_entry.bind fun _ => reading_pure
  · cases found with
    | none => exact spares_pure
    | some m => exact spares_entry.bind fun _ => spares_pure

/-- Resolving a name claims what the name means. -/
theorem leaves_resolve : (resolve t name).run.Leaves [] resolved := by
  have kept (r : Except Failure Member) :
      (Store.part (resolved r) (Bridge.keepOk claims r)).1 ++ [] = resolved r := by
    cases r with
    | error f => rfl
    | ok member => cases member <;> simp [resolved, Member.claims, Store.part, Bridge.keepOk]
  rw [resolve, Bridge.region_eq]
  refine (Leaves.region ?_).weaken kept
  refine Bridge.leaves_after leaves_entry fun e => Bridge.leaves_after leaves_trace fun _ => ?_
  split
  · refine Bridge.leaves_after leaves_findEnumValue fun found => ?_
    cases found <;> exact leaves_pure rfl
  · refine Bridge.leaves_after leaves_findPlain fun found => ?_
    cases found with
    | some found => exact leaves_pure rfl
    | none =>
      dsimp only
      split
      · split
        · refine Bridge.leaves_after leaves_findSignal fun found => ?_
          cases found <;> exact leaves_pure rfl
        · exact leaves_pure rfl
      · exact leaves_pure rfl

end Member

/-! ### What is blind goes on alike -/

namespace Program

variable {α β : Type} {p : Program α}

/-- What runs the functions of a script does not matter to a quiet request. -/
theorem answer_of_quiet {r : Request} (quiet : r.quiet = true) (calls calls' : Calls) (w : World) :
    w.answer calls r = w.answer calls' r := by
  cases r <;> first | rfl | simp [Request.quiet] at quiet

theorem Quiet.run_eq (quiet : p.Quiet calls w) (calls' : Calls) :
    p.run calls w = p.run calls' w := by
  induction p generalizing w with
  | done x => rfl
  | ask request next ih =>
    simp only [Quiet, moments, List.mem_cons, forall_eq_or_imp] at quiet
    simp only [run, ← answer_of_quiet quiet.1 calls calls' w]
    obtain ⟨_, later⟩ := quiet
    revert later
    cases w.answer calls request with
    | mk outcome w' =>
      cases outcome with
      | done reply => exact fun later => ih reply later
      | stopped why => exact fun _ => rfl

/-- Two runs end alike: in the same way, and in worlds that are alike. -/
structure EndAlike (ended ended' : Outcome α × World) : Prop where
  /-- They end in the same way. -/
  outcome : ended'.1 = ended.1
  /-- They end in worlds that are alike. -/
  world : ended.2.Alike ended'.2

/-- A silent program that is blind runs alike in worlds that are alike. -/
theorem Blind.endAlike (blind : p.Blind) (silent : p.Silent) (calls : Calls) (alike : u.Alike u') :
    EndAlike (p.run calls u) (p.run calls u') := by
  -- Both worlds are masked by the first one with its functions muted, whatever the mark.
  let mark : Failure := .untyped
  let v : World := { u with bench := u.bench.muted mark }
  have seen (events : List Event) : List.Forall₂ (Event.Masks mark) events events :=
    List.forall₂_same.mpr fun event _ => .same event
  have first : v.Masks mark true u := ⟨rfl, rfl, rfl, .refl _, rfl, seen _, rfl, rfl⟩
  have second : v.Masks mark true u' := by
    rw [alike.rest]
    exact ⟨rfl, rfl, rfl, alike.store, rfl, seen _, rfl, rfl⟩
  have steady := (silent calls u).steady
  have steady' := (silent calls u').steady
  rw [(silent calls u).run_eq (Session.calls 0)] at steady ⊢
  rw [(silent calls u').run_eq (Session.calls 0)] at steady' ⊢
  have ended := blind.masks (Session.calls_mask 0) first (.inl rfl)
  have ended' := blind.masks (Session.calls_mask 0) second (.inl rfl)
  refine ⟨ended'.outcome.eq.symm.trans ended.outcome.eq, ?_, ?_⟩
  · have memory := ended'.world.memory.trans ended.world.memory.symm
    rw [steady'.frame, memory, alike.rest]
    conv_rhs => rw [steady.frame]
  · exact ended.world.store.symm.trans ended'.world.store

/-- Giving the same temporaries back after runs that end alike. -/
theorem EndAlike.close {ended ended' : Outcome α × World} (alike : EndAlike ended ended')
    (mark : Nat) (keep : α → List Claim) :
    EndAlike (Program.close mark keep ended) (Program.close mark keep ended') := by
  obtain ⟨outcome, u⟩ := ended
  obtain ⟨outcome', u'⟩ := ended'
  obtain ⟨same, world⟩ := alike
  cases same
  cases outcome with
  | stopped why => exact ⟨rfl, world⟩
  | done x =>
    have settles : Blind (request (.settle mark (keep x))) := blind_request rfl
    have settled := settles.endAlike (silent_request rfl) (Session.calls 0) world
    rw [run_request, run_request] at settled
    exact ⟨congrArg (Outcome.map fun _ => x) settled.outcome, settled.world⟩

end Program
end ObjectBridge
