import ObjectBridge.Proofs.Courses
import ObjectBridge.Proofs.Gathering
import ObjectBridge.Proofs.Seeking

/-!
# Connecting is all or nothing

Connecting looks a signal and its types up and then makes one request, which adds a connection to an
instance.  What is looked up leaves nothing behind, so a connection that fails leaves the world as
it was, and one that succeeds changes the one list it is added to.  The numbers of connections only
grow, whatever else happens in between.
-/

namespace ObjectBridge

open Program Descriptor

variable {t : Token} {name : String} {calls : Calls} {w w' : World}

/-! ### Looking a signal up is silent -/

theorem Handle.silent_text {h : HandleId} : Silent (text h) := by
  refine silent_handleRecord.bind fun r => ?_
  dsimp only
  split
  · exact silent_pure
  · refine silent_entry.bind fun e => ?_
    split
    · split <;> exact silent_pure
    · exact silent_pure

namespace Signal

theorem silent_answersTruth {signal : Token} : Bridge.Silent (answersTruth signal) := by
  refine .region <| (Bridge.silent_lift silent_result).bind fun found => ?_
  cases found with
  | none => exact Bridge.silent_pure
  | some result =>
    refine (Bridge.silent_lift silent_entry).bind fun e => ?_
    split
    · exact Bridge.silent_pure
    · exact Bridge.silent_pure
    · exact (Bridge.silent_lift silent_entry).bind fun _ => Bridge.silent_throw

theorem silent_argumentType {signal : Token} {index : Nat} :
    Bridge.Silent (argumentType signal name index) := by
  refine .region <| (Bridge.silent_lift silent_argument).bind fun found => ?_
  cases found with
  | none => exact Bridge.silent_throw
  | some argument =>
    refine (Bridge.silent_lift silent_declared).bind fun declared => ?_
    cases declared with
    | none => exact Bridge.silent_throw
    | some type => exact Bridge.silent_pure

end Signal

/-! ### What is found has the name that was asked for -/

/-- What was found, if anything, is an entry with a name. -/
def Database.Names (db : Database) (name : String) (found : Option Token) : Prop :=
  ∀ m, found = some m → ∃ e, db.entry? m = some e ∧ e.name = some name

variable {v : World}

theorem Database.names_none {db : Database} : db.Names name none := fun _ found => by cases found

theorem Database.names_ownMember {db : Database} {group : MemberGroup} :
    db.Names name (db.ownMember? group name t) := fun m own => by
  unfold ownMember? at own
  split at own
  · have named := List.find?_some own
    unfold hasName at named
    split at named
    · next e known => exact ⟨e, known, of_decide_eq_true named⟩
    · cases named
  · cases own

namespace Descriptor

/-- A walk finds an entry of the name, on the type or on an ancestor. -/
theorem names_walkWithin {group : MemberGroup} {limit : Nat} :
    (walkWithin Descriptor.claims (member? group name) limit t).Seeks v (v.database.Names name) := by
  induction limit generalizing t with
  | zero => exact fun _ w _ => ⟨.refl w, fun _ ended => by cases ended⟩
  | succ limit ih =>
    refine seeks_member.bind fun found own => ?_
    cases found with
    | some m => exact seeks_pure (own ▸ Database.names_ownMember)
    | none =>
      refine seeks_entry.bind fun e _ => ?_
      split
      · exact seeks_pure Database.names_none
      · exact .region (finds_hold.seeks.bind fun _ _ => finds_trace.seeks.bind fun _ _ => ih)

end Descriptor

theorem Member.names_findSignal : (findSignal t name).Seeks v (v.database.Names name) :=
  names_walkWithin

/-! ### The one request that connecting makes -/

/-- A program that looks things up, and attaches a connection as the last thing before it ends with a
number. -/
def Bridge.Attaches {ε : Type} (p : ExceptT ε Program Nat) (v : World) (a : Address) (name : String)
    (fits : Relay → Prop) : Prop :=
  ∀ calls w, v.Looked w →
    match p.run.run calls w with
    | (.done (.ok id), w') => ∃ w₁ relay, w.Looked w₁ ∧ fits relay
        ∧ w₁.answer calls (.attach a name (.relay relay)) = (.done id, w')
    | (_, w') => w.Looked w'

namespace Bridge

variable {ε α : Type} {a : Address} {fits : Relay → Prop} {g : α → ExceptT ε Program Nat}

/-- A program that fails at once. -/
theorem attaches_throw {e : ε} : Attaches (throw e : ExceptT ε Program Nat) v a name fits :=
  fun _ w _ => .refl w

/-- A program that cannot fail; it stops without having done anything, or it attaches. -/
theorem attaches_lift {p : Program Nat}
    (ends : ∀ calls w, (∃ why, p.run calls w = (.stopped why, w))
      ∨ ∃ relay id w', p.run calls w = (.done id, w') ∧ fits relay
        ∧ w.answer calls (.attach a name (.relay relay)) = (.done id, w')) :
    Attaches (liftM p : ExceptT ε Program Nat) v a name fits := by
  intro calls w _
  rw [run_lift]
  rcases ends calls w with ⟨why, stops⟩ | ⟨relay, id, w', done, fit, answered⟩
  · rw [stops]
    exact .refl w
  · rw [done]
    exact ⟨w, relay, .refl w, fit, answered⟩

/-- What is attached after something was looked for. -/
theorem Attaches.after {p : ExceptT ε Program α} {post : Except ε α → Prop}
    (seeks : Program.Seeks p.run v post)
    (rest : ∀ x, post (.ok x) → Attaches (g x) v a name fits) :
    Attaches (p >>= g) v a name fits := by
  intro calls w looked
  obtain ⟨before, holds⟩ := seeks calls w looked
  have goes : (p >>= g).run.run calls w
      = (p.run >>= fun r => match r with
          | .ok x => (g x).run
          | .error e => pure (.error e)).run calls w := rfl
  rw [goes, run_bind]
  revert before holds
  cases p.run.run calls w with
  | mk outcome w₁ =>
    intro before holds
    cases outcome with
    | stopped why => exact before
    | done r =>
      cases r with
      | error e => exact before
      | ok x =>
        have later := rest x (holds _ rfl) calls w₁ (looked.trans before)
        dsimp only
        revert later
        cases (g x).run.run calls w₁ with
        | mk outcome w₂ =>
          cases outcome with
          | stopped why => exact before.trans
          | done r =>
            cases r with
            | error e => exact before.trans
            | ok id =>
              rintro ⟨w₃, relay, after, fit, answered⟩
              exact ⟨w₃, relay, before.trans after, fit, answered⟩

/-- The same after a program without failures of its own. -/
theorem Attaches.next {p : Program α} {post : α → Prop} (seeks : p.Seeks v post)
    (rest : ∀ x, post x → Attaches (g x) v a name fits) :
    Attaches (liftM p >>= g : ExceptT ε Program Nat) v a name fits := by
  have lifted : Program.Seeks (liftM p : ExceptT ε Program α).run v
      fun r => ∃ x, r = .ok x ∧ post x :=
    seeks.bind fun x holds => seeks_pure ⟨x, rfl, holds⟩
  exact .after lifted fun x ⟨_, same, holds⟩ => by cases same; exact rest x holds

theorem Attaches.ofRuntime {reading : RuntimeFailure → Failure} {p : Runtime Nat}
    (attaches : Attaches p v a name fits) : Attaches (Bridge.ofRuntime reading p) v a name fits := by
  intro calls w looked
  have goes : (Bridge.ofRuntime reading p).run.run calls w
      = (p.run >>= fun r => pure (r.mapError reading)).run calls w := rfl
  have ends := attaches calls w looked
  rw [goes, run_bind]
  revert ends
  cases p.run.run calls w with
  | mk outcome w₁ =>
    cases outcome with
    | stopped why => exact id
    | done r => cases r <;> exact id

end Bridge

namespace Signal

variable {h : HandleId} {target : Script.Target} {userData : Option Value} {a : Address}
  {i : Instance}

theorem run_attach (calls : Calls) (name : String) (live : w.store.instances.get? a = some i)
    (reaction : Reaction) :
    (request (.attach a name reaction) : Program Nat).run calls w
      = (.done w.store.nextConnection,
          w.withStore (w.store.addConnection a i name reaction).2) := by
  have goes : (request (.attach a name reaction) : Program Nat).run calls w
      = w.answer calls (.attach a name reaction) := run_request
  rw [goes]
  simp only [World.answer, World.withInstance, live]
  rfl

/-- The request to attach a connection. -/
theorem attaches_request {relay : Relay} {fits : Relay → Prop} (fit : fits relay) :
    Bridge.Attaches (liftM (request (.attach a name (.relay relay)) : Program Nat) : Runtime Nat) v a
      name fits := by
  refine Bridge.attaches_lift fun calls w => ?_
  have goes : (request (.attach a name (.relay relay)) : Program Nat).run calls w
      = w.answer calls (.attach a name (.relay relay)) := run_request
  cases live : w.store.instances.get? a with
  | none =>
    have stops : w.answer calls (.attach a name (.relay relay)) = (.stopped (.notLive a), w) := by
      simp only [World.answer, World.withInstance, live]
    exact .inl ⟨_, goes.trans stops⟩
  | some i =>
    have done := run_attach calls name live (.relay relay)
    exact .inr ⟨relay, _, _, done, fit, goes.symm.trans done⟩

/-- Attaching makes its request, unless the object runtime knows no such signal. -/
theorem attaches_attach {relay : Relay} {fits : Relay → Prop} (fit : fits relay) :
    Bridge.Attaches (attach a name (.relay relay)) v a name fits := by
  refine .next (seeks_of_silent silent_liveInstance reading_liveInstance) fun i _ =>
    .next finds_database.seeks fun db _ => ?_
  split
  · exact Bridge.attaches_throw
  · exact attaches_request fit

end Signal

/-! ### What attaching changes -/

/-- Claiming entries and handles leaves instances and connection records alone. -/
theorem Store.claimAll_still {claims : List Claim}
    (plain : ∀ c ∈ claims, (∃ t, c = .entry t) ∨ ∃ h, c = .handle h) (s : Store) :
    (s.claimAll claims).instances = s.instances ∧ (s.claimAll claims).closures = s.closures := by
  induction claims generalizing s with
  | nil => exact ⟨rfl, rfl⟩
  | cons c rest ih =>
    have single : (s.claim c).instances = s.instances ∧ (s.claim c).closures = s.closures := by
      rcases plain c List.mem_cons_self with ⟨t, rfl⟩ | ⟨h, rfl⟩
      · exact ⟨rfl, rfl⟩
      · simp only [claim]
        split <;> exact ⟨rfl, rfl⟩
    have later := ih (fun d member => plain d (List.mem_cons_of_mem c member)) (s.claim c)
    exact ⟨later.1.trans single.1, later.2.trans single.2⟩

/-- A connection was added to the instance at an address. -/
structure World.Connected (w w' : World) (a : Address) (name : String) (id : Nat) (relay : Relay) :
    Prop where
  /-- The instance has the connection as its last one, and is the same otherwise. -/
  appended : ∃ i, w.store.instances.get? a = some i
    ∧ w'.store.instances.get? a
      = some { i with connections := i.connections ++ [⟨id, name, w.store.nextClosure⟩] }
  /-- The other instances are the same. -/
  others : ∀ b, b ≠ a → w'.store.instances.get? b = w.store.instances.get? b
  /-- No instance was made or ended. -/
  made : w'.store.created = w.store.created ∧ w'.store.finalized = w.store.finalized
  /-- The record of the connection is new. -/
  record : w'.store.closures.get? w.store.nextClosure = some { reaction := .relay relay }
  /-- The connection has the number that was next. -/
  number : id = w.store.nextConnection ∧ w'.store.nextConnection = id + 1

namespace World

variable {a : Address} {relay : Relay} {id : Nat} {w₁ : World}

theorem connected_of_attach (looked : w.Looked w₁)
    (answered : w₁.answer calls (.attach a name (.relay relay)) = (.done id, w')) :
    (w'.settle w.store.held.length []).1 = .done ()
      ∧ w.Connected (w'.settle w.store.held.length []).2 a name id relay := by
  obtain ⟨_, top, reading⟩ := looked
  have plain : ∀ c ∈ (Reaction.relay relay).claims, (∃ t, c = .entry t) ∨ ∃ h, c = .handle h :=
    fun c member => (Reaction.mem_claims member).imp_right fun ⟨h, same, _⟩ => ⟨h, same⟩
  simp only [answer, withInstance] at answered
  split at answered
  case h_2 => cases answered
  next i live =>
  cases answered
  have claimed := Store.claimAll_still plain w₁.store
  have held : (w₁.store.addConnection a i name (.relay relay)).2.held = top ++ w.store.held := by
    rw [← reading.held]
    exact Store.claimAll_held _ _
  obtain ⟨ledger, released, _, _⟩ := release_entries reading.entries
    { (w₁.store.addConnection a i name (.relay relay)).2 with held := w.store.held }
  have settled : (w₁.withStore (w₁.store.addConnection a i name (.relay relay)).2).settle
      w.store.held.length []
      = (.done (), w₁.withStore { (w₁.store.addConnection a i name (.relay relay)).2 with
          ledger := ledger, held := w.store.held }) := by
    rw [settle_append top held, Store.part_nil]
    simp only [release, withStore, List.nil_append, released, Outcome.ofFaults]
  have instances : w₁.store.instances = w.store.instances := by rw [reading.store]
  have counts : w₁.store.created = w.store.created ∧ w₁.store.finalized = w.store.finalized
      ∧ w₁.store.nextConnection = w.store.nextConnection
      ∧ w₁.store.nextClosure = w.store.nextClosure := by
    rw [reading.store]
    exact ⟨rfl, rfl, rfl, rfl⟩
  obtain ⟨created, finalized, number, next⟩ := counts
  rw [settled]
  refine ⟨rfl, ⟨i, instances ▸ live, ?_⟩, fun b other => ?_, ⟨?_, ?_⟩, ?_, number, rfl⟩
  · simp only [withStore, Store.addConnection, claimed.1, Table.get?_set, if_true, live,
      Option.map_some, number, next]
  · simp only [withStore, Store.addConnection, claimed.1, Table.get?_set, if_neg other, instances]
  · exact (Store.claimAll_project (·.created) (fun _ _ _ _ _ => rfl) _ _).trans created
  · exact (Store.claimAll_project (·.finalized) (fun _ _ _ _ _ => rfl) _ _).trans finalized
  · simp only [withStore, Store.addConnection, next, Table.get?_insert_self]

end World

/-! ### Numbers of connections -/

theorem World.openHandle_nextConnection (w : World) (info : Option Token)
    (attachment : Option Attachment) (keeper : Option HandleId) :
    (w.openHandle info attachment keeper).2.store.nextConnection = w.store.nextConnection := by
  have added (r : HandleRecord) : (w.store.addHandle r).2.nextConnection = w.store.nextConnection :=
    Store.claimAll_project (·.nextConnection) (fun _ _ _ _ _ => rfl) r.claims w.store
  simp only [openHandle]
  split
  · split
    · exact added _
    · rfl
  · exact added _

/-- The number of the next connection only grows. -/
theorem World.answer_nextConnection (calls : Calls) (w : World) {r : Request}
    (direct : r.direct = true) :
    w.store.nextConnection ≤ (w.answer calls r).2.store.nextConnection := by
  have released (claims : List Claim) (s : Store) :
      (s.release claims).2.nextConnection = s.nextConnection :=
    Store.release_project (·.nextConnection) (fun _ _ _ _ _ _ _ => rfl) claims s
  have claimed (claims : List Claim) (s : Store) :
      (s.claimAll claims).nextConnection = s.nextConnection :=
    Store.claimAll_project (·.nextConnection) (fun _ _ _ _ _ => rfl) claims s
  cases r with
  | attach a signal reaction =>
    simp only [answer, withInstance]
    split
    · exact Nat.le_succ _
    · exact Nat.le_refl _
  | invoke _ _ _ | callHost _ _ | assignGlobal _ _ | perform _ => cases direct
  | entry t | raise signal =>
    refine ge_of_eq ?_
    simp only [answer]
    split <;> rfl
  | liveInstance a | sink a | storeProperty a name slot | takeDirect a =>
    refine ge_of_eq ?_
    simp only [answer, takeDirect, withInstance]
    split <;> rfl
  | giveBackDirect a =>
    refine ge_of_eq ?_
    simp only [answer, giveBackDirect, withInstance]
    split
    · exact released _ _
    · rfl
  | sinkDirect a =>
    refine ge_of_eq ?_
    simp only [answer, sinkDirect, takeDirect, withInstance]
    split
    · split
      · rfl
      · split <;> rfl
    · rfl
  | hold c => exact ge_of_eq (claimed [c] w.store)
  | letGo c =>
    refine ge_of_eq ?_
    by_cases held : w.store.held.contains c = true
    · have answered : w.answer calls (.letGo c) = (w.withStore (w.store.dropHeld c)).release [c] :=
        if_pos held
      rw [answered]
      exact released _ _
    · have answered : w.answer calls (.letGo c) = (.done (), w) := if_neg held
      rw [answered]
  | settle mark kept => exact ge_of_eq (released _ _)
  | openHandle info attachment keeper =>
    exact ge_of_eq (w.openHandle_nextConnection info attachment keeper)
  | openBlock info size => exact ge_of_eq (openHandle_nextConnection _ _ _ _)
  | storeGlobal n v | bind n v =>
    exact ge_of_eq ((released _ _).trans (claimed v.claims w.store))
  | dropGlobal n | unbind n => exact ge_of_eq (released _ _)
  | trace entries =>
    obtain ⟨top, reading⟩ := w.reading_answer calls (.trace entries) rfl
    rw [reading.store]
  | _ => exact Nat.le_refl _

theorem World.Course.nextConnection {kind : Request → Prop} (course : w.Course kind w') :
    w.store.nextConnection ≤ w'.store.nextConnection := by
  induction course with
  | refl => exact Nat.le_refl _
  | answer _ calls direct _ ih => exact Nat.le_trans ih (World.answer_nextConnection calls _ direct)
  | aside _ signals events ih => exact ih

/-- A number that a connection got on the way to a world. -/
def World.Issued (w : World) (id : Nat) : Prop :=
  ∃ (calls : Calls) (w₀ : World) (a : Address) (signal : String) (reaction : Reaction),
    (w₀.answer calls (.attach a signal reaction)).1 = .done id
      ∧ (w₀.answer calls (.attach a signal reaction)).2.Course (fun _ => True) w

/-- Numbers that were given out lie below the next one. -/
theorem World.Issued.lt {id : Nat} (issued : w.Issued id) : id < w.store.nextConnection := by
  obtain ⟨calls, w₀, a, signal, reaction, given, course⟩ := issued
  refine Nat.lt_of_lt_of_le ?_ course.nextConnection
  revert given
  simp only [answer, withInstance]
  split
  · intro given
    cases given
    exact Nat.lt_succ_self _
  · exact fun given => by cases given

/-- A number stays given out, whatever a program of a session does. -/
theorem World.Issued.run {id : Nat} (issued : w.Issued id) (depth : Nat) {α : Type}
    (p : Program α) : (p.run (Session.calls depth) w).2.Issued id := by
  obtain ⟨calls, w₀, a, signal, reaction, given, course⟩ := issued
  have later : w.Course (fun _ => True) (p.run (Session.calls depth) w).2 := by
    rw [← Session.logAt_calls]
    exact (Session.logAt_faithful _ depth).run p w fun _ _ => trivial
  exact ⟨calls, w₀, a, signal, reaction, given, course.trans later⟩

/-- A region ends with the value of its program if giving the temporaries back is done. -/
theorem Program.close_of_settled {α : Type} {mark : Nat} (keep : α → List Claim) (x : α)
    (settled : (w.settle mark (keep x)).1 = .done ()) :
    close mark keep (.done x, w) = (.done x, (w.settle mark (keep x)).2) := by
  rw [close, settled]
  rfl

/-- Connecting leaves the world untouched unless it succeeds, and then it has added one
connection. -/
theorem Bridge.Attaches.ends {p : Bridge Nat} {a : Address} {fits : Relay → Prop}
    (attaches : Attaches p w a name fits) (calls : Calls) :
    (∀ f w', Fails calls (region keepNothing p) w f w' → w.Untouched w')
      ∧ (∀ why w', (region keepNothing p).run.run calls w = (.stopped why, w') →
          p.run.run calls w = (.stopped why, w')
            ∧ (w'.settle w.store.held.length []).1 = .done ()
            ∧ w.Untouched (w'.settle w.store.held.length []).2)
      ∧ ∀ id w', Succeeds calls (region keepNothing p) w id w' →
          (∃ relay, fits relay ∧ w.Connected w' a name id relay) ∧ w'.Issued id := by
  have within := attaches calls w (.refl w)
  have unsettled {w₁ : World} (looked : w.Looked w₁) :
      (w₁.settle w.store.held.length []).1 = .done ()
        ∧ w.Untouched (w₁.settle w.store.held.length []).2 := by
    obtain ⟨steady, top, reading⟩ := looked
    obtain ⟨settled, after⟩ := reading.settle []
    rw [Store.part_nil] at after
    exact ⟨settled, after.untouched (steady.trans (World.steady_settle _ _ _))⟩
  simp only [Fails, Succeeds, region_eq, run_region]
  revert within
  cases p.run.run calls w with
  | mk outcome w₁ =>
    cases outcome with
    | stopped why =>
      intro looked
      refine ⟨fun f w' ended => (by cases ended), fun why w' ended => ?_,
        fun id w' ended => by cases ended⟩
      cases ended
      exact ⟨rfl, unsettled looked⟩
    | done r =>
      cases r with
      | error f =>
        intro looked
        obtain ⟨settled, untouched⟩ := unsettled looked
        rw [close_of_settled (keepOk keepNothing) (.error f) settled]
        refine ⟨fun g w' ended => ?_, fun why w' ended => (by cases ended),
          fun id w' ended => by cases ended⟩
        cases ended
        exact untouched
      | ok id =>
        rintro ⟨w₂, relay, looked, fit, answered⟩
        obtain ⟨settled, connected⟩ := World.connected_of_attach looked answered
        rw [close_of_settled (keepOk keepNothing) (.ok id) settled]
        refine ⟨fun f w' ended => (by cases ended), fun why w' ended => (by cases ended),
          fun number w' ended => ?_⟩
        cases ended
        refine ⟨⟨relay, fit, connected⟩, calls, w₂, a, name, .relay relay, by rw [answered], ?_⟩
        rw [answered]
        exact .answer .refl calls (r := .settle w.store.held.length []) rfl trivial

/-! ### Why connecting fails -/

/-- A program that stops for certain reasons only, in a world and in whatever looking makes of it. -/
def Bridge.StopsOnly {ε α : Type} (p : ExceptT ε Program α) (v : World) (allowed : Stop → Prop) :
    Prop :=
  ∀ calls w, v.Looked w → ∀ why, (p.run.run calls w).1 = .stopped why → allowed why

namespace Bridge

variable {ε α β : Type} {allowed : Stop → Prop} {post : Except ε α → Prop}

theorem stopsOnly_throw {e : ε} : StopsOnly (throw e : ExceptT ε Program α) v allowed :=
  fun _ _ _ _ ended => by cases ended

theorem stopsOnly_lift {p : Program α}
    (stops : ∀ calls w, v.Looked w → ∀ why, (p.run calls w).1 = .stopped why → allowed why) :
    StopsOnly (liftM p : ExceptT ε Program α) v allowed := fun calls w looked why ended => by
  refine stops calls w looked why ?_
  rw [run_lift] at ended
  revert ended
  cases (p.run calls w).1 with
  | done x => exact fun ended => by cases ended
  | stopped why' => exact fun ended => by cases ended; rfl

/-- Nothing follows a stop. -/
theorem run_lift_bind_stopped {p : Program α} {why : Stop}
    (stops : p.run calls w = (.stopped why, w')) (f : α → ExceptT ε Program β) :
    (liftM p >>= f : ExceptT ε Program β).run.run calls w = (.stopped why, w') := by
  change ((liftM p : ExceptT ε Program α).run >>= fun r => match r with
    | .ok x => (f x).run
    | .error e => pure (.error e)).run calls w = _
  rw [run_bind, run_lift, stops]
  rfl

theorem StopsOnly.after {p : ExceptT ε Program α} {f : α → ExceptT ε Program β}
    (first : Finds p v post) (rest : ∀ x, post (.ok x) → StopsOnly (f x) v allowed) :
    StopsOnly (p >>= f) v allowed := fun calls w looked why ended => by
  obtain ⟨r, w₁, passes, looked₁, holds⟩ := first calls w looked
  change ((p.run >>= fun r => match r with
    | .ok x => (f x).run
    | .error e => pure (.error e)).run calls w).1 = _ at ended
  rw [run_bind, passes.run] at ended
  cases r with
  | error e => cases ended
  | ok x => exact rest x holds calls w₁ (looked.trans looked₁) why ended

theorem StopsOnly.next {p : Program α} {f : α → ExceptT ε Program β} {given : α → Prop}
    (first : p.Finds v given) (rest : ∀ x, given x → StopsOnly (f x) v allowed) :
    StopsOnly (liftM p >>= f : ExceptT ε Program β) v allowed := by
  have lifted : Finds (liftM p : ExceptT ε Program α) v fun r => ∃ x, r = .ok x ∧ given x :=
    finds_lift first fun x holds => ⟨x, rfl, holds⟩
  exact .after lifted fun x ⟨_, same, holds⟩ => by cases same; exact rest x holds

theorem StopsOnly.ofRuntime {reading : RuntimeFailure → Failure} {p : Runtime α}
    (stops : StopsOnly p v allowed) : StopsOnly (Bridge.ofRuntime reading p) v allowed :=
  fun calls w looked why ended => by
    change ((p.run >>= fun r => pure (r.mapError reading)).run calls w).1 = _ at ended
    rw [run_bind] at ended
    split at ended
    · cases ended
    · next stopped w' ran =>
      cases ended
      exact stops calls w looked _ (congrArg Prod.fst ran)

/-- A region ends with what its program finds. -/
theorem Finds.ends {p : Bridge α} {post : Except Failure α → Prop} (finds : Finds p w post)
    (calls : Calls) :
    ∃ r w', (Bridge.region keepNothing p).run.run calls w = (.done r, w') ∧ post r := by
  rw [region_eq]
  obtain ⟨r, w', _, passes, _, holds⟩ :=
    Program.Finds.settled finds (keepOk keepNothing) calls (.refl w)
  exact ⟨r, w', passes.run, holds⟩

end Bridge

theorem Handle.finds_text {h : HandleId} {info : Token} {e : Entry}
    (typed : (v.store.handle h).info = some info) (known : v.database.entry? info = some e) :
    (text h).Finds v fun _ => True := by
  refine finds_handleRecord.next ?_
  rw [typed]
  refine (finds_entry known).next ?_
  split
  · split <;> exact finds_pure trivial
  · exact finds_pure trivial

namespace Signal

variable {h : HandleId} {target : Script.Target} {userData : Option Value} {a : Address}
  {info signal result : Token} {e s u : Entry} {i : Instance}

/-- Attaching stops only on an address without a live instance. -/
theorem stopsOnly_attach {reaction : Reaction} :
    Bridge.StopsOnly (attach a name reaction) v fun why =>
      why = .notLive a ∧ v.store.isLive a = false := by
  cases live : v.store.instances.get? a with
  | none =>
    intro calls w looked why ended
    have stops : (liveInstance a).run calls w = (.stopped (.notLive a), w) := by
      have goes : (liveInstance a).run calls w = w.answer calls (.liveInstance a) := run_request
      rw [goes]
      simp only [World.answer, World.withInstance, looked.instances, live]
      rfl
    have bound := Bridge.run_lift_bind_stopped (ε := RuntimeFailure) (β := Nat) stops
    refine ⟨?_, by rw [Store.isLive, Table.contains, live]; rfl⟩
    exact (Outcome.stopped.inj ((congrArg Prod.fst (bound _)).symm.trans ended)).symm
  | some i =>
    refine .next (finds_liveInstance live) fun _ same => ?_
    subst same
    refine .next finds_database fun db _ => ?_
    split
    · exact Bridge.stopsOnly_throw
    · refine Bridge.stopsOnly_lift fun calls w looked why ended => ?_
      have done := run_attach calls name (looked.instances ▸ live) reaction
      cases (congrArg Prod.fst done).symm.trans ended

/-- A signal is refused whose result is neither absent nor void nor a truth value. -/
theorem finds_answersTruth_other (known : v.database.entry? signal = some s)
    (declared : s.result? = some result) (type : v.database.entry? result = some u)
    (notVoid : u.tag ≠ .void) (notBoolean : u.tag ≠ .boolean) :
    Bridge.Finds (answersTruth signal) v
      (· = .error (.unsupported ("signal " ++ s.shownName ++ " returning " ++ u.tag.name))) := by
  refine .region <| .next ((finds_entry known).next finds_take) ?_
  rw [declared]
  refine .next (finds_entry type) ?_
  split
  · next void => exact absurd void notVoid
  · next boolean => exact absurd boolean notBoolean
  · exact .next (finds_entry known) (Bridge.finds_throw rfl)

/-- How connecting through a handle that is typed by an entry is refused, in the order in which the
reasons are looked for. -/
structure Refuses (calls : Calls) (w : World) (h : HandleId) (name : String)
    (target : Script.Target) (userData : Option Value) (info : Token) (e : Entry) : Prop where
  /-- The handle is not bound, or not to an object. -/
  unbound : e.kind ≠ .object ∨ (w.store.handle h).isBound = false →
    ∃ shown w', Bridge.Fails calls (connect h name target userData) w
      (.mismatch "bound object handle" shown) w'
  /-- Neither the type nor an ancestor of it declares the signal. -/
  unknown : e.kind = .object → (w.store.handle h).isBound = true →
    w.database.Nearest .signal name info none →
    ∃ w', Bridge.Fails calls (connect h name target userData) w (.signalUnsupported name) w'
  /-- The nearest declaration has more than two arguments. -/
  arity : e.kind = .object → (w.store.handle h).isBound = true → ∀ signal s,
    w.database.Nearest .signal name info (some signal) → w.database.entry? signal = some s →
    2 < s.arguments.length →
    ∃ w', Bridge.Fails calls (connect h name target userData) w (.callbackArity s.arguments.length) w'
  /-- Its result is something other than nothing or a truth value. -/
  result : e.kind = .object → (w.store.handle h).isBound = true → ∀ signal s result u,
    w.database.Nearest .signal name info (some signal) → w.database.entry? signal = some s →
    s.arguments.length ≤ 2 → s.result? = some result → w.database.entry? result = some u →
    u.tag ≠ .void → u.tag ≠ .boolean →
    ∃ w', Bridge.Fails calls (connect h name target userData) w
      (.unsupported ("signal " ++ s.shownName ++ " returning " ++ u.tag.name)) w'

/-- On a handle that is bound to an object, the signal that is found decides. -/
theorem finds_onSignal {f : Failure} {rest : HandleRecord → Token → Option Token → Bridge Nat}
    (linked : w.database.Linked) (typed : (w.store.handle h).info = some info)
    (known : w.database.entry? info = some e) (object : e.kind = .object)
    (bound : (w.store.handle h).isBound = true)
    (refused : ∀ found, w.database.Nearest .signal name info found →
      Bridge.Finds (rest (w.store.handle h) info found) w (· = .error f)) :
    Bridge.Finds (do
      let r ← handleRecord h
      let info ← Handle.typed r
      let e ← entry info
      if e.kind ≠ .object || !r.isBound then
        let shown ← Handle.text h
        throw (.mismatch "bound object handle" shown)
      let found ← Member.findSignal info name
      rest r info found) w (· = .error f) := by
  refine .next finds_handleRecord ?_
  refine Bridge.Finds.bind Handle.finds_typed (fun _ same => ?_) fun g failed => ?_
  · rw [typed] at same
    cases same
    refine .next (finds_entry known) ?_
    rw [if_neg (by simp [object, bound])]
    exact .after (Member.finds_findSignal linked (Database.has_of_entry known)) refused
  · rw [typed] at failed
    cases failed

variable (calls target userData)

/-- Where a failure is found, connecting fails. -/
theorem fails_of_finds {p : Bridge Nat} {f : Failure} (finds : Bridge.Finds p w (· = .error f)) :
    ∃ w', Bridge.Fails calls (Bridge.region keepNothing p) w f w' :=
  (Bridge.fails_of_finds finds calls).imp fun _ => And.left

theorem refuses (linked : w.database.Linked) (typed : (w.store.handle h).info = some info)
    (known : w.database.entry? info = some e) :
    Refuses calls w h name target userData info e where
  unbound other := by
    obtain ⟨r, w', ran, shown, rfl⟩ : ∃ r w',
        (connect h name target userData).run.run calls w = (.done r, w')
          ∧ ∃ shown, r = .error (.mismatch "bound object handle" shown) := by
      refine Bridge.Finds.ends (.next finds_handleRecord ?_) calls
      refine Bridge.Finds.bind Handle.finds_typed (fun _ same => ?_) fun g failed => ?_
      · rw [typed] at same
        cases same
        refine .next (finds_entry known) ?_
        rw [if_pos (by simpa using other)]
        exact .after (Handle.finds_text typed known) fun shown _ => Bridge.finds_throw ⟨shown, rfl⟩
      · rw [typed] at failed
        cases failed
    exact ⟨shown, w', ran⟩
  unknown object bound absent :=
    fails_of_finds calls (finds_onSignal linked typed known object bound fun found nearest => by
      cases nearest.unique absent
      exact Bridge.finds_throw rfl)
  arity object bound signal s declared there many :=
    fails_of_finds calls (finds_onSignal linked typed known object bound fun found nearest => by
      cases nearest.unique declared
      refine .next (finds_entry there) ?_
      dsimp only
      rw [if_pos (show maxArguments < s.arguments.length from many)]
      exact Bridge.finds_throw rfl)
  result object bound signal s result u declared there few answers type notVoid notBoolean :=
    fails_of_finds calls (finds_onSignal linked typed known object bound fun found nearest => by
      cases nearest.unique declared
      refine .next (finds_entry there) ?_
      dsimp only
      rw [if_neg (show ¬maxArguments < s.arguments.length from Nat.not_lt.mpr few)]
      refine (finds_answersTruth_other there answers type notVoid notBoolean).bind
        (fun _ same => by cases same)
        fun g failed => by cases failed; rfl)

/-- What connecting does within its region: it looks the signal and its types up, and then it
attaches a connection, which stops if the instance is not live. -/
theorem within_connect (h : HandleId) (name : String) (target : Script.Target)
    (userData : Option Value) (v : World) :
    ∃ p, connect h name target userData = Bridge.region keepNothing p
      ∧ Bridge.Attaches p v (v.store.handle h).address name
          (fun relay => relay.target = target ∧ relay.userData = userData)
      ∧ ∀ info e, v.database.Linked → (v.store.handle h).info = some info →
          v.database.entry? info = some e →
          Bridge.StopsOnly p v fun why => why = .notLive (v.store.handle h).address
            ∧ v.store.isLive (v.store.handle h).address = false := by
  refine ⟨_, rfl, ?_, fun info e linked typed known => ?_⟩
  · refine .next finds_handleRecord.seeks fun r same => ?_
    subst same
    refine .after (seeks_of_silent Handle.silent_typed Handle.reading_typed) fun info _ => ?_
    refine .next seeks_entry fun e _ => ?_
    dsimp only
    split
    · exact .next (seeks_of_silent Handle.silent_text Handle.reading_text) fun _ _ =>
        Bridge.attaches_throw
    · refine .next Member.names_findSignal fun found named => ?_
      cases found with
      | none => exact Bridge.attaches_throw
      | some signal =>
        obtain ⟨s, known, called⟩ := named signal rfl
        refine .next seeks_entry fun s' known' => ?_
        cases known.symm.trans known'
        have shown : s.shownName = name := by rw [Entry.shownName, called]; rfl
        split
        · exact Bridge.attaches_throw
        · refine .after (seeks_of_silent silent_answersTruth reading_answersTruth) fun truth _ => ?_
          refine .after (seeks_of_silent (Bridge.silent_each fun _ => silent_argumentType)
            (Bridge.reading_each fun _ => reading_argumentType)) fun types _ => ?_
          rw [shown]
          exact .ofRuntime (attaches_attach ⟨rfl, rfl⟩)
  · refine .next finds_handleRecord fun r same => ?_
    subst same
    refine .after Handle.finds_typed fun info' same => ?_
    rw [typed] at same
    cases same
    refine .next (finds_entry known) fun _ same => ?_
    cases same
    dsimp only
    split
    · exact .next (Handle.finds_text typed known) fun _ _ => Bridge.stopsOnly_throw
    · refine .next (Member.finds_findSignal linked (Database.has_of_entry known)) fun found nearest => ?_
      cases found with
      | none => exact Bridge.stopsOnly_throw
      | some signal =>
        obtain ⟨_, _, declared⟩ := nearest.declared
        obtain ⟨s, there, _⟩ := linked.named declared
        refine .next (finds_entry there) fun _ same => ?_
        cases same
        split
        · exact Bridge.stopsOnly_throw
        · exact .after (finds_answersTruth linked there) fun truth _ =>
            .after (finds_argumentTypes linked there) fun types _ => .ofRuntime stopsOnly_attach

/-- Connecting is all or nothing.  If it fails or stops, then all instances with their connections
and references, the references to entries and the number of the next connection are as they were
once the temporaries are given back.  If it succeeds, the instance of the handle has one connection
more, at the end and under the name of the signal, and nothing else about the instances changed; the
number of the connection is greater than all that were given out before, and it counts as given out
from then on, whatever any function of the session does.  On a handle that an entry types the
failures come in a fixed order, and connecting stops only on an instance that is not live. -/
theorem connect_all_or_nothing (calls : Calls) (w : World) (h : HandleId) (name : String)
    (target : Script.Target) (userData : Option Value) :
    (∀ f w', Bridge.Fails calls (connect h name target userData) w f w' → w.Untouched w')
      ∧ (∀ why w', (connect h name target userData).run.run calls w = (.stopped why, w') →
          (w'.settle w.store.held.length []).1 = .done ()
            ∧ w.Untouched (w'.settle w.store.held.length []).2)
      ∧ (∀ id w', Bridge.Succeeds calls (connect h name target userData) w id w' →
          (∃ relay, relay.target = target ∧ relay.userData = userData
            ∧ w.Connected w' (w.store.handle h).address name id relay)
          ∧ (∀ earlier, w.Issued earlier → earlier < id)
          ∧ ∀ depth {α : Type} (p : Program α), (p.run (Session.calls depth) w').2.Issued id)
      ∧ ∀ info e, w.database.Built → (w.store.handle h).info = some info →
          w.database.entry? info = some e →
          Refuses calls w h name target userData info e
            ∧ ∀ why w', (connect h name target userData).run.run calls w = (.stopped why, w') →
                why = .notLive (w.store.handle h).address
                  ∧ w.store.isLive (w.store.handle h).address = false := by
  obtain ⟨p, same, attaches, stops⟩ := within_connect h name target userData w
  obtain ⟨failed, stopped, connected⟩ := attaches.ends calls
  rw [← same] at failed stopped connected
  refine ⟨failed, fun why w' ran => (stopped why w' ran).2, fun id w' ran => ?_,
    fun info e built typed known => ?_⟩
  · obtain ⟨⟨relay, ⟨called, data⟩, made⟩, issued⟩ := connected id w' ran
    exact ⟨⟨relay, called, data, made⟩, fun earlier before => made.number.1 ▸ before.lt,
      fun depth _ p => issued.run depth p⟩
  · have linked := built.sound.toLinked
    refine ⟨refuses calls target userData linked typed known, fun why w' ran => ?_⟩
    exact stops info e linked typed known calls w (.refl w) why
      (congrArg Prod.fst (stopped why w' ran).1)

/-- An object type with a signal that passes a number, and one that passes three. -/
def sampleSignals : Database :=
  let types := (({} : Database).addObject "Demo" "Widget" none false).2
  let types := (types.addType (.plain .int32)).2
  let types := (types.addType (.plain .void)).2
  let types := (types.addSignal 1 "changed" [2] 3).2
  (types.addSignal 1 "moved" [2, 2, 2] 3).2

theorem sampleSignals_built : sampleSignals.Built := by
  refine .next (.next (.next (.next (.next .empty (.object "Demo" "Widget" false ?_)) (.type ?_))
    (.type ?_)) (.signal "changed" ?_ ?_ ?_)) (.signal "moved" ?_ ?_ ?_)
  all_goals decide

/-- An instance of the type and a handle on it. -/
def sampleListener : Address × World :=
  let made := World.createDirect { database := sampleSignals } 100
  (made.1, (made.2.openHandle (some 1) (some ⟨made.1, .retained⟩) none).2)

/-- The world after a connection was made that answers with zero. -/
def sampleConnected : World :=
  (sampleListener.2.answer (Session.calls 0)
    (.attach sampleListener.1 "changed" (.fixed .zero))).2

/-- One more connection gets a greater number and comes last; a signal with three arguments is
refused. -/
theorem connect_all_or_nothing_sample :
    (∃ w' relay, Bridge.Succeeds (Session.calls 0) (connect 1 "changed" (.named "f") none)
        sampleConnected 2 w' ∧ sampleConnected.Connected w' sampleListener.1 "changed" 2 relay)
      ∧ 1 < 2
      ∧ ∃ w', Bridge.Fails (Session.calls 0) (connect 1 "moved" (.named "f") none)
          sampleConnected (.callbackArity 3) w' ∧ sampleConnected.Untouched w' := by
  let first : Outcome Nat × World :=
    sampleListener.2.answer (Session.calls 0) (.attach sampleListener.1 "changed" (.fixed .zero))
  have given : first.1 = .done 1 := by decide +kernel
  have issued : sampleConnected.Issued 1 :=
    ⟨Session.calls 0, sampleListener.2, sampleListener.1, "changed", .fixed .zero, given, .refl⟩
  have connected : ((connect 1 "changed" (.named "f") none).run.run (Session.calls 0)
      sampleConnected).1 = .done (.ok 2) := by decide +kernel
  have type : (sampleSignals.entry? 1).map Entry.kind = some .object := by decide +kernel
  obtain ⟨e, known, object⟩ := Option.map_eq_some_iff.mp type
  have many : (sampleSignals.entry? 9).map (fun s => s.arguments.length) = some 3 := by
    decide +kernel
  obtain ⟨s, there, three⟩ := Option.map_eq_some_iff.mp many
  have own : sampleSignals.ownMember? .signal "moved" 1 = some 9 := by decide +kernel
  have address : (sampleConnected.store.handle 1).address = sampleListener.1 := by decide +kernel
  obtain ⟨_, _, made, _⟩ := connect_all_or_nothing (Session.calls 0) sampleConnected 1 "changed"
    (.named "f") none
  obtain ⟨⟨relay, _, _, after⟩, greater, _⟩ := made 2 _ (Prod.ext connected rfl)
  obtain ⟨untouched, _, _, refused⟩ := connect_all_or_nothing (Session.calls 0) sampleConnected 1
    "moved" (.named "f") none
  have refuses := (refused 1 e sampleSignals_built (by decide +kernel) known).1
  obtain ⟨w', fails⟩ := refuses.arity object (by decide +kernel) 9 s (.own own) there (by omega)
  rw [three] at fails
  exact ⟨⟨_, relay, Prod.ext connected rfl, address ▸ after⟩, greater 1 issued, w', fails,
    untouched _ _ fails⟩

end Signal
end ObjectBridge
