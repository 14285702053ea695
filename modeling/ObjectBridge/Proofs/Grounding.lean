import ObjectBridge.Proofs.Amending
import ObjectBridge.Machine

/-!
# Grounded programs

A token that is no entry of the database is one that nobody handed out.  A grounded program never
names such a token: not where it looks an entry up, and not where it claims, traces, attaches or
calls one.  It gets its tokens from the replies of the machine, whose entries link to entries, so
being grounded is proved along its structure.  Calls may add entries, so the database is followed
from request to request; a program that only looks leaves it as it is.
-/

namespace ObjectBridge

/-- The panic of a lookup of a token that is no entry. -/
def Stop.unknownEntry (t : Token) : Stop :=
  .panicked ("unknown info token RawInfo(0x" ++ Text.hexDigits t ++ ")")

/-- The entries that a claim names. -/
def Claim.tokens : Claim → List Token
  | .entry t => [t]
  | _ => []

/-- The entries that a request names. -/
def Request.tokens : Request → List Token
  | .entry t | .openBlock t _ | .invoke t _ _ | .takeEntry t | .giveBackEntry t | .identify _ t
  | .implement t _ => [t]
  | .hold c | .letGo c => c.tokens
  | .openHandle info _ _ => info.toList
  | .attach _ _ reaction => reaction.claims.flatMap Claim.tokens
  | .trace entries => entries
  | _ => []

/-- Whether a claim names only entries. -/
def Database.Knows (db : Database) (c : Claim) : Prop := ∀ t ∈ c.tokens, db.Has t

/-- Whether everything that holds claims names only entries. -/
structure Store.Grounded (db : Database) (s : Store) : Prop where
  /-- The temporaries. -/
  held : ∀ c ∈ s.held, db.Knows c
  /-- The handles. -/
  handles : ∀ h r, s.handles.get? h = some r → ∀ c ∈ r.claims, db.Knows c
  /-- The connection records. -/
  closures : ∀ k r, s.closures.get? k = some r → ∀ c ∈ r.reaction.claims, db.Knows c

/-- Whether only entries are identified. -/
def Bench.Grounded (db : Database) (b : Bench) : Prop := ∀ row ∈ b.identifiers, db.Has row.2

namespace Request

/-- A request that names only entries, that replaces the database only by a later one, and that does
not stop as a lookup of an unknown token does. -/
def Grounded (db : Database) : Request → Prop
  | .setDatabase later => db.Edited later
  | .stop why => ∀ t, why ≠ .unknownEntry t
  | r => ∀ t ∈ r.tokens, db.Has t

/-- A request that names no entry, runs nothing and does not replace the database. -/
def nameless : Request → Bool
  | .setDatabase _ | .stop _ | .invoke _ _ _ | .callHost _ _ | .assignGlobal _ _
  | .perform _ => false
  | .entry _ | .openBlock _ _ | .takeEntry _ | .giveBackEntry _ | .identify _ _ | .implement _ _
  | .hold _ | .letGo _ | .openHandle _ _ _ | .attach _ _ _ | .trace _ => false
  | _ => true

/-- The databases that there may be after a request. -/
def Leads (db : Database) : Request → Database → Prop
  | .setDatabase new, later => later = new
  | .invoke _ _ _, later | .callHost _ _, later | .assignGlobal _ _, later
  | .perform _, later => db.Edited later
  | _, later => later = db

/-- What the reply to a request says about a database. -/
def Gives (db : Database) : (r : Request) → r.Reply → Prop
  | .entry t, e => db.entry? t = some e
  | .database, found => found = db
  | .store, s => s.Grounded db
  | .bench, b => b.Grounded db
  | _, _ => True

end Request

/-- A program that names only entries, and what it gives in the end. -/
def Program.Grounded {α : Type} (gives : Database → α → Prop) : Program α → Database → Prop
  | .done x, db => gives db x
  | .ask r next, db =>
    r.Grounded db
      ∧ ∀ reply later, r.Leads db later → r.Gives later reply → (next reply).Grounded gives later

/-- A program that names only entries and leaves the database as it is, and what it gives. -/
def Program.Looks {α : Type} (post : α → Prop) (p : Program α) (db : Database) : Prop :=
  p.Grounded (fun later x => later = db ∧ post x) db

/-- A program that may fail and names only entries, and what it gives if it does not fail. -/
def Bridge.Grounded {ε α : Type} (gives : Database → α → Prop) (p : ExceptT ε Program α)
    (db : Database) : Prop :=
  Program.Grounded (fun later r => ∀ x, r = .ok x → gives later x) p.run db

/-- A program that may fail, names only entries and leaves the database as it is, and what it gives
if it does not fail. -/
def Bridge.Looks {ε α : Type} (post : α → Prop) (p : ExceptT ε Program α) (db : Database) : Prop :=
  Program.Looks (fun r => ∀ x, r = .ok x → post x) p.run db

/-- Nothing is said about what a program gives. -/
def Database.anything {α : Type} (_ : Database) (_ : α) : Prop := True

/-- A request leaves a later database. -/
theorem Request.Grounded.edited {db later : Database} {r : Request} (grounded : r.Grounded db)
    (leads : r.Leads db later) : db.Edited later := by
  cases r with
  | setDatabase new =>
    cases leads
    exact grounded
  | invoke _ _ _ | callHost _ _ | assignGlobal _ _ | perform _ => exact leads
  | _ =>
    cases leads
    exact .refl db

/-- A known entry alone is known. -/
theorem Database.Has.alone {db : Database} {t : Token} (known : db.Has t) : ∀ u ∈ [t], db.Has u :=
  fun _ member => List.mem_singleton.mp member ▸ known

theorem Database.Has.given {db : Database} {t : Token} (known : db.Has t) :
    ∀ u ∈ some t, db.Has u := fun _ same => Option.mem_some.mp same ▸ known

namespace Program

variable {α β γ : Type} {db : Database} {t : Token} {gives gives' : Database → α → Prop}
  {gives₂ : Database → β → Prop} {post post' : α → Prop} {post₂ : β → Prop}

/-! ### Programs that may change the database -/

theorem grounded_pure {x : α} (holds : gives db x) : Grounded gives (pure x) db := holds

theorem Grounded.bind {p : Program α} {f : α → Program β} (first : p.Grounded gives db)
    (rest : ∀ x later, db.Edited later → gives later x → (f x).Grounded gives₂ later) :
    (p >>= f).Grounded gives₂ db := by
  induction p generalizing db with
  | done x => exact rest x db (.refl db) first
  | ask r next ih =>
    refine ⟨first.1, fun reply later leads given => ih reply (first.2 reply later leads given) ?_⟩
    exact fun x last edited holds => rest x last ((first.1.edited leads).trans edited) holds

theorem Grounded.weaken {p : Program α} (grounded : p.Grounded gives db)
    (weaker : ∀ x later, db.Edited later → gives later x → gives' later x) :
    p.Grounded gives' db := by
  induction p generalizing db with
  | done x => exact weaker x db (.refl db) grounded
  | ask r next ih =>
    refine ⟨grounded.1, fun reply later leads given =>
      ih reply (grounded.2 reply later leads given) ?_⟩
    exact fun x last edited holds => weaker x last ((grounded.1.edited leads).trans edited) holds

theorem grounded_request {r : Request} (grounded : r.Grounded db) :
    Grounded (fun later reply => r.Leads db later ∧ r.Gives later reply) (request r) db :=
  ⟨grounded, fun _ _ leads given => ⟨leads, given⟩⟩

/-- A call of the session leaves a later database. -/
theorem grounded_call {r : Request} (grounded : r.Grounded db) :
    Grounded Database.anything (request r) db :=
  (grounded_request grounded).weaken fun _ _ _ _ => trivial

/-- Programs that make an entry for each item make them one after the other. -/
theorem grounded_each {f : γ → Program Token} {items : List γ} (sound : db.Sound)
    (grounded : ∀ x ∈ items, ∀ later, db.Edited later → (f x).Grounded Database.Has later) :
    (each f items).Grounded (fun later ts => ∀ t ∈ ts, later.Has t) db := by
  induction items generalizing db with
  | nil => exact grounded_pure (List.forall_mem_nil _)
  | cons x rest ih =>
    refine (grounded x List.mem_cons_self db (.refl db)).bind fun t later edited known => ?_
    have onward : (each f rest).Grounded (fun last ts => ∀ t ∈ ts, last.Has t) later :=
      ih (edited.sound sound) fun y member last further =>
        grounded y (List.mem_cons_of_mem x member) last (edited.trans further)
    refine onward.bind fun ts last further others => grounded_pure ?_
    exact List.forall_mem_cons.mpr ⟨further.has (edited.sound sound) known, others⟩

theorem grounded_stop {why : Stop} (other : ∀ t, why ≠ .unknownEntry t) :
    Grounded gives (stop why : Program α) db :=
  ⟨other, fun (x : Empty) => x.elim⟩

/-! ### Programs that only look -/

theorem looks_pure {x : α} (holds : post x) : Looks post (pure x) db := ⟨rfl, holds⟩

theorem Looks.bind {p : Program α} {f : α → Program β} (first : p.Looks post db)
    (rest : ∀ x, post x → (f x).Looks post₂ db) : (p >>= f).Looks post₂ db :=
  Grounded.bind first fun x _ _ ⟨same, holds⟩ => by
    cases same
    exact rest x holds

/-- Continue after a program, whatever it gives. -/
theorem Looks.seq {p : Program α} {f : α → Program β} (first : p.Looks (fun _ => True) db)
    (rest : ∀ x, (f x).Looks post₂ db) : (p >>= f).Looks post₂ db :=
  first.bind fun x _ => rest x

/-- Continue after a program that only looks. -/
theorem Looks.next {p : Program α} {f : α → Program β} (first : p.Looks post db)
    (rest : ∀ x, post x → (f x).Grounded gives₂ db) : (p >>= f).Grounded gives₂ db :=
  Grounded.bind first fun x _ _ ⟨same, holds⟩ => by
    cases same
    exact rest x holds

theorem Looks.grounded {p : Program α} (looks : p.Looks post db)
    (weaker : ∀ x, post x → gives db x) : p.Grounded gives db :=
  Grounded.weaken looks fun x _ _ ⟨same, holds⟩ => by
    cases same
    exact weaker x holds

theorem Looks.anything {p : Program α} (looks : p.Looks post db) :
    p.Grounded Database.anything db :=
  looks.grounded fun _ _ => trivial

theorem Looks.weaken {p : Program α} (looks : p.Looks post db) (weaker : ∀ x, post x → post' x) :
    p.Looks post' db :=
  Grounded.weaken looks fun x _ _ ⟨same, holds⟩ => ⟨same, weaker x holds⟩

theorem looks_request {r : Request} (grounded : r.Grounded db)
    (stays : ∀ later, r.Leads db later → later = db) :
    Looks (r.Gives db) (request r : Program r.Reply) db :=
  (grounded_request grounded).weaken fun _ later _ ⟨leads, given⟩ => by
    cases stays later leads
    exact ⟨rfl, given⟩

theorem looks_stop {why : Stop} (other : ∀ t, why ≠ .unknownEntry t) :
    Looks post (stop why : Program α) db :=
  grounded_stop other

theorem looks_entry (known : db.Has t) : Looks (fun e => db.entry? t = some e) (entry t) db :=
  looks_request known.alone fun _ leads => leads

theorem looks_database : Looks (· = db) database db :=
  looks_request (List.forall_mem_nil _) fun _ leads => leads

theorem looks_store : Looks (Store.Grounded db) store db :=
  looks_request (List.forall_mem_nil _) fun _ leads => leads

theorem looks_bench : Looks (Bench.Grounded db) bench db :=
  looks_request (List.forall_mem_nil _) fun _ leads => leads

theorem looks_hold {c : Claim} (known : db.Knows c) : Looks (fun _ => True) (hold c) db :=
  looks_request known fun _ leads => leads

theorem looks_letGo {c : Claim} (known : db.Knows c) : Looks (fun _ => True) (letGo c) db :=
  looks_request known fun _ leads => leads

theorem looks_trace {entries : List Token} (known : ∀ t ∈ entries, db.Has t) :
    Looks (fun _ => True) (trace entries) db :=
  looks_request known fun _ leads => leads

/-- A request that names no entry may be asked anywhere. -/
theorem looks_plain {r : Request} (nameless : r.nameless = true) :
    Looks (fun _ => True) (request r : Program r.Reply) db := by
  refine (looks_request ?_ ?_).weaken fun _ _ => trivial
  · cases r <;> first | exact List.forall_mem_nil _ | cases nameless
  · cases r <;> first | exact fun _ leads => leads | cases nameless

theorem looks_memory : Looks (fun _ => True) memory db := looks_plain rfl

theorem looks_liveInstance {a : Address} : Looks (fun _ => True) (liveInstance a) db :=
  looks_plain rfl

theorem looks_warn {text : String} : Looks (fun _ => True) (warn text) db := looks_plain rfl

theorem looks_placeCells {cells : List Cell} : Looks (fun _ => True) (placeCells cells) db :=
  looks_plain rfl

theorem looks_place {bytes : List UInt8} : Looks (fun _ => True) (place bytes) db :=
  looks_placeCells

theorem looks_placeText {text : String} : Looks (fun _ => True) (placeText text) db := looks_place

/-- The record of a handle is typed by an entry. -/
theorem looks_handleRecord {h : HandleId} :
    Looks (fun r => ∀ t, r.info = some t → db.Has t) (handleRecord h) db := by
  refine looks_store.bind fun s grounded => looks_pure fun t typed => ?_
  unfold Store.handle at typed
  cases live : s.handles.get? h with
  | none => simp [live] at typed
  | some r =>
    simp only [live, Option.getD_some] at typed
    have claimed : Claim.entry t ∈ r.claims := by simp [HandleRecord.claims, typed, entryClaims]
    exact grounded.handles h r live _ claimed t List.mem_cons_self

theorem Looks.region {keep : α → List Claim} {p : Program α} (looks : p.Looks post db) :
    (region keep p).Looks post db :=
  (looks_plain (r := .mark) rfl).bind fun _ _ => looks.bind fun _ holds =>
    (looks_plain rfl).bind fun _ _ => looks_pure holds

theorem Grounded.region {keep : α → List Claim} {p : Program α} (grounded : p.Grounded gives db) :
    (region keep p).Grounded gives db :=
  (looks_plain (r := .mark) rfl).next fun _ _ => grounded.bind fun _ _ _ holds =>
    (looks_plain rfl).next fun _ _ => grounded_pure holds

theorem looks_each {f : γ → Program α} {items : List γ} (looks : ∀ x ∈ items, (f x).Looks post db) :
    (each f items).Looks (fun ys => ∀ y ∈ ys, post y) db := by
  induction items with
  | nil => exact looks_pure (List.forall_mem_nil _)
  | cons x rest ih =>
    refine (looks x List.mem_cons_self).bind fun y holds => ?_
    refine (ih fun z member => looks z (List.mem_cons_of_mem x member)).bind fun ys others => ?_
    exact looks_pure (List.forall_mem_cons.mpr ⟨holds, others⟩)

theorem looks_forEach {f : γ → Program Unit} {items : List γ}
    (looks : ∀ x ∈ items, (f x).Looks (fun _ => True) db) :
    (forEach f items).Looks (fun _ => True) db := by
  induction items with
  | nil => exact looks_pure trivial
  | cons x rest ih =>
    exact (looks x List.mem_cons_self).bind fun _ _ =>
      ih fun z member => looks z (List.mem_cons_of_mem x member)

/-- Steps and functions may be run one after the other. -/
theorem grounded_forEach {f : γ → Program Unit} {items : List γ}
    (grounded : ∀ x ∈ items, ∀ later, db.Edited later →
      (f x).Grounded Database.anything later) :
    (forEach f items).Grounded Database.anything db := by
  induction items generalizing db with
  | nil => exact grounded_pure trivial
  | cons x rest ih =>
    refine (grounded x List.mem_cons_self db (.refl db)).bind fun _ later edited _ => ?_
    exact ih fun z member last further =>
      grounded z (List.mem_cons_of_mem x member) last (edited.trans further)

end Program

namespace Bridge

variable {ε α β γ : Type} {db : Database} {gives gives' : Database → α → Prop}
  {gives₂ : Database → β → Prop} {post post' : α → Prop} {post₂ : β → Prop}

/-! ### Programs that may fail -/

theorem grounded_pure {x : α} (holds : gives db x) :
    Grounded gives (pure x : ExceptT ε Program α) db :=
  Program.grounded_pure fun _ same => Except.ok.inj same ▸ holds

theorem grounded_throw {e : ε} : Grounded gives (throw e : ExceptT ε Program α) db :=
  Program.grounded_pure fun _ same => nomatch same

theorem Grounded.bind {p : ExceptT ε Program α} {f : α → ExceptT ε Program β}
    (first : Grounded gives p db)
    (rest : ∀ x later, db.Edited later → gives later x → Grounded gives₂ (f x) later) :
    Grounded gives₂ (p >>= f) db := by
  refine Program.Grounded.bind first fun r later edited holds => ?_
  cases r with
  | error e => exact Program.grounded_pure fun _ same => nomatch same
  | ok x => exact rest x later edited (holds x rfl)

/-- Continue after a program that does not fail. -/
theorem Grounded.after {p : Program α} {f : α → ExceptT ε Program β} (first : p.Grounded gives db)
    (rest : ∀ x later, db.Edited later → gives later x → Grounded gives₂ (f x) later) :
    Grounded gives₂ (liftM p >>= f : ExceptT ε Program β) db := by
  have lifted : Grounded gives (liftM p : ExceptT ε Program α) db :=
    first.bind fun x later _ holds =>
      Program.grounded_pure fun _ same => Except.ok.inj same ▸ holds
  exact lifted.bind rest

theorem grounded_lift {p : Program α} (grounded : p.Grounded gives db) :
    Grounded gives (liftM p : ExceptT ε Program α) db :=
  grounded.bind fun _ _ _ holds => Program.grounded_pure fun _ same => Except.ok.inj same ▸ holds

theorem Grounded.region {keep : α → List Claim} {p : Bridge α} (grounded : Grounded gives p db) :
    Grounded gives (region keep p) db :=
  Program.Grounded.region grounded

theorem looks_pure {x : α} (holds : post x) : Looks post (pure x : ExceptT ε Program α) db :=
  Program.looks_pure fun _ same => Except.ok.inj same ▸ holds

theorem looks_throw {e : ε} : Looks post (throw e : ExceptT ε Program α) db :=
  Program.looks_pure fun _ same => nomatch same

theorem looks_except {r : Except ε α} : Looks (fun _ => True) (liftM r : ExceptT ε Program α) db :=
  Program.looks_pure fun _ _ => trivial

theorem Looks.bind {p : ExceptT ε Program α} {f : α → ExceptT ε Program β} (first : Looks post p db)
    (rest : ∀ x, post x → Looks post₂ (f x) db) : Looks post₂ (p >>= f) db := by
  refine Program.Looks.bind first fun r holds => ?_
  cases r with
  | error e => exact Program.looks_pure fun _ same => nomatch same
  | ok x => exact rest x (holds x rfl)

/-- Nothing follows a failure. -/
theorem looks_throw_bind {e : ε} {f : α → ExceptT ε Program β} :
    Looks post₂ (throw e >>= f : ExceptT ε Program β) db :=
  looks_throw

theorem looks_lift {p : Program α} (looks : p.Looks post db) :
    Looks post (liftM p : ExceptT ε Program α) db :=
  looks.bind fun _ holds => Program.looks_pure fun _ same => Except.ok.inj same ▸ holds

/-- Continue after a program that does not fail. -/
theorem Looks.after {p : Program α} {f : α → ExceptT ε Program β} (first : p.Looks post db)
    (rest : ∀ x, post x → Looks post₂ (f x) db) :
    Looks post₂ (liftM p >>= f : ExceptT ε Program β) db :=
  (looks_lift first).bind rest

/-- Continue after a program that only looks. -/
theorem Looks.next {p : ExceptT ε Program α} {f : α → ExceptT ε Program β} (first : Looks post p db)
    (rest : ∀ x, post x → Grounded gives₂ (f x) db) : Grounded gives₂ (p >>= f) db := by
  refine Program.Looks.next first fun r holds => ?_
  cases r with
  | error e => exact Program.grounded_pure fun _ same => nomatch same
  | ok x => exact rest x (holds x rfl)

/-- Continue after a program that only looks and does not fail. -/
theorem Grounded.past {p : Program α} {f : α → ExceptT ε Program β} (first : p.Looks post db)
    (rest : ∀ x, post x → Grounded gives₂ (f x) db) :
    Grounded gives₂ (liftM p >>= f : ExceptT ε Program β) db :=
  (looks_lift first).next rest

theorem Looks.grounded {p : ExceptT ε Program α} (looks : Looks post p db)
    (weaker : ∀ x, post x → gives db x) : Grounded gives p db :=
  Program.Looks.grounded looks fun _ holds x same => weaker x (holds x same)

theorem Looks.anything {p : ExceptT ε Program α} (looks : Looks post p db) :
    Grounded Database.anything p db :=
  looks.grounded fun _ _ => trivial

theorem Looks.region {keep : α → List Claim} {p : Bridge α} (looks : Looks post p db) :
    Looks post (region keep p) db :=
  Program.Looks.region looks

theorem looks_ofRuntime {reading : RuntimeFailure → Failure} {p : Runtime α}
    (looks : Looks post p db) : Looks post (ofRuntime reading p) db := by
  refine Program.Looks.bind looks fun r holds => Program.looks_pure fun x same => ?_
  cases r with
  | error e => cases same
  | ok y => exact holds x (congrArg Except.ok (Except.ok.inj same))

theorem looks_each {f : γ → Bridge α} {items : List γ} (looks : ∀ x ∈ items, Looks post (f x) db) :
    Looks (fun ys => ∀ y ∈ ys, post y) (each f items) db := by
  induction items with
  | nil => exact looks_pure (List.forall_mem_nil _)
  | cons x rest ih =>
    refine (looks x List.mem_cons_self).bind fun y holds => ?_
    refine (ih fun z member => looks z (List.mem_cons_of_mem x member)).bind fun ys others => ?_
    exact looks_pure (List.forall_mem_cons.mpr ⟨holds, others⟩)

theorem looks_mapM {f : γ → ExceptT ε Program α} {items : List γ}
    (looks : ∀ x, Looks (fun _ => True) (f x) db) :
    Looks (fun _ => True) (items.mapM f) db := by
  unfold List.mapM
  generalize ([] : List α) = done
  induction items generalizing done with
  | nil => exact looks_pure trivial
  | cons x rest ih => exact (looks x).bind fun y _ => ih (y :: done)

end Bridge
end ObjectBridge
