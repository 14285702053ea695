import ObjectBridge.Handle.Eval
import ObjectBridge.Session.Direct
import ObjectBridge.Proofs.Showing
import ObjectBridge.Proofs.Wrapping

/-!
# Constructing instances is tame

The first reference of a new instance is a temporary, so a world is not orderly in the middle of a
construction.  But nothing is called there and nothing stops: the temporaries only grow, and the
region around the construction gives the reference back, after a handle or the session has taken one
of its own.
-/

namespace ObjectBridge

open Program Descriptor

variable {z : Horizon}

/-- Claims end nothing. -/
theorem Store.isLive_claimAll (a : Address) (claims : List Claim) (s : Store) :
    (s.claimAll claims).isLive a = s.isLive a := by
  induction claims generalizing s with
  | nil => rfl
  | cons c rest ih =>
    refine (ih (s.claim c)).trans ?_
    cases c with
    | reference b =>
      simp only [Store.claim]
      split
      · exact Table.contains_set _ _ _ _
      · rfl
    | handle h =>
      simp only [Store.claim]
      split <;> rfl
    | closure c =>
      simp only [Store.claim]
      split <;> rfl
    | _ => rfl

/-- What a program that only adds temporaries did: the books are in order, what was held before is
still held below, and a program that stopped has left no reference. -/
structure World.Pushed {α : Type} (w : World) (result : Outcome α × World)
    (gives : World → α → Prop) : Prop where
  /-- The books are in order. -/
  books : result.2.store.Accounted result.2.memory.next []
  /-- Nothing is forgotten. -/
  later : w.horizon ≤ result.2.horizon
  /-- The temporaries only grow. -/
  held : ∃ top, result.2.store.held = top ++ w.store.held
    ∧ ∀ why, result.1 = .stopped why → ∀ a, .reference a ∉ top
  /-- What holds of the value of the program. -/
  gives : ∀ x, result.1 = .done x → gives result.2 x

/-- A program that calls nothing and only adds temporaries. -/
def Program.Pushing {α : Type} (p : Program α) (gives : World → α → Prop) : Prop :=
  ∀ (stage : Stage) (w : World), w.store.Accounted w.memory.next [] →
    p.seen stage w = [] ∧ w.Pushed (p.run stage.calls w) gives

/-- A program that may fail, calls nothing and only adds temporaries. -/
def Bridge.Pushing {ε α : Type} (p : ExceptT ε Program α) (gives : World → α → Prop) : Prop :=
  Program.Pushing p.run fun w r => ∀ v, r = .ok v → gives w v

/-- A world whose books are in order, and that only has more than an earlier one. -/
structure World.Grown (w w' : World) : Prop where
  /-- The books are in order. -/
  books : w'.store.Accounted w'.memory.next []
  /-- Nothing is forgotten. -/
  later : w.horizon ≤ w'.horizon
  /-- The temporaries only grow. -/
  held : ∃ top, w'.store.held = top ++ w.store.held

/-- A program that works on a live instance and never stops. -/
def Program.Building {α : Type} (a : Address) (p : Program α) (gives : World → α → Prop) : Prop :=
  ∀ (stage : Stage) (w : World), w.store.Accounted w.memory.next [] → w.store.isLive a = true →
    ∃ v w', Ends stage p w v w' ∧ w.Grown w' ∧ w'.store.isLive a = true ∧ gives w' v

/-- A program that may fail, works on a live instance and never stops. -/
def Bridge.Building {ε α : Type} (a : Address) (p : ExceptT ε Program α)
    (gives : World → α → Prop) : Prop :=
  Program.Building a p.run fun w r => ∀ v, r = .ok v → gives w v

theorem World.Grown.trans {w₁ w₂ w₃ : World} (first : w₁.Grown w₂) (second : w₂.Grown w₃) :
    w₁.Grown w₃ := by
  obtain ⟨older, below⟩ := first.held
  obtain ⟨newer, above⟩ := second.held
  refine ⟨second.books, le_trans first.later second.later, newer ++ older, ?_⟩
  rw [above, below, List.append_assoc]

namespace Program

variable {α β γ : Type} {a : Address} {gives : World → α → Prop} {gives₂ : World → β → Prop}

theorem building_pure {v : α} (given : ∀ w, w.store.isLive a = true → gives w v) :
    Building a (pure v) gives :=
  fun _ w books live => ⟨v, w, ⟨rfl, rfl⟩, ⟨books, le_rfl, [], rfl⟩, live, given w live⟩

theorem Building.bind {p : Program α} {f : α → Program β} (first : Building a p gives)
    (rest : ∀ v, Building a (f v) gives₂) : Building a (p >>= f) gives₂ := by
  intro stage w books live
  obtain ⟨v, w₁, ran, grown, still, _⟩ := first stage w books live
  obtain ⟨u, w₂, after, more, there, given⟩ := rest v stage w₁ grown.books still
  exact ⟨u, w₂, ran.bind after, grown.trans more, there, given⟩

theorem building_forEach {f : γ → Program Unit} {items : List γ}
    (building : ∀ x, Building a (f x) fun _ _ => True) :
    Building a (forEach f items) fun _ _ => True := by
  induction items with
  | nil => exact building_pure fun _ _ => trivial
  | cons x rest ih => exact (building x).bind fun _ => ih

/-- A request that leaves the store alone. -/
theorem building_request {r : Request}
    (answered : ∀ (calls : Calls) (w : World), ∃ (v : r.Reply) (w' : World),
      w.answer calls r = (.done v, w') ∧ w'.store = w.store ∧ w.memory.next ≤ w'.memory.next)
    (unseen : ∀ (stage : Stage) (w : World), r.seen stage w = []) :
    Building a (request r) fun _ _ => True := by
  intro stage w books live
  obtain ⟨v, w', answer, same, more⟩ := answered stage.calls w
  refine ⟨v, w', ends_request answer (unseen stage w), ⟨?_, ?_, [], ?_⟩, same ▸ live, trivial⟩
  · rw [same]
    exact books.reserve more
  · rw [World.horizon, World.horizon, same]
  · rw [same]
    rfl

theorem building_database : Building a database fun _ _ => True :=
  building_request (r := .database) (fun _ w => ⟨w.database, w, rfl, rfl, Nat.le_refl _⟩)
    fun _ _ => rfl

theorem building_memory : Building a memory fun _ _ => True :=
  building_request (r := .memory) (fun _ w => ⟨w.memory, w, rfl, rfl, Nat.le_refl _⟩)
    fun _ _ => rfl

theorem building_place {bytes : List UInt8} : Building a (place bytes) fun _ _ => True :=
  building_request (r := .place (Cell.ofBytes bytes) (Cell.ofBytes bytes).length)
    (fun _ w => ⟨_, _, rfl, rfl, Nat.le_of_lt (w.place_lt _ _).2⟩) fun _ _ => rfl

/-- A request about the live instance itself. -/
theorem building_instance {r : Request} (reply : Instance → r.Reply)
    (after : World → Instance → World)
    (answered : ∀ (calls : Calls) (w : World) i, w.store.instances.get? a = some i →
      w.answer calls r = (.done (reply i), after w i))
    (unseen : ∀ (stage : Stage) (w : World), r.seen stage w = [])
    (body : ∀ (w : World) i, w.store.Accounted w.memory.next [] →
      w.store.instances.get? a = some i →
      (after w i).store.Accounted (after w i).memory.next []
        ∧ (after w i).store.isLive a = true ∧ w.horizon ≤ (after w i).horizon
        ∧ (after w i).store.held = w.store.held) :
    Building a (request r) fun _ _ => True := by
  intro stage w books live
  obtain ⟨i, found⟩ := Option.isSome_iff_exists.mp live
  obtain ⟨kept, alive, later, held⟩ := body w i books found
  exact ⟨reply i, after w i, ends_request (answered stage.calls w i found) (unseen stage w),
    ⟨kept, later, [], held⟩, alive, trivial⟩

theorem isLive_set {s : Store} {i : Instance} (live : s.instances.get? a = some i) (i' : Instance) :
    (s.setInstance a i').isLive a = true := by
  rw [Store.isLive, Store.setInstance, Table.contains_set, Table.contains, live]
  rfl

theorem building_liveInstance : Building a (liveInstance a) fun _ _ => True :=
  building_instance (r := .liveInstance a) (fun i => i) (fun w _ => w)
    (fun _ w i found => by simp [World.answer, World.withInstance, found]) (fun _ _ => rfl)
    fun _ i books found => ⟨books, by simp [Store.isLive, Table.contains, found], le_rfl, rfl⟩

theorem building_sink : Building a (request (.sink a)) fun _ _ => True :=
  building_instance (r := .sink a) (fun _ => ())
    (fun w i => w.setInstance a { i with floating := false })
    (fun _ w i found => by simp [World.answer, World.withInstance, found]) (fun _ _ => rfl)
    fun _ _ books found => ⟨books.setInstance found rfl rfl, isLive_set found _, le_rfl, rfl⟩

theorem building_storeProperty {name : String} {slot : Slot} :
    Building a (request (.storeProperty a name slot)) fun _ _ => True :=
  building_instance (r := .storeProperty a name slot) (fun _ => ())
    (fun w i => w.setInstance a { i with properties := assign name slot i.properties })
    (fun _ w i found => by simp [World.answer, World.withInstance, found]) (fun _ _ => rfl)
    fun _ _ books found => ⟨books.setInstance found rfl rfl, isLive_set found _, le_rfl, rfl⟩

theorem building_takeDirect : Building a (request (.takeDirect a)) fun _ _ => True :=
  building_instance (r := .takeDirect a) (fun _ => ())
    (fun w i =>
      (w.setInstance a { i with references := i.references + 1 }).balance (·.take a))
    (fun _ w i found => by
      simp only [World.answer, World.takeDirect, World.withInstance, found]
      rfl)
    (fun _ _ => rfl) fun _ i books found =>
      ⟨(books.claim_reference found).take_balance (books.instances a i found).2,
        isLive_set found _, le_rfl, rfl⟩

/-- A handle with a reference of its own to the live instance. -/
theorem building_retained (info : Option Token) :
    Building a (Handle.retained info a) fun w h => h < w.horizon.1 := by
  intro stage w books live
  have made : ∃ h r, w.openHandle info (if a = 0 then none else some ⟨a, .retained⟩) none
      = (.done h, w.withStore (w.store.addHandle r).2) := by
    by_cases null : a = 0
    · exact ⟨_, { info := info }, by rw [if_pos null]; rfl⟩
    · exact ⟨_, { info := info, attachment := some ⟨a, .retained⟩ }, by
        rw [if_neg null]
        exact if_pos live⟩
  obtain ⟨h, r, made⟩ := made
  have opened : w.Opened (w.openHandle info (if a = 0 then none else some ⟨a, .retained⟩) none) :=
    World.opened_openHandle books info (by simp) fun b => by split <;> simp
  rw [made] at opened
  refine ⟨h, _, ends_request (r := .openHandle info _ none) made rfl,
    ⟨opened.books, opened.later, ?_⟩, (Store.isLive_claimAll a r.claims w.store).trans live,
    opened.known h rfl⟩
  rcases opened.held with same | ⟨k, pushed⟩
  · exact ⟨[], same⟩
  · exact ⟨[.handle k], pushed⟩

/-- Reading before a program that adds temporaries. -/
theorem Pushing.after {p : Program α} {f : α → Program β} (first : p.Reading)
    (rest : ∀ v, (f v).Pushing gives₂) : (p >>= f).Pushing gives₂ := by
  intro stage w books
  obtain ⟨unseen, top, ran⟩ := first stage w
  rw [seen_bind, run_bind, unseen]
  have entries : ∀ a, Claim.reference a ∉ top := fun a member => by
    have entry := ran.entries _ member
    simp [Claim.isEntry] at entry
  cases result : p.run stage.calls w with
  | mk outcome w' =>
    rw [result] at ran
    cases outcome with
    | stopped why =>
      exact ⟨rfl, ran.books books, le_of_eq ran.horizon.symm, ⟨top, ran.held, fun _ _ => entries⟩,
        fun x equal => by cases equal⟩
    | done v =>
      obtain ⟨unseen', pushed⟩ := rest v stage w' (ran.books books)
      obtain ⟨newer, above, clean⟩ := pushed.held
      refine ⟨unseen', pushed.books, le_trans (le_of_eq ran.horizon.symm) pushed.later,
        ⟨newer ++ top, ?_, fun why stops a member => ?_⟩, pushed.gives⟩
      · rw [above, ran.held, List.append_assoc]
      · rcases List.mem_append.mp member with new | old
        · exact clean why stops a new
        · exact entries a old

/-- What follows may only use what was given, and must end. -/
theorem Pushing.bind {p : Program α} {f : α → Program β} (first : p.Pushing gives)
    (rest : ∀ v (stage : Stage) (w : World), w.store.Accounted w.memory.next [] → gives w v →
      ∃ u w', Ends stage (f v) w u w' ∧ w.Grown w' ∧ gives₂ w' u) : (p >>= f).Pushing gives₂ := by
  intro stage w books
  obtain ⟨unseen, ran⟩ := first stage w books
  rw [seen_bind, run_bind, unseen]
  cases result : p.run stage.calls w with
  | mk outcome w' =>
    rw [result] at ran
    obtain ⟨older, below, clean⟩ := ran.held
    cases outcome with
    | stopped why =>
      exact ⟨rfl, ran.books, ran.later, ⟨older, below, fun _ _ => clean why rfl⟩,
        fun x equal => by cases equal⟩
    | done v =>
      obtain ⟨u, w'', ends, more, given⟩ := rest v stage w' ran.books (ran.gives v rfl)
      obtain ⟨top, held⟩ := (World.Grown.mk ran.books ran.later ⟨older, below⟩).trans more |>.held
      simp only [ends.run, ends.seen, List.append_nil]
      refine ⟨trivial, more.books, le_trans ran.later more.later, ⟨top, held, ?_⟩, ?_⟩
      · intro why equal
        cases equal
      · intro x equal
        cases equal
        exact given

/-- A new instance is live, and its first reference is a temporary. -/
theorem pushing_create {number : TypeNumber} {floating : Bool} :
    Pushing (request (.create number floating)) fun w (a : Address) =>
      w.store.isLive a = true := by
  intro stage w books
  have room := w.place_lt [] World.instanceStorage
  have made := (books.addInstance room.2 number floating).hold_owed
  refine ⟨rfl, made, le_rfl, ⟨[_], rfl, fun why equal => by cases equal⟩, fun a equal => ?_⟩
  cases equal
  have fresh := books.unreserved (Nat.le_refl w.memory.next)
  change ((w.store.instances.insert w.memory.next _).get? w.memory.next).isSome = true
  rw [Table.get?_insert _ fresh, if_pos rfl]
  rfl

/-- Giving the temporaries back, the reference to a new instance among them, keeps a world
orderly. -/
theorem Pushing.region (gives : World → α → Prop) {keep : α → List Claim}
    {given : Horizon → α → Prop} {p : Program α} (pushing : p.Pushing gives) (kept : ∀ v a, Claim.reference a ∉ keep v)
    (known : ∀ w v, gives w v → given w.horizon v) : (region keep p).Tame z given := by
  intro stage contract w orderly later
  obtain ⟨unseen, ran⟩ := pushing stage w orderly.books
  change Kept ((p >>= fun v => (request (.settle w.store.held.length (keep v)) : Program Unit) >>=
      fun _ => pure v).seen stage w) w
    ((p >>= fun v => (request (.settle w.store.held.length (keep v)) : Program Unit) >>=
      fun _ => pure v).run stage.calls w) given
  rw [seen_bind, run_bind, unseen]
  cases result : p.run stage.calls w with
  | mk outcome w' =>
    rw [result] at ran
    obtain ⟨top, held, clean⟩ := ran.held
    cases outcome with
    | stopped why =>
      refine ⟨by simp, ⟨⟨ran.books, fun a member => ?_⟩, ran.later⟩, fun x equal => by cases equal⟩
      rw [held] at member
      rcases List.mem_append.mp member with new | old
      · exact clean why rfl a new
      · exact orderly.settled a old
    | done v =>
      obtain ⟨settled, unseen'⟩ := run_settle stage w.store.held.length (keep v) v w'
      simp only [settled, unseen', List.append_nil]
      have onward : w'.Onward (w'.settle w.store.held.length (keep v)).2 := by
        refine World.onward_settle ran.books _ _ fun a member => ?_
        rcases List.mem_append.mp member with staying | older
        · exact kept v a (Store.mem_kept_of_mem_part staying)
        · rw [held, List.length_append, Nat.add_sub_cancel, List.drop_left] at older
          exact orderly.settled a older
      refine ⟨by simp, ⟨onward.orderly, le_trans ran.later onward.later⟩, fun x equal => ?_⟩
      have same : (w'.settle w.store.held.length (keep v)).2.horizon = w'.horizon :=
        Store.release_horizon _ _
      rw [same]
      cases ended : (w'.settle w.store.held.length (keep v)).1 with
      | stopped why =>
        rw [ended] at equal
        cases equal
      | done u =>
        rw [ended] at equal
        cases equal
        exact known w' v (ran.gives v rfl)

end Program

namespace Bridge

variable {ε α β : Type} {a : Address} {gives : World → α → Prop} {gives₂ : World → β → Prop}

theorem pushing_throw {e : ε} : Pushing (throw e : ExceptT ε Program α) gives := by
  intro stage w books
  refine ⟨rfl, books, le_rfl, ⟨[], rfl, fun _ _ _ => by simp⟩, fun r equal v ended => ?_⟩
  cases equal
  cases ended

theorem pushing_lift {p : Program α} (pushing : p.Pushing gives) :
    Pushing (liftM p : ExceptT ε Program α) gives :=
  Program.Pushing.bind pushing fun v _ w books given =>
    ⟨.ok v, w, ⟨rfl, rfl⟩, ⟨books, le_rfl, [], rfl⟩, fun _ equal => Except.ok.inj equal ▸ given⟩

theorem Pushing.after {p : ExceptT ε Program α} {f : α → ExceptT ε Program β} (first : Reading p)
    (rest : ∀ v, Pushing (f v) gives₂) : Pushing (p >>= f) gives₂ := by
  refine Program.Pushing.after first fun r => ?_
  cases r with
  | error e => exact pushing_throw
  | ok v => exact rest v

theorem building_lift {p : Program α} (building : Program.Building a p gives) :
    Building a (liftM p : ExceptT ε Program α) gives := by
  intro stage w books live
  obtain ⟨v, w', ends, more, there, given⟩ := building stage w books live
  exact ⟨.ok v, w', ends.bind ⟨rfl, rfl⟩, more, there, fun u equal => Except.ok.inj equal ▸ given⟩

theorem Building.bind {p : ExceptT ε Program α} {f : α → ExceptT ε Program β}
    (first : Building a p gives) (rest : ∀ v, Building a (f v) gives₂) :
    Building a (p >>= f) gives₂ := by
  refine Program.Building.bind first fun r => ?_
  cases r with
  | error e => exact Program.building_pure fun _ _ _ equal => by cases equal
  | ok v => exact rest v

theorem Pushing.bind {p : ExceptT ε Program Address} {f : Address → ExceptT ε Program β}
    (first : Pushing p fun w a => w.store.isLive a = true)
    (rest : ∀ a, Building a (f a) gives₂) : Pushing (p >>= f) gives₂ := by
  refine Program.Pushing.bind first fun r stage w books given => ?_
  cases r with
  | error e => exact ⟨_, w, ⟨rfl, rfl⟩, ⟨books, le_rfl, [], rfl⟩, fun u equal => by cases equal⟩
  | ok a =>
    obtain ⟨u, w', ends, more, _, given'⟩ := rest a stage w books (given a rfl)
    exact ⟨u, w', ends, more, given'⟩

theorem pushing_ofRuntime {reading : RuntimeFailure → Failure} {p : Runtime α}
    (pushing : Pushing p gives) : Pushing (ofRuntime reading p) gives := by
  refine Program.Pushing.bind pushing fun r stage w books given => ?_
  refine ⟨_, w, ⟨rfl, rfl⟩, ⟨books, le_rfl, [], rfl⟩, fun u equal => ?_⟩
  cases r with
  | error e => cases equal
  | ok v => exact given u (by simpa [Except.mapError] using equal)

theorem Pushing.region (gives : World → α → Prop) {keep : α → List Claim}
    {given : Horizon → α → Prop} {p : Bridge α} (pushing : Pushing p gives) (kept : ∀ v a, Claim.reference a ∉ keep v)
    (known : ∀ w v, gives w v → given w.horizon v) : Tame (region keep p) z given := by
  refine Program.Pushing.region _ pushing (fun r a => ?_) fun w r holds v equal =>
    known w v (holds v equal)
  cases r with
  | error e => simp
  | ok v => exact kept v a

end Bridge

namespace Runtime

variable {a : Address}

theorem building_copyString {tag : Tag} {slot : Slot} :
    Program.Building a (copyString tag slot) fun _ _ => True := by
  unfold copyString
  split
  · exact building_memory.bind fun m => building_place.bind fun b =>
      building_pure fun _ _ => trivial
  · exact building_pure fun _ _ => trivial

theorem building_storeProperty {property : Token} {name : String} {slot : Slot} :
    Program.Building a (storeProperty a property name slot) fun _ _ => True :=
  building_database.bind fun _ => building_liveInstance.bind fun _ => building_copyString.bind
    fun _ => Program.building_storeProperty

/-- A constructed instance is live. -/
theorem pushing_construct {number : TypeNumber} {initial : List Initial} :
    Bridge.Pushing (construct number initial) fun w a => w.store.isLive a = true := by
  refine .after (Bridge.reading_lift reading_database) fun db => ?_
  split
  · exact Bridge.pushing_throw
  · refine .after (Bridge.reading_lift reading_entry) fun e => ?_
    dsimp only
    split
    · exact Bridge.pushing_throw
    · refine .after Bridge.reading_except fun found => ?_
      refine .bind (Bridge.pushing_lift pushing_create) fun a => ?_
      exact .bind (Bridge.building_lift <| building_forEach fun _ => building_storeProperty)
        fun _ => building_pure fun w live b equal => Except.ok.inj equal ▸ live

end Runtime

namespace Handle

theorem reading_encodeInitial {info : Token} {name : String} {v : Value}
    {block : Codec.ArgumentBlock} : Bridge.Reading (encodeInitial info name v block) := by
  refine .region ((Bridge.reading_lift Member.reading_findProperty).bind fun found => ?_)
  split
  · exact Bridge.reading_throw
  · exact reading_memberType.bind fun type => Codec.reading_encode.bind fun _ => Bridge.reading_pure

theorem reading_encodeInitials {info : Token} {limit : Nat} {arguments : List Argument}
    {block : Codec.ArgumentBlock} : Bridge.Reading (encodeInitials info limit arguments block) := by
  induction limit generalizing arguments block with
  | zero => exact Bridge.reading_pure
  | succ limit ih =>
    refine Bridge.reading_except.bind fun next => ?_
    split
    · exact Bridge.reading_pure
    · exact reading_encodeInitial.bind fun _ => ih.bind fun _ => Bridge.reading_pure

/-- Constructing an instance of an object type is tame. -/
theorem tame_constructObject {info : Token} {arguments : List Argument} :
    Bridge.Tame (constructObject info arguments) z fun z h => h < z.1 := by
  refine Bridge.Pushing.region (fun w h => h < w.horizon.1) ?_ (fun h a => by simp [claims])
    fun _ _ known => known
  refine .after reading_encodeInitials fun initial => ?_
  refine .after (Bridge.reading_lift reading_trace) fun _ => ?_
  refine .after (Bridge.reading_lift reading_entry) fun e => ?_
  refine .after (Bridge.reading_lift reading_qualifiedName) fun name => ?_
  refine .bind (Bridge.pushing_ofRuntime Runtime.pushing_construct) fun a => ?_
  refine .bind (Bridge.building_lift building_liveInstance) fun i => ?_
  have made := Bridge.building_lift (ε := Failure) (building_retained (a := a) (some info))
  split
  · exact .bind (Bridge.building_lift building_sink) fun _ => made
  · exact made

end Handle

namespace Session

/-- Constructing an instance for the session itself is tame. -/
theorem tame_constructDirect {number : TypeNumber} {initial : List Runtime.Initial} :
    Bridge.Tame (constructDirect number initial) z plain := by
  refine Bridge.Pushing.region (fun _ _ => True) ?_ (fun _ a => by simp [keepNothing])
    fun _ _ _ => trivial
  exact .bind (Bridge.pushing_ofRuntime Runtime.pushing_construct) fun a =>
    .bind (Bridge.building_lift building_takeDirect) fun _ => building_pure fun _ _ _ _ => trivial

end Session
end ObjectBridge
