import ObjectBridge.Proofs.Boundaries
import ObjectBridge.Proofs.Orderly

/-!
# Tame programs

A program is tame if it names no handle and no connection record that was never made.  From an
orderly world a tame program only meets orderly worlds, at every boundary inside it and however it
ends.  Tameness is proved along the structure of a program; the functions and the nested steps that
it calls are taken to be tame, which an induction on the depth of the session provides.
-/

namespace ObjectBridge

/-- What was held when a store was read lies below the horizon of that moment. -/
def Store.Known (z : Horizon) (s : Store) : Prop :=
  (∀ name v, (name, v) ∈ s.bindings → v.Known z)
    ∧ (∀ name v, (name, v) ∈ s.globals → v.Known z)
    ∧ ∀ c r, s.closures.get? c = some r → ∀ claim ∈ r.reaction.claims, claim.Known z

/-- A request that names only what was made, and that leaves no reference among the temporaries. -/
def Request.Known (z : Horizon) : Request → Prop
  | .hold c => c.Known z
  | .openHandle _ attachment keeper =>
    (∀ k, keeper = some k → k < z.1) ∧ ∀ a, attachment ≠ some ⟨a, .block⟩
  | .create _ _ => False
  | .attach _ _ reaction => ∀ c ∈ reaction.claims, c.Known z
  | .callHost _ arguments => ∀ v ∈ arguments, v.Known z
  | .assignGlobal _ v => v.Known z
  | .storeGlobal _ v => v.Known z
  | .bind _ v => v.Known z
  | _ => True

/-- What the reply to a request names was made. -/
def Request.Given (z : Horizon) : (r : Request) → r.Reply → Prop
  | .store, s => s.Known z
  | .liveInstance _, i => ∀ c ∈ i.connections, c.closure < z.2
  | .openHandle _ _ _, (h : HandleId) => h < z.1
  | .openBlock _ _, (h : HandleId) => h < z.1
  | .callHost _ _, r => ∀ v, r = .ok v → v.Known z
  | _, _ => True

/-- What a run did to an orderly world: the boundaries it saw and the world it left are orderly, and
what it gave was made. -/
structure Kept {α : Type} (seen : List World) (w : World) (result : Outcome α × World)
    (gives : Horizon → α → Prop) : Prop where
  /-- The boundaries inside the run are orderly. -/
  seen : ∀ v ∈ seen, v.Orderly
  /-- The world after the run is orderly. -/
  onward : w.Onward result.2
  /-- What the run gave was made. -/
  gives : ∀ x, result.1 = .done x → gives result.2.horizon x

/-- What was given is nothing that was made. -/
def plain {α : Type} (_ : Horizon) (_ : α) : Prop := True

/-- What gives a value of the host, or fails. -/
def knownValue {ε : Type} (z : Horizon) (r : Except ε Value) : Prop := ∀ v, r = .ok v → v.Known z

/-- The functions and the nested steps of a session keep worlds orderly. -/
structure Stage.Tame (stage : Stage) : Prop where
  /-- Native functions do. -/
  native : ∀ callable inputs outputs w, w.Orderly →
    Kept (stage.native callable inputs outputs w) w (stage.calls.native callable inputs outputs w)
      plain
  /-- Host functions do, if their arguments were made. -/
  host : ∀ target arguments w, w.Orderly → (∀ v ∈ arguments, v.Known w.horizon) →
    Kept (stage.host target arguments w) w (stage.calls.host target arguments w) knownValue
  /-- Setting a global does, if its value was made. -/
  assign : ∀ name v w, w.Orderly → v.Known w.horizon →
    Kept (stage.assign name v w) w (stage.calls.assign name v w) plain
  /-- Nested steps do. -/
  step : ∀ s w, w.Orderly → Kept (stage.step s w) w (stage.calls.step s w) plain

/-- A program that keeps worlds orderly, once a horizon is reached. -/
def Program.Tame {α : Type} (p : Program α) (z : Horizon) (gives : Horizon → α → Prop) : Prop :=
  ∀ stage : Stage, stage.Tame → ∀ w : World, w.Orderly → z ≤ w.horizon →
    Kept (p.seen stage w) w (p.run stage.calls w) gives

/-- A program that may fail and keeps worlds orderly, once a horizon is reached. -/
def Bridge.Tame {ε α : Type} (p : ExceptT ε Program α) (z : Horizon)
    (gives : Horizon → α → Prop) : Prop :=
  Program.Tame p.run z fun z r => ∀ v, r = .ok v → gives z v

theorem Table.le_weight {α : Type} (f : α → Nat) {t : Table α} {key : Nat} {x : α}
    (found : t.get? key = some x) : f x ≤ t.weight f := by
  have weight := Table.weight_erase f t key x found
  omega

/-- A connection record holds entries, and a handle if that is its user data. -/
theorem Reaction.mem_claims {r : Reaction} {c : Claim} (member : c ∈ r.claims) :
    (∃ t, c = .entry t)
      ∨ ∃ h, c = .handle h ∧ ∃ relay, r = .relay relay ∧ relay.userData = some (.handle h) := by
  cases r with
  | fixed reply => simp [Reaction.claims] at member
  | relay relay =>
    simp only [Reaction.claims, List.mem_append, List.mem_cons, List.not_mem_nil, or_false,
      List.mem_map] at member
    rcases member with ((rfl | rfl) | data) | ⟨t, _, rfl⟩
    · exact .inl ⟨_, rfl⟩
    · exact .inl ⟨_, rfl⟩
    · split at data
      · next v given =>
        cases v with
        | handle h => exact .inr ⟨h, List.mem_singleton.mp data, relay, rfl, given⟩
        | _ => simp [Value.claims] at data
      · simp at data
    · exact .inl ⟨t, rfl⟩

namespace World

variable {w : World}

theorem Orderly.handle_known (orderly : w.Orderly) {h : HandleId}
    (held : 0 < w.store.holders (· == .handle h)) : h < w.horizon.1 :=
  orderly.books.lt_of_held.1 h held

/-- A value that is held is known. -/
theorem Orderly.value_known (orderly : w.Orderly) {v : Value}
    (held : ∀ c ∈ v.claims, 0 < w.store.holders (· == c)) : v.Known w.horizon := by
  intro c member
  cases v with
  | handle h =>
    rw [List.mem_singleton.mp member]
    exact orderly.handle_known (held _ (List.mem_singleton_self _))
  | _ => simp [Value.claims] at member

/-- What the store names is known. -/
theorem Orderly.store_known (orderly : w.Orderly) : w.store.Known w.horizon := by
  refine ⟨fun name v member => ?_, fun name v member => ?_, fun c r live claim member => ?_⟩
  · refine orderly.value_known fun c claimed => ?_
    have held : c ∈ valueClaims w.store.bindings := List.mem_flatMap.mpr ⟨_, member, claimed⟩
    have counted : 0 < (valueClaims w.store.bindings).countP (· == c) :=
      List.countP_pos_iff.mpr ⟨c, held, beq_self_eq_true c⟩
    simp only [Store.holders]
    omega
  · refine orderly.value_known fun c claimed => ?_
    have held : c ∈ valueClaims w.store.globals := List.mem_flatMap.mpr ⟨_, member, claimed⟩
    have counted : 0 < (valueClaims w.store.globals).countP (· == c) :=
      List.countP_pos_iff.mpr ⟨c, held, beq_self_eq_true c⟩
    simp only [Store.holders]
    omega
  · have held : 0 < w.store.holders (· == claim) := by
      have counted : 0 < r.reaction.claims.countP (· == claim) :=
        List.countP_pos_iff.mpr ⟨claim, member, beq_self_eq_true claim⟩
      have weight := Table.le_weight (fun c => c.reaction.claims.countP (· == claim)) live
      simp only [Store.holders]
      omega
    rcases Reaction.mem_claims member with ⟨t, rfl⟩ | ⟨h, rfl, _⟩
    · trivial
    · exact orderly.handle_known held

/-- What the connections of a live instance name is known. -/
theorem Orderly.instance_known (orderly : w.Orderly) {a : Address} {i : Instance}
    (live : w.store.instances.get? a = some i) :
    ∀ c ∈ i.connections, c.closure < w.horizon.2 := by
  intro c member
  refine orderly.books.lt_of_held.2 c.closure ?_
  have counted : 0 < i.claims.countP (· == .closure c.closure) :=
    List.countP_pos_iff.mpr
      ⟨.closure c.closure, List.mem_map_of_mem member, beq_self_eq_true _⟩
  have weight := Table.le_weight (fun i => i.claims.countP (· == .closure c.closure)) live
  simp only [Store.holders]
  omega

end World

/-- A native call keeps a world orderly, contained or not. -/
theorem World.Orderly.invoke {stage : Stage} (tame : stage.Tame) {w : World} (orderly : w.Orderly)
    (callable : Token) (inputs outputs : List Slot) :
    Kept (stage.native callable inputs outputs w.entering) w
      (w.invoke (stage.calls.native callable inputs outputs)) plain := by
  have entered : w.Onward w.entering := by
    simp only [World.entering]
    split
    · exact orderly.congr rfl (Nat.le_refl _)
    · exact orderly.onward
  have run := tame.native callable inputs outputs w.entering entered.orderly
  refine ⟨run.seen, entered.trans (run.onward.trans ?_), fun _ _ => trivial⟩
  by_cases contained : w.options.containment
  · simp only [World.invoke, World.contain, World.entering, contained, if_true]
    simp only [World.entering, contained, if_true] at run
    exact run.onward.orderly.congr rfl (Nat.le_refl _)
  · simp only [World.invoke, World.entering, contained]
    simp only [World.entering, contained] at run
    exact run.onward.orderly.onward

/-- The answer to a request about known things keeps a world orderly, and what it gives is known. -/
theorem World.Orderly.answer {stage : Stage} (tame : stage.Tame) {w : World} (orderly : w.Orderly)
    (r : Request) (known : r.Known w.horizon) :
    Kept (r.seen stage w) w (w.answer stage.calls r) fun z => r.Given z := by
  have still {β : Type} {reply : β} {gives : Horizon → β → Prop} (given : gives w.horizon reply) :
      Kept [] w (.done reply, w) gives :=
    ⟨by simp, orderly.onward, fun x equal => by cases equal; exact given⟩
  have moved {β : Type} {result : Outcome β × World} (onward : w.Onward result.2) :
      Kept [] w result plain := ⟨by simp, onward, fun _ _ => trivial⟩
  cases r with
  | entry t =>
    simp only [World.answer]
    split
    · exact still trivial
    · exact moved orderly.onward
  | database => exact still trivial
  | memory => exact still trivial
  | store => exact still orderly.store_known
  | liveInstance a =>
    refine ⟨by simp [Request.seen], orderly.withInstance fun i live => orderly.onward, ?_⟩
    intro x equal
    simp only [World.answer, World.withInstance] at equal ⊢
    split at equal
    · next i live =>
      cases equal
      exact orderly.instance_known live
    · cases equal
  | bench => exact still trivial
  | options => exact still trivial
  | required => exact still trivial
  | mark => exact still trivial
  | hold c => exact moved (orderly.hold known)
  | letGo c =>
    by_cases held : w.store.held.contains c = true
    · have answered : w.answer stage.calls (.letGo c)
          = (w.withStore (w.store.dropHeld c)).release [c] := if_pos held
      rw [answered]
      exact moved (orderly.letGo (List.contains_iff_mem.mp held))
    · have answered : w.answer stage.calls (.letGo c) = (.done (), w) := if_neg held
      rw [answered]
      exact moved orderly.onward
  | settle mark kept => exact moved (orderly.settle mark kept)
  | openHandle info attachment keeper =>
    have opened := World.opened_openHandle orderly.books info known.1 known.2
    exact ⟨by simp [Request.seen], opened.onward orderly.settled, opened.known⟩
  | openBlock info size =>
    have opened := World.opened_openBlock orderly.books info size
    exact ⟨by simp [Request.seen], opened.onward orderly.settled, opened.known⟩
  | place cells size => exact moved (orderly.place cells size)
  | write a cells => exact moved (orderly.congr rfl (Nat.le_refl _))
  | create number floating => exact known.elim
  | sink a => exact moved (orderly.withInstance fun i live => orderly.setInstance live rfl rfl)
  | storeProperty a name slot =>
    exact moved (orderly.withInstance fun i live => orderly.setInstance live rfl rfl)
  | attach a signal reaction =>
    exact moved (orderly.withInstance fun i live => orderly.attach live known signal)
  | invoke callable inputs outputs =>
    have run := orderly.invoke tame callable inputs outputs
    exact ⟨run.seen, run.onward, fun _ _ => trivial⟩
  | callHost target arguments => exact tame.host target arguments w orderly known
  | perform step => exact tame.step step w orderly
  | raise signal =>
    refine moved ?_
    simp only [World.answer]
    split
    · exact orderly.congr rfl (Nat.le_refl _)
    · exact orderly.onward
  | note event => exact moved (orderly.congr rfl (Nat.le_refl _))
  | assignGlobal name v => exact tame.assign name v w orderly known
  | storeGlobal name v => exact moved (orderly.storeGlobal name known)
  | dropGlobal name => exact moved (orderly.dropGlobal name)
  | bind name v => exact moved (orderly.bind name known)
  | unbind name => exact moved (orderly.unbind name)
  | trace entries =>
    refine moved ?_
    simp only [World.answer]
    split
    · exact orderly.trace entries
    · exact orderly.onward
  | setTracing on => exact moved (orderly.congr rfl (Nat.le_refl _))
  | tracing => exact still trivial
  | createDirect number => exact moved (orderly.createDirect number)
  | takeDirect a => exact moved (orderly.takeDirect a)
  | giveBackDirect a => exact moved (orderly.giveBackDirect a)
  | sinkDirect a => exact moved (orderly.sinkDirect a)
  | takeEntry t => exact moved ⟨⟨orderly.books.take_entry t, orderly.settled⟩, le_rfl⟩
  | giveBackEntry t => exact moved ⟨⟨orderly.books.give_entry t, orderly.settled⟩, le_rfl⟩
  | setDatabase db => exact moved (orderly.congr rfl (Nat.le_refl _))
  | recordRequired name version => exact moved (orderly.congr rfl (Nat.le_refl _))
  | identify id t => exact moved (orderly.congr rfl (Nat.le_refl _))
  | label name a => exact moved (orderly.congr rfl (Nat.le_refl _))
  | implement t native => exact moved (orderly.congr rfl (Nat.le_refl _))
  | define name function => exact moved (orderly.congr rfl (Nat.le_refl _))
  | stop why => exact moved orderly.onward

theorem Request.Known.mono {z z' : Horizon} (later : z ≤ z') {r : Request} (known : r.Known z) :
    r.Known z' := by
  cases r with
  | hold c => exact Claim.Known.mono later known
  | openHandle info attachment keeper =>
    exact ⟨fun k equal => Nat.lt_of_lt_of_le (known.1 k equal) later.1, known.2⟩
  | create number floating => exact known.elim
  | attach a signal reaction => exact fun c member => (known c member).mono later
  | callHost target arguments => exact fun v member => (known v member).mono later
  | assignGlobal name v => exact Value.Known.mono later known
  | storeGlobal name v => exact Value.Known.mono later known
  | bind name v => exact Value.Known.mono later known
  | _ => trivial

namespace Program

variable {α β γ : Type} {z : Horizon} {gives gives' : Horizon → α → Prop}
  {gives₂ : Horizon → β → Prop}

theorem run_bind (calls : Calls) (p : Program α) (f : α → Program β) (w : World) :
    (p >>= f).run calls w
      = match p.run calls w with
        | (.done v, w) => (f v).run calls w
        | (.stopped why, w) => (.stopped why, w) := by
  induction p generalizing w with
  | done v => rfl
  | ask request next ih =>
    change (Program.ask request fun reply => next reply >>= f).run calls w = _
    simp only [run]
    split
    · next reply w' answered => exact ih reply w'
    · rfl

theorem seen_bind (stage : Stage) (p : Program α) (f : α → Program β) (w : World) :
    (p >>= f).seen stage w
      = p.seen stage w
        ++ match p.run stage.calls w with
           | (.done v, w) => (f v).seen stage w
           | (.stopped _, _) => [] := by
  induction p generalizing w with
  | done v => simp [seen, run, Bind.bind, Program.bind]
  | ask request next ih =>
    change (Program.ask request fun reply => next reply >>= f).seen stage w = _
    simp only [seen, run]
    cases w.answer stage.calls request with
    | mk outcome w' =>
      cases outcome with
      | done reply => simp only [ih reply w', List.append_assoc]
      | stopped why => simp only [List.append_nil]

/-- A program that ends with a value, without a boundary inside. -/
structure Ends (stage : Stage) (p : Program α) (w : World) (v : α) (w' : World) : Prop where
  /-- The program ends with the value. -/
  run : p.run stage.calls w = (.done v, w')
  /-- There is no boundary inside. -/
  seen : p.seen stage w = []

theorem Ends.run_bind {stage : Stage} {p : Program α} {f : α → Program β} {w w' : World} {v : α}
    (ends : Ends stage p w v w') : (p >>= f).run stage.calls w = (f v).run stage.calls w' := by
  rw [Program.run_bind, ends.run]

theorem Ends.seen_bind {stage : Stage} {p : Program α} {f : α → Program β} {w w' : World} {v : α}
    (ends : Ends stage p w v w') : (p >>= f).seen stage w = (f v).seen stage w' := by
  rw [Program.seen_bind, ends.run, ends.seen, List.nil_append]

theorem Ends.bind {stage : Stage} {p : Program α} {f : α → Program β} {w w₁ w₂ : World} {v : α}
    {u : β} (first : Ends stage p w v w₁) (rest : Ends stage (f v) w₁ u w₂) :
    Ends stage (p >>= f) w u w₂ :=
  ⟨first.run_bind.trans rest.run, first.seen_bind.trans rest.seen⟩

theorem ends_request {stage : Stage} {r : Request} {w w' : World} {v : r.Reply}
    (answered : w.answer stage.calls r = (.done v, w')) (unseen : r.seen stage w = []) :
    Ends stage (request r) w v w' :=
  ⟨by simp [request, Program.run, answered], by simp [request, Program.seen, answered, unseen]⟩

/-- A program that stops before its end, without a boundary inside. -/
structure Stops (stage : Stage) (p : Program α) (w : World) (why : Stop) (w' : World) : Prop where
  /-- The program stops. -/
  run : p.run stage.calls w = (.stopped why, w')
  /-- There is no boundary inside. -/
  seen : p.seen stage w = []

theorem Stops.bind {stage : Stage} {p : Program α} {f : α → Program β} {w w' : World} {why : Stop}
    (stops : Stops stage p w why w') : Stops stage (p >>= f) w why w' :=
  ⟨by rw [Program.run_bind, stops.run], by rw [Program.seen_bind, stops.run, stops.seen]; rfl⟩

theorem stops_request {stage : Stage} {r : Request} {w w' : World} {why : Stop}
    (answered : w.answer stage.calls r = (.stopped why, w')) (unseen : r.seen stage w = []) :
    Stops stage (request r) w why w' :=
  ⟨by simp [request, Program.run, answered], by simp [request, Program.seen, answered, unseen]⟩

/-- Looking at an entry that does not exist panics. -/
theorem stops_entry {stage : Stage} {w : World} {t : Token} (missing : w.database.entry? t = none) :
    ∃ why, Stops stage (entry t) w why w :=
  ⟨_, stops_request (by simp only [World.answer, missing]; rfl) rfl⟩

theorem ends_entry {stage : Stage} {w : World} {t : Token} {e : Entry}
    (found : w.database.entry? t = some e) : Ends stage (entry t) w e w :=
  ends_request (by simp [World.answer, found]) rfl

theorem tame_pure {v : α} (given : ∀ z', z ≤ z' → gives z' v) :
    Tame (pure v : Program α) z gives := by
  intro stage tame w orderly later
  refine ⟨by simp [Pure.pure, seen], orderly.onward, fun x equal => ?_⟩
  cases equal
  exact given w.horizon later

theorem Tame.bind {p : Program α} {f : α → Program β} (first : p.Tame z gives)
    (rest : ∀ z' v, z ≤ z' → gives z' v → (f v).Tame z' gives₂) : Tame (p >>= f) z gives₂ := by
  intro stage tame w orderly later
  have ran := first stage tame w orderly later
  rw [seen_bind, run_bind]
  cases result : p.run stage.calls w with
  | mk outcome w' =>
    rw [result] at ran
    cases outcome with
    | stopped why =>
      exact ⟨by simpa using ran.seen, ran.onward, fun x equal => by cases equal⟩
    | done v =>
      have after := rest w'.horizon v (le_trans later ran.onward.later) (ran.gives v rfl) stage tame w'
        ran.onward.orderly le_rfl
      refine ⟨fun u member => ?_, ran.onward.trans after.onward, after.gives⟩
      rcases List.mem_append.mp member with early | late
      · exact ran.seen u early
      · exact after.seen u late

/-- What is computed from the value of a program is given in the same world. -/
theorem Tame.map {p : Program α} {f : α → β} (tame : p.Tame z gives)
    (given : ∀ z' v, gives z' v → gives₂ z' (f v)) : Tame (p >>= fun v => pure (f v)) z gives₂ := by
  intro stage contract w orderly later
  have ran := tame stage contract w orderly later
  rw [seen_bind, run_bind]
  cases result : p.run stage.calls w with
  | mk outcome w' =>
    rw [result] at ran
    cases outcome with
    | stopped why =>
      exact ⟨by simpa using ran.seen, ran.onward, fun x equal => by cases equal⟩
    | done v =>
      refine ⟨fun u member => ran.seen u ?_, ran.onward, fun x equal => ?_⟩
      · simpa [Pure.pure, seen] using member
      · cases equal
        exact given _ v (ran.gives v rfl)

theorem tame_request {r : Request} (known : r.Known z) : Tame (request r) z fun z => r.Given z := by
  intro stage tame w orderly later
  have answered := orderly.answer tame r (known.mono later)
  have ran : (request r).run stage.calls w = w.answer stage.calls r := by
    simp only [request, run]
    split <;> simp_all
  have met : (request r).seen stage w = r.seen stage w := by
    simp only [request, seen]
    split <;> simp
  rw [ran, met]
  exact answered

theorem Tame.weaken {p : Program α} (tame : p.Tame z gives)
    (given : ∀ z' v, z ≤ z' → gives z' v → gives' z' v) : p.Tame z gives' := by
  intro stage contract w orderly later
  have ran := tame stage contract w orderly later
  exact ⟨ran.seen, ran.onward,
    fun x equal => given _ x (le_trans later ran.onward.later) (ran.gives x equal)⟩

theorem Tame.plain {p : Program α} (tame : p.Tame z gives) : p.Tame z plain :=
  tame.weaken fun _ _ _ _ => trivial

theorem tame_stop {why : Stop} : Tame (stop why : Program α) z gives := by
  intro stage contract w orderly later
  exact ⟨by simp [stop, seen, Request.seen, World.answer], orderly.onward,
    fun x equal => by cases equal⟩

/-- Giving temporaries back at the end of a program. -/
theorem run_settle (stage : Stage) (mark : Nat) (kept : List Claim) (v : α) (w : World) :
    ((request (.settle mark kept) : Program Unit) >>= fun _ => pure v).run stage.calls w
        = ((w.settle mark kept).1.map fun _ => v, (w.settle mark kept).2)
      ∧ ((request (.settle mark kept) : Program Unit) >>= fun _ => pure v).seen stage w = [] := by
  rw [run_bind, seen_bind]
  simp only [request, run, seen, Request.seen, World.answer]
  cases w.settle mark kept with
  | mk outcome w' => cases outcome <;> exact ⟨rfl, rfl⟩

/-- Running a program and giving its temporaries back is tame if the program is. -/
theorem Tame.region {keep : α → List Claim} {p : Program α} (tame : p.Tame z gives) :
    Tame (region keep p) z gives := by
  refine (tame_request (r := .mark) trivial).bind fun z₁ (mark : Nat) later _ => ?_
  intro stage contract w orderly reached
  have ran := tame stage contract w orderly (le_trans later reached)
  rw [seen_bind, run_bind]
  cases result : p.run stage.calls w with
  | mk outcome w' =>
    rw [result] at ran
    cases outcome with
    | stopped why =>
      exact ⟨by simpa using ran.seen, ran.onward, fun x equal => by cases equal⟩
    | done v =>
      -- Settling changes no horizon, so the value is as known after it as before it.
      obtain ⟨settled, unseen⟩ := run_settle stage mark (keep v) v w'
      change Kept (p.seen stage w
          ++ ((request (.settle mark (keep v)) : Program Unit) >>= fun _ => pure v).seen stage w') w
        (((request (.settle mark (keep v)) : Program Unit) >>= fun _ => pure v).run stage.calls w')
        gives
      rw [settled, unseen, List.append_nil]
      refine ⟨ran.seen, ran.onward.trans (ran.onward.orderly.settle mark (keep v)), ?_⟩
      intro x equal
      have same : (w'.settle mark (keep v)).2.horizon = w'.horizon :=
        Store.release_horizon _ _
      rw [same]
      refine ran.gives x ?_
      cases ended : (w'.settle mark (keep v)).1 with
      | stopped why =>
        rw [ended] at equal
        cases equal
      | done u =>
        rw [ended] at equal
        exact equal

/-- Running a tame program for each item is tame. -/
theorem tame_each {f : γ → Program α} {items : List γ}
    (tame : ∀ x ∈ items, ∀ z', z ≤ z' → (f x).Tame z' gives)
    (stable : ∀ z' z'' v, z' ≤ z'' → gives z' v → gives z'' v) :
    Tame (each f items) z fun z vs => ∀ v ∈ vs, gives z v := by
  induction items generalizing z with
  | nil => exact tame_pure fun z' _ v member => by simp at member
  | cons x rest ih =>
    refine (tame x List.mem_cons_self z le_rfl).bind fun z₁ y later first => ?_
    refine (ih fun u member z' reached => tame u (List.mem_cons_of_mem _ member) z'
      (le_trans later reached)).bind fun z₂ ys later₂ others => ?_
    refine tame_pure fun z₃ later₃ v member => ?_
    rcases List.mem_cons.mp member with rfl | old
    · exact stable _ _ _ (le_trans later₂ later₃) first
    · exact stable _ _ _ later₃ (others v old)

theorem tame_forEach {f : γ → Program Unit} {items : List γ}
    (tame : ∀ x ∈ items, ∀ z', z ≤ z' → (f x).Tame z' plain) : Tame (forEach f items) z plain := by
  induction items generalizing z with
  | nil => exact tame_pure fun _ _ => trivial
  | cons x rest ih =>
    refine (tame x List.mem_cons_self z le_rfl).bind fun z₁ y later first => ?_
    exact ih fun u member z' reached => tame u (List.mem_cons_of_mem _ member) z'
      (le_trans later reached)

theorem tame_entry {t : Token} : Tame (entry t) z plain := tame_request trivial

theorem tame_database : Tame database z plain := tame_request trivial

theorem tame_memory : Tame memory z plain := tame_request trivial

theorem tame_store : Tame store z fun z s => s.Known z := tame_request trivial

theorem tame_liveInstance {a : Address} :
    Tame (liveInstance a) z fun z i => ∀ c ∈ i.connections, c.closure < z.2 :=
  tame_request (r := .liveInstance a) trivial

theorem tame_bench : Tame bench z plain := tame_request trivial

theorem tame_hold {c : Claim} (known : c.Known z) : Tame (hold c) z plain :=
  (tame_request (r := .hold c) known).plain

theorem tame_letGo {c : Claim} : Tame (letGo c) z plain := tame_request trivial

theorem tame_trace {entries : List Token} : Tame (trace entries) z plain := tame_request trivial

theorem tame_warn {text : String} : Tame (warn text) z plain := tame_request trivial

theorem tame_handleRecord {h : HandleId} : Tame (handleRecord h) z plain :=
  tame_store.bind fun _ _ _ _ => tame_pure fun _ _ => trivial

end Program

namespace Bridge

variable {ε ε' α β γ : Type} {z : Horizon} {gives gives' : Horizon → α → Prop}
  {gives₂ : Horizon → β → Prop}

theorem tame_pure {v : α} (given : ∀ z', z ≤ z' → gives z' v) :
    Tame (pure v : ExceptT ε Program α) z gives :=
  Program.tame_pure fun z' later _ equal => Except.ok.inj equal ▸ given z' later

theorem tame_throw {e : ε} : Tame (throw e : ExceptT ε Program α) z gives :=
  Program.tame_pure fun _ _ _ equal => by cases equal

/-- Nothing follows a failure. -/
theorem tame_throw_bind {e : ε} {f : β → ExceptT ε Program α} :
    Tame (throw e >>= f : ExceptT ε Program α) z gives :=
  tame_throw

theorem tame_lift {p : Program α} (tame : p.Tame z gives) :
    Tame (liftM p : ExceptT ε Program α) z gives :=
  tame.map fun _ _ given _ equal => Except.ok.inj equal ▸ given

theorem Tame.bind {p : ExceptT ε Program α} {f : α → ExceptT ε Program β} (first : Tame p z gives)
    (rest : ∀ z' v, z ≤ z' → gives z' v → Tame (f v) z' gives₂) : Tame (p >>= f) z gives₂ := by
  refine Program.Tame.bind first fun z' r later given => ?_
  cases r with
  | error e => exact Program.tame_pure fun _ _ _ equal => by cases equal
  | ok v => exact rest z' v later (given v rfl)

/-- Tracing the failures of the object runtime as failures of the bridge is tame. -/
theorem tame_ofRuntime {reading : RuntimeFailure → Failure} {p : Runtime α} (tame : Tame p z gives) :
    Tame (ofRuntime reading p) z gives := by
  refine Program.Tame.map tame fun z' r given v equal => ?_
  cases r with
  | error e => cases equal
  | ok u => exact given v (by simpa [Except.mapError] using equal)

theorem Tame.region {keep : α → List Claim} {p : Bridge α} (tame : Tame p z gives) :
    Tame (region keep p) z gives :=
  Program.Tame.region tame

end Bridge

end ObjectBridge

