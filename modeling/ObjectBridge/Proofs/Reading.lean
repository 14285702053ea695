import ObjectBridge.Proofs.Tame

/-!
# Reading programs

Most programs of the bridge only ask the type database and look at things.  Such a program takes
references to entries, which its temporaries hold, and changes nothing else that is counted; in
particular it runs no other function, and every reference that it takes is given back when its
temporaries are.
-/

namespace ObjectBridge

/-- What a reading program does to a world: it adds references to entries on top of the temporaries
and takes each of them once, and it may reserve storage. -/
structure World.Reading (w w' : World) (top : List Claim) : Prop where
  /-- The new temporaries are references to entries. -/
  entries : ∀ c ∈ top, c.isEntry = true
  /-- Only the ledger and the temporaries change. -/
  store : w'.store = { w.store with ledger := w'.store.ledger, held := top ++ w.store.held }
  /-- Each new temporary is one reference. -/
  ledger : ∀ t, w'.store.ledger.get t = w.store.ledger.get t + top.count (.entry t)
  /-- The total grows by the number of the new temporaries. -/
  total : w'.store.ledger.total = w.store.ledger.total + top.length
  /-- No storage is given up. -/
  next : w.memory.next ≤ w'.memory.next

namespace World

variable {w w₁ w₂ w' : World} {top : List Claim}

/-- A change that leaves the store alone. -/
theorem reading_of_store_eq (store : w'.store = w.store)
    (next : w.memory.next ≤ w'.memory.next) : w.Reading w' [] :=
  ⟨by simp, by simp [store], by simp [store], by simp [store], next⟩

theorem Reading.refl (w : World) : w.Reading w [] := reading_of_store_eq rfl (Nat.le_refl _)

theorem Reading.trans {newer older : List Claim} (first : w.Reading w₁ older)
    (second : w₁.Reading w₂ newer) : w.Reading w₂ (newer ++ older) where
  entries c member := by
    rcases List.mem_append.mp member with new | old
    · exact second.entries c new
    · exact first.entries c old
  store := by
    rw [second.store, first.store]
    simp only [List.append_assoc]
  ledger t := by
    rw [second.ledger, first.ledger, List.count_append]
    omega
  total := by
    rw [second.total, first.total, List.length_append]
    omega
  next := Nat.le_trans first.next second.next

theorem Reading.held (reading : w.Reading w' top) : w'.store.held = top ++ w.store.held := by
  rw [reading.store]

/-- What a reading program does keeps the books in order. -/
theorem Reading.books (reading : w.Reading w' top) {owed : List Claim}
    (books : w.store.Accounted w.memory.next owed) :
    w'.store.Accounted w'.memory.next owed := by
  have counted := books.reserve reading.next
  have holders (p : Claim → Bool) : w'.store.holders p = w.store.holders p + top.countP p := by
    rw [reading.store]
    simp only [Store.holders, List.countP_append]
    omega
  have entries : top.countP Claim.isEntry = top.length := List.countP_eq_length.mpr reading.entries
  have absent (c : Claim) (other : c.isEntry = false) : top.countP (· == c) = 0 :=
    List.countP_eq_zero.mpr fun d member same => by
      have entry := reading.entries d member
      rw [eq_of_beq same, other] at entry
      contradiction
  have total := reading.total
  have ledger := reading.ledger
  rw [reading.store] at holders ⊢
  exact
    { counted with
      counted := fun c => by
        have count := counted.counted c
        rw [holders]
        cases c with
        | entry t =>
          simp only [Store.counts] at count ⊢
          rw [ledger, count, List.count]
          omega
        | _ =>
          rw [absent _ rfl, Nat.add_zero]
          exact count
      total := by
        have sum := counted.total
        rw [holders, entries]
        simp only at sum total ⊢
        omega }

theorem Reading.horizon (reading : w.Reading w' top) : w'.horizon = w.horizon := by
  rw [World.horizon, World.horizon, reading.store]
  rfl

/-- What a reading program does keeps a world orderly. -/
theorem Reading.onward (reading : w.Reading w' top) (orderly : w.Orderly) : w.Onward w' where
  orderly :=
    { books := reading.books orderly.books
      settled := fun a member => by
        rw [reading.held] at member
        rcases List.mem_append.mp member with new | old
        · have entry := reading.entries _ new
          simp [Claim.isEntry] at entry
        · exact orderly.settled a old }
  later := le_of_eq reading.horizon.symm

/-- Giving entries back only changes the ledger. -/
theorem release_entries {claims : List Claim} (entries : ∀ c ∈ claims, c.isEntry = true)
    (s : Store) :
    ∃ ledger : Tally, s.release claims = ([], { s with ledger := ledger })
      ∧ (∀ t, ledger.get t = s.ledger.get t - claims.count (.entry t))
      ∧ ledger.total = s.ledger.total - claims.length := by
  induction claims generalizing s with
  | nil => exact ⟨s.ledger, by simp [Store.release], by simp, by simp⟩
  | cons c rest ih =>
    cases c with
    | entry t =>
      obtain ⟨ledger, released, counts, sum⟩ :=
        ih (fun d member => entries d (List.mem_cons_of_mem _ member))
          { s with ledger := s.ledger.giveBack t }
      refine ⟨ledger, by simp only [Store.release, released], fun u => ?_, ?_⟩
      · rw [counts, Tally.get_giveBack, List.count_cons]
        simp only [beq_iff_eq, Claim.entry.injEq, eq_comm (a := t)]
        split <;> omega
      · rw [sum, Tally.total_giveBack, List.length_cons]
        omega
    | _ =>
      have entry := entries _ List.mem_cons_self
      simp [Claim.isEntry] at entry

/-- Giving the temporaries of a reading program back is reading, and never fails. -/
theorem Reading.settle (reading : w.Reading w' top) (kept : List Claim) :
    (w'.settle w.store.held.length kept).1 = .done ()
      ∧ w.Reading (w'.settle w.store.held.length kept).2 (Store.part top kept).1 := by
  have newer : w'.store.held.take (w'.store.held.length - w.store.held.length) = top := by
    rw [reading.held, List.length_append, Nat.add_sub_cancel, List.take_left]
  have older : w'.store.held.drop (w'.store.held.length - w.store.held.length) = w.store.held := by
    rw [reading.held, List.length_append, Nat.add_sub_cancel, List.drop_left]
  have order := Store.part_perm top kept
  have entries : ∀ c ∈ (Store.part top kept).2, c.isEntry = true := fun c member =>
    reading.entries c (order.mem_iff.mp (List.mem_append_right _ member))
  obtain ⟨ledger, released, counts, sum⟩ := release_entries entries
    { w'.store with held := (Store.part top kept).1 ++ w.store.held }
  have settled : w'.settle w.store.held.length kept
      = (.done (), { w' with store :=
          { w'.store with ledger := ledger, held := (Store.part top kept).1 ++ w.store.held } }) := by
    simp only [World.settle, newer, older, World.withStore, World.release, released,
      Outcome.ofFaults]
  rw [settled]
  refine ⟨rfl, ?_, ?_, fun t => ?_, ?_, reading.next⟩
  · exact fun c member => reading.entries c (Store.mem_of_mem_part member)
  · rw [reading.store]
  · have pieces := order.count_eq (.entry t)
    have before := reading.ledger t
    have after := counts t
    simp only [List.count_append] at pieces after ⊢
    omega
  · have pieces := order.length_eq
    have before := reading.total
    simp only [List.length_append] at pieces sum ⊢
    omega

end World

/-- A request that at most claims an entry. -/
def Request.reads : Request → Bool
  | .hold c => c.isEntry
  | .letGo _ | .settle _ _ | .openHandle _ _ _ | .openBlock _ _ | .create _ _ | .sink _
  | .storeProperty _ _ _ | .attach _ _ _ | .invoke _ _ _ | .callHost _ _ | .perform _
  | .assignGlobal _ _ | .storeGlobal _ _ | .dropGlobal _ | .bind _ _ | .unbind _
  | .createDirect _ | .takeDirect _ | .giveBackDirect _ | .sinkDirect _ | .takeEntry _
  | .giveBackEntry _ => false
  | _ => true

/-- A program that only reads, in any world and however it ends. -/
def Program.Reading {α : Type} (p : Program α) : Prop :=
  ∀ (stage : Stage) (w : World),
    p.seen stage w = [] ∧ ∃ top, w.Reading (p.run stage.calls w).2 top

/-- A program that may fail and only reads. -/
def Bridge.Reading {ε α : Type} (p : ExceptT ε Program α) : Prop := Program.Reading p.run

namespace World

variable {w : World}

/-- Claiming an entry is reading. -/
theorem reading_hold (w : World) (t : Token) :
    w.Reading (w.withStore (w.store.hold (.entry t))) [.entry t] where
  entries c member := by
    rw [List.mem_singleton.mp member]
    rfl
  store := rfl
  ledger u := by
    simp only [withStore, Store.hold, Store.claim, Tally.get_take, List.count_cons, List.count_nil,
      beq_iff_eq, Claim.entry.injEq, eq_comm (a := t)]
    split <;> rfl
  total := Tally.total_take w.store.ledger t
  next := Nat.le_refl _

/-- Tracing is reading. -/
theorem reading_trace (entries : List Token) (w : World) :
    w.Reading (entries.foldl traceName w) [] := by
  induction entries generalizing w with
  | nil => exact .refl w
  | cons t rest ih =>
    obtain ⟨ledger, traced, same, sum⟩ := w.traceName_ledger t
    have first : w.Reading (w.traceName t) [] := by
      rw [traced]
      exact ⟨by simp, rfl, by simpa [withStore] using same, by simpa [withStore] using sum,
        Nat.le_refl _⟩
    exact first.trans (ih (w.traceName t))

/-- The answer to a reading request is reading. -/
theorem reading_answer (calls : Calls) (r : Request) (reads : r.reads = true) (w : World) :
    ∃ top, w.Reading (w.answer calls r).2 top := by
  cases r with
  | hold c =>
    cases c with
    | entry t => exact ⟨_, reading_hold w t⟩
    | _ => simp [Request.reads, Claim.isEntry] at reads
  | entry t =>
    refine ⟨[], ?_⟩
    simp only [answer]
    split <;> exact .refl w
  | liveInstance a =>
    refine ⟨[], ?_⟩
    simp only [answer, withInstance]
    split <;> exact .refl w
  | place cells size => exact ⟨[], reading_of_store_eq rfl (Nat.le_of_lt (w.place_lt cells size).2)⟩
  | raise signal =>
    refine ⟨[], ?_⟩
    simp only [answer]
    split
    · exact reading_of_store_eq rfl (Nat.le_refl _)
    · exact .refl w
  | trace entries =>
    refine ⟨[], ?_⟩
    simp only [answer]
    split
    · exact reading_trace entries w
    · exact .refl w
  | letGo _ | settle _ _ | openHandle _ _ _ | openBlock _ _ | create _ _ | sink _
  | storeProperty _ _ _ | attach _ _ _ | invoke _ _ _ | callHost _ _ | perform _
  | assignGlobal _ _ | storeGlobal _ _ | dropGlobal _ | bind _ _ | unbind _
  | createDirect _ | takeDirect _ | giveBackDirect _ | sinkDirect _ | takeEntry _
  | giveBackEntry _ => simp [Request.reads] at reads
  | _ => exact ⟨[], reading_of_store_eq rfl (Nat.le_refl _)⟩

end World

namespace Program

variable {α β γ : Type}

theorem reading_pure {v : α} : Reading (pure v : Program α) :=
  fun _ w => ⟨rfl, [], .refl w⟩

theorem reading_request {r : Request} (reads : r.reads = true) : Reading (request r) := by
  intro stage w
  have ran : (request r).run stage.calls w = w.answer stage.calls r := by
    simp only [request, run]
    split <;> simp_all
  have met : (request r).seen stage w = [] := by
    have none_inside : r.seen stage w = [] := by
      cases r <;> first | rfl | simp [Request.reads] at reads
    simp only [request, seen, none_inside]
    split <;> rfl
  rw [ran]
  exact ⟨met, w.reading_answer stage.calls r reads⟩

theorem Reading.bind {p : Program α} {f : α → Program β} (first : p.Reading)
    (rest : ∀ v, (f v).Reading) : (p >>= f).Reading := by
  intro stage w
  obtain ⟨unseen, older, ran⟩ := first stage w
  rw [seen_bind, run_bind, unseen]
  cases result : p.run stage.calls w with
  | mk outcome w' =>
    rw [result] at ran
    cases outcome with
    | stopped why => exact ⟨rfl, older, ran⟩
    | done v =>
      obtain ⟨unseen', newer, after⟩ := rest v stage w'
      exact ⟨unseen', newer ++ older, ran.trans after⟩

/-- Giving the temporaries of a reading program back is reading. -/
theorem Reading.region {keep : α → List Claim} {p : Program α} (reading : p.Reading) :
    (region keep p).Reading := by
  intro stage w
  obtain ⟨unseen, top, ran⟩ := reading stage w
  change (p >>= fun v => (request (.settle w.store.held.length (keep v)) : Program Unit) >>=
      fun _ => pure v).seen stage w = []
    ∧ ∃ top, w.Reading ((p >>= fun v =>
      (request (.settle w.store.held.length (keep v)) : Program Unit) >>=
      fun _ => pure v).run stage.calls w).2 top
  rw [seen_bind, run_bind, unseen]
  cases result : p.run stage.calls w with
  | mk outcome w' =>
    rw [result] at ran
    cases outcome with
    | stopped why => exact ⟨rfl, top, ran⟩
    | done v =>
      obtain ⟨settled, unseen'⟩ := run_settle stage w.store.held.length (keep v) v w'
      simp only [settled, unseen', List.append_nil]
      exact ⟨trivial, _, (ran.settle (keep v)).2⟩

/-- A reading program is tame. -/
theorem Reading.tame {p : Program α} (reading : p.Reading) {z : Horizon} : p.Tame z plain := by
  intro stage contract w orderly later
  obtain ⟨unseen, top, ran⟩ := reading stage w
  exact ⟨by simp [unseen], ran.onward orderly, fun _ _ => trivial⟩

theorem reading_stop {why : Stop} : Reading (stop why : Program α) := by
  intro stage w
  exact ⟨by simp [stop, seen, Request.seen, World.answer], [], .refl w⟩

theorem reading_each {f : γ → Program α} {items : List γ} (reading : ∀ x, (f x).Reading) :
    (each f items).Reading := by
  induction items with
  | nil => exact reading_pure
  | cons x rest ih => exact (reading x).bind fun y => ih.bind fun ys => reading_pure

theorem reading_forEach {f : γ → Program Unit} {items : List γ} (reading : ∀ x, (f x).Reading) :
    (forEach f items).Reading := by
  induction items with
  | nil => exact reading_pure
  | cons x rest ih => exact (reading x).bind fun y => ih

theorem reading_entry {t : Token} : Reading (entry t) := reading_request rfl

theorem reading_database : Reading database := reading_request rfl

theorem reading_memory : Reading memory := reading_request rfl

theorem reading_store : Reading store := reading_request rfl

theorem reading_liveInstance {a : Address} : Reading (liveInstance a) := reading_request rfl

theorem reading_bench : Reading bench := reading_request rfl

theorem reading_holdEntry {t : Token} : Reading (hold (.entry t)) := reading_request rfl

theorem reading_trace {entries : List Token} : Reading (trace entries) := reading_request rfl

theorem reading_warn {text : String} : Reading (warn text) := reading_request rfl

theorem reading_handleRecord {h : HandleId} : Reading (handleRecord h) :=
  reading_store.bind fun _ => reading_pure

theorem reading_placeCells {cells : List Cell} : Reading (placeCells cells) := reading_request rfl

theorem reading_place {bytes : List UInt8} : Reading (place bytes) := reading_placeCells

theorem reading_placeText {text : String} : Reading (placeText text) := reading_place

end Program

namespace Bridge

variable {ε α β γ : Type}

theorem reading_pure {v : α} : Reading (pure v : ExceptT ε Program α) := Program.reading_pure

theorem reading_throw {e : ε} : Reading (throw e : ExceptT ε Program α) := Program.reading_pure

/-- Nothing follows a failure. -/
theorem reading_throw_bind {e : ε} {f : α → ExceptT ε Program β} :
    Reading (throw e >>= f : ExceptT ε Program β) :=
  reading_throw

theorem reading_lift {p : Program α} (reading : p.Reading) :
    Reading (liftM p : ExceptT ε Program α) :=
  reading.bind fun _ => Program.reading_pure

theorem reading_except {r : Except ε α} : Reading (liftM r : ExceptT ε Program α) :=
  Program.reading_pure

theorem Reading.bind {p : ExceptT ε Program α} {f : α → ExceptT ε Program β} (first : Reading p)
    (rest : ∀ v, Reading (f v)) : Reading (p >>= f) := by
  refine Program.Reading.bind first fun r => ?_
  cases r with
  | error e => exact Program.reading_pure
  | ok v => exact rest v

theorem Reading.region {keep : α → List Claim} {p : Bridge α} (reading : Reading p) :
    Reading (region keep p) :=
  Program.Reading.region reading

theorem reading_ofRuntime {reading : RuntimeFailure → Failure} {p : Runtime α}
    (reads : Reading p) : Reading (ofRuntime reading p) :=
  Program.Reading.bind reads fun _ => Program.reading_pure

theorem reading_each {f : γ → Bridge α} {items : List γ} (reading : ∀ x, Reading (f x)) :
    Reading (each f items) := by
  induction items with
  | nil => exact reading_pure
  | cons x rest ih => exact (reading x).bind fun y => ih.bind fun ys => reading_pure

theorem reading_mapM {f : γ → ExceptT ε Program α} {items : List γ} (reading : ∀ x, Reading (f x)) :
    Reading (items.mapM f) := by
  unfold List.mapM
  generalize ([] : List α) = done
  induction items generalizing done with
  | nil => exact reading_pure
  | cons x rest ih => exact (reading x).bind fun y => ih (y :: done)

theorem Reading.tame {p : ExceptT ε Program α} (reading : Reading p) {z : Horizon} :
    Tame p z plain :=
  Program.Tame.weaken (Program.Reading.tame reading) fun _ _ _ _ _ _ => trivial

end Bridge

end ObjectBridge
