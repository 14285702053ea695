import ObjectBridge.Proofs.Reading

/-!
# What reading programs give

A program that ends in a world and only reads is known by the value that it gives and the memory
that it leaves: the type database stays as it is, and of the counted things only the references to
entries grow.  The rules here find both along the structure of a program.
-/

namespace ObjectBridge

/-- What a program that only reads leaves of a world, and the memory after it. -/
structure World.Reached (w w' : World) (m : Memory) : Prop where
  /-- Entries may have been claimed. -/
  reading : ∃ top, w.Reading w' top
  /-- The type database is the same. -/
  database : w'.database = w.database
  /-- The memory. -/
  memory : w'.memory = m

namespace World

variable {w w₁ w₂ : World} {m m₁ : Memory}

theorem Reached.refl (same : w.memory = m) : w.Reached w m := ⟨⟨[], .refl w⟩, rfl, same⟩

theorem Reached.trans (first : w.Reached w₁ m₁) (second : w₁.Reached w₂ m) : w.Reached w₂ m := by
  obtain ⟨older, before⟩ := first.reading
  obtain ⟨newer, after⟩ := second.reading
  exact ⟨⟨newer ++ older, before.trans after⟩, second.database.trans first.database, second.memory⟩

theorem Reached.handle (reached : w.Reached w₁ m) (h : HandleId) :
    w₁.store.handle h = w.store.handle h := by
  obtain ⟨_, reading⟩ := reached.reading
  rw [reading.store]
  rfl

theorem memory_trace (entries : List Token) (w : World) :
    (entries.foldl traceName w).memory = w.memory
      ∧ (entries.foldl traceName w).database = w.database := by
  induction entries generalizing w with
  | nil => exact ⟨rfl, rfl⟩
  | cons t rest ih => exact ih (w.traceName t)

end World

/-- A program that only reads ends with a value and leaves some memory. -/
def Program.Gives {α : Type} (calls : Calls) (p : Program α) (w : World) (v : α) (m : Memory) :
    Prop :=
  ∃ w', p.run calls w = (.done v, w') ∧ w.Reached w' m

/-- A program that may fail and only reads ends with a result and leaves some memory. -/
def Bridge.Gives {ε α : Type} (calls : Calls) (p : ExceptT ε Program α) (w : World)
    (r : Except ε α) (m : Memory) : Prop :=
  Program.Gives calls p.run w r m

namespace Program

variable {α β : Type} {calls : Calls} {w : World} {m m₁ : Memory}

theorem gives_pure {v : α} (same : w.memory = m) : Gives calls (pure v) w v m :=
  ⟨w, rfl, .refl same⟩

theorem Gives.bind {p : Program α} {f : α → Program β} {v : α} {u : β}
    (first : Gives calls p w v m₁)
    (rest : ∀ w₁, w.Reached w₁ m₁ → Gives calls (f v) w₁ u m) : Gives calls (p >>= f) w u m := by
  obtain ⟨w₁, ran, reached⟩ := first
  obtain ⟨w₂, ended, after⟩ := rest w₁ reached
  refine ⟨w₂, ?_, reached.trans after⟩
  rw [run_bind, ran]
  exact ended

theorem gives_request {r : Request} {v : r.Reply} {w' : World}
    (answered : w.answer calls r = (.done v, w')) (reached : w.Reached w' m) :
    Gives calls (request r) w v m :=
  ⟨w', by simp [request, run, answered], reached⟩

theorem gives_entry {t : Token} {e : Entry} (found : w.database.entry? t = some e)
    (same : w.memory = m) : Gives calls (entry t) w e m :=
  gives_request (by simp [World.answer, found]) (.refl same)

theorem gives_store (same : w.memory = m) : Gives calls store w w.store m :=
  gives_request rfl (.refl same)

theorem gives_memory (same : w.memory = m) : Gives calls memory w m m := by
  subst same
  exact gives_request rfl (.refl rfl)

theorem gives_hold {t : Token} (same : w.memory = m) : Gives calls (hold (.entry t)) w () m :=
  gives_request rfl ⟨⟨_, w.reading_hold t⟩, rfl, same⟩

theorem gives_trace {entries : List Token} (same : w.memory = m) :
    Gives calls (trace entries) w () m := by
  refine gives_request rfl ?_
  split
  · have kept := World.memory_trace entries w
    exact ⟨⟨[], World.reading_trace entries w⟩, kept.2, kept.1.trans same⟩
  · exact .refl same

theorem gives_place {bytes : List UInt8} (same : w.memory = m) :
    Gives calls (place bytes) w (m.place (Cell.ofBytes bytes) (Cell.ofBytes bytes).length).1
      (m.place (Cell.ofBytes bytes) (Cell.ofBytes bytes).length).2 := by
  subst same
  refine gives_request rfl ⟨⟨[], World.reading_of_store_eq rfl ?_⟩, rfl, rfl⟩
  exact Nat.le_of_lt (w.place_lt _ _).2

/-- Giving the temporaries back changes neither what a reading program gives nor the memory. -/
theorem Gives.region {keep : α → List Claim} {p : Program α} {v : α} (gives : Gives calls p w v m) :
    Gives calls (region keep p) w v m := by
  obtain ⟨w₁, ran, reached⟩ := gives
  obtain ⟨top, reading⟩ := reached.reading
  obtain ⟨settled, after⟩ := reading.settle (keep v)
  refine ⟨(w₁.settle w.store.held.length (keep v)).2, ?_, ⟨_, after⟩, ?_, ?_⟩
  · change (p >>= fun v => (request (.settle w.store.held.length (keep v)) : Program Unit) >>=
      fun _ => pure v).run calls w = _
    rw [run_bind, ran]
    dsimp only
    rw [run_bind]
    simp only [request, run, World.answer]
    cases result : w₁.settle w.store.held.length (keep v) with
    | mk outcome w₂ =>
      rw [result] at settled
      cases settled
      rfl
  · exact reached.database
  · exact reached.memory

end Program

namespace Bridge

variable {ε α β : Type} {calls : Calls} {w : World} {m m₁ : Memory}

theorem gives_pure {v : α} (same : w.memory = m) :
    Gives calls (pure v : ExceptT ε Program α) w (.ok v) m :=
  Program.gives_pure same

theorem gives_lift {p : Program α} {v : α} (gives : p.Gives calls w v m) :
    Gives calls (liftM p : ExceptT ε Program α) w (.ok v) m :=
  gives.bind fun _ reached => Program.gives_pure reached.memory

theorem gives_except {r : Except ε α} (same : w.memory = m) :
    Gives calls (liftM r : ExceptT ε Program α) w r m :=
  Program.gives_pure same

theorem Gives.bind {p : ExceptT ε Program α} {f : α → ExceptT ε Program β} {v : α} {r : Except ε β}
    (first : Gives calls p w (.ok v) m₁)
    (rest : ∀ w₁, w.Reached w₁ m₁ → Gives calls (f v) w₁ r m) : Gives calls (p >>= f) w r m :=
  Program.Gives.bind first rest

/-- Nothing follows a failure. -/
theorem Gives.bind_error {p : ExceptT ε Program α} {f : α → ExceptT ε Program β} {e : ε}
    (first : Gives calls p w (.error e) m) : Gives calls (p >>= f) w (.error e) m :=
  Program.Gives.bind first fun _ reached => Program.gives_pure reached.memory

theorem Gives.region {keep : α → List Claim} {p : Bridge α} {r : Except Failure α}
    (gives : Gives calls p w r m) : Gives calls (region keep p) w r m :=
  Program.Gives.region gives

end Bridge
end ObjectBridge
