import ObjectBridge.Proofs.Deeds

/-!
# Parts of a run

A run that ends with a value is the runs of its parts, each from the world in which the one before
it ended.  What a run stores is likewise what its parts store; a silent part stores nothing.
-/

namespace ObjectBridge

/-- A request stores an address in a property or in a field. -/
def Request.Stores (r : Request) (a : Address) : Prop :=
  match r with
  | .storeProperty _ _ slot => slot.address = a
  | .write _ cells => ∃ index, Cell.part a index ∈ cells
  | _ => False

namespace Program

variable {α β γ : Type} {calls : Calls} {p : Program α} {f : α → Program β} {w w' : World}
  {a : Address}

/-- Programs that follow one another can be bracketed in either way. -/
instance : LawfulMonad Program :=
  .mk' Program
    (fun p => by
      induction p with
      | done x => rfl
      | ask request next ih => exact congrArg (Program.ask request) (funext ih))
    (fun _ _ => rfl)
    (fun p f g => by
      induction p with
      | done x => rfl
      | ask request next ih => exact congrArg (Program.ask request) (funext ih))

theorem run_bind_done {y : β} :
    (p >>= f).run calls w = (.done y, w')
      ↔ ∃ x w₁, p.run calls w = (.done x, w₁) ∧ (f x).run calls w₁ = (.done y, w') := by
  rw [run_bind]
  cases p.run calls w with
  | mk outcome w₁ => cases outcome <;> simp

/-- A region ends as its program does, and then its temporaries are given back. -/
theorem run_region_done {keep : α → List Claim} {x : α}
    (ran : (region keep p).run calls w = (.done x, w')) :
    ∃ w₁, p.run calls w = (.done x, w₁)
      ∧ w' = (w₁.settle w.store.held.length (keep x)).2 := by
  rw [run_region] at ran
  revert ran
  cases p.run calls w with
  | mk outcome w₁ =>
    cases outcome with
    | stopped why => exact fun ran => by cases ran
    | done y =>
      intro ran
      simp only [close, Prod.mk.injEq] at ran
      cases settled : (w₁.settle w.store.held.length (keep y)).1 with
      | stopped why => simp [settled, Outcome.map] at ran
      | done _ =>
        simp only [settled, Outcome.map, Outcome.done.injEq] at ran
        obtain ⟨rfl, rfl⟩ := ran
        exact ⟨w₁, rfl, rfl⟩

/-- What a silent and reading program does to a world. -/
theorem looked_of_run {x : α} (silent : p.Silent) (reading : p.Reading)
    (ran : p.run calls w = (.done x, w')) : w.Looked w' := by
  have steady := (silent calls w).steady
  have read := (reading ⟨calls, fun _ _ _ _ => [], fun _ _ _ => [], fun _ _ _ => [], fun _ _ => []⟩
    w).2
  rw [ran] at steady read
  exact ⟨steady, read⟩

/-- A run makes a request of some kind itself; what it has others do is theirs. -/
def Performs (calls : Calls) (p : Program α) (w : World) (kind : World × Request → Prop) : Prop :=
  ∃ deed ∈ p.deeds calls w, kind deed

section Performs

variable {kind : World × Request → Prop}

theorem Silent.not_performs (silent : p.Silent) : ¬p.Performs calls w kind := by
  rintro ⟨deed, member, _⟩
  rw [(silent calls w).deeds] at member
  cases member

theorem Performs.bind (performs : (p >>= f).Performs calls w kind) :
    p.Performs calls w kind
      ∨ ∃ x w', p.run calls w = (.done x, w') ∧ (f x).Performs calls w' kind := by
  obtain ⟨deed, member, fits⟩ := performs
  rw [deeds_bind] at member
  rcases List.mem_append.mp member with early | late
  · exact .inl ⟨deed, early, fits⟩
  · split at late
    · next x w' ran => exact .inr ⟨x, w', ran, deed, late, fits⟩
    · cases late

theorem Performs.after (silent : p.Silent) (performs : (p >>= f).Performs calls w kind) :
    ∃ x w', p.run calls w = (.done x, w') ∧ (f x).Performs calls w' kind :=
  performs.bind.resolve_left silent.not_performs

theorem Performs.region {keep : α → List Claim}
    (performs : (region keep p).Performs calls w kind) : p.Performs calls w kind := by
  rwa [Performs, deeds_region] at performs

theorem Performs.request {r : Request} (performs : (request r).Performs calls w kind) :
    kind (w, r) := by
  obtain ⟨deed, member, fits⟩ := performs
  have first : (Program.request r).moments calls w = [(w, r)] := by
    simp only [Program.request, moments]
    split <;> rfl
  rw [deeds, first] at member
  rwa [List.mem_singleton.mp (List.mem_of_mem_filter member)] at fits

theorem not_performs_pure {x : α} : ¬(pure x : Program α).Performs calls w kind :=
  silent_pure.not_performs

end Performs

/-- A run stores an address by a request of its own. -/
def Stores (calls : Calls) (p : Program α) (w : World) (a : Address) : Prop :=
  ∃ deed ∈ p.deeds calls w, deed.2.Stores a

theorem Stores.bind (stores : (p >>= f).Stores calls w a) :
    p.Stores calls w a
      ∨ ∃ x w', p.run calls w = (.done x, w') ∧ (f x).Stores calls w' a :=
  Performs.bind stores

theorem Stores.after (silent : p.Silent) (stores : (p >>= f).Stores calls w a) :
    ∃ x w', p.run calls w = (.done x, w') ∧ (f x).Stores calls w' a :=
  Performs.after silent stores

theorem Stores.region {keep : α → List Claim} (stores : (region keep p).Stores calls w a) :
    p.Stores calls w a :=
  Performs.region stores

theorem Stores.request {r : Request} (stores : (request r).Stores calls w a) : r.Stores a :=
  Performs.request stores

end Program

namespace Bridge

variable {ε α β γ : Type} {calls : Calls} {w w' : World} {a : Address}

/-- A program that may fail ends with a value. -/
def Succeeds (calls : Calls) (p : ExceptT ε Program α) (w : World) (x : α) (w' : World) : Prop :=
  p.run.run calls w = (.done (.ok x), w')

section Succeeds

variable {p : ExceptT ε Program α} {f : α → ExceptT ε Program β} {x y : α} {z : β}

theorem succeeds_bind :
    Succeeds calls (p >>= f) w z w'
      ↔ ∃ x w₁, Succeeds calls p w x w₁ ∧ Succeeds calls (f x) w₁ z w' := by
  refine Program.run_bind_done.trans ⟨?_, ?_⟩
  · rintro ⟨r, w₁, ran, rest⟩
    cases r with
    | error e => cases rest
    | ok x => exact ⟨x, w₁, ran, rest⟩
  · rintro ⟨x, w₁, ran, rest⟩
    exact ⟨.ok x, w₁, ran, rest⟩

/-- What follows a success goes on from there. -/
theorem Succeeds.run_bind (succeeds : Succeeds calls p w x w') :
    (p >>= f).run.run calls w = (f x).run.run calls w' := by
  have parts : (p >>= f).run = p.run >>= ExceptT.bindCont f := rfl
  rw [parts, Program.run_bind, succeeds]
  rfl

@[simp]
theorem succeeds_pure : Succeeds calls (pure y : ExceptT ε Program α) w x w' ↔ y = x ∧ w = w' := by
  change ((Outcome.done (Except.ok y), w) = (Outcome.done (Except.ok x), w') ↔ _)
  simp

@[simp]
theorem not_succeeds_throw {e : ε} : ¬Succeeds calls (throw e : ExceptT ε Program α) w x w' :=
  fun ran => by cases ran

/-- Nothing follows a failure. -/
theorem not_succeeds_throw_bind {e : ε} : ¬Succeeds calls (throw e >>= f) w z w' :=
  fun ran => by cases ran

theorem succeeds_lift {p : Program α} :
    Succeeds calls (liftM p : ExceptT ε Program α) w x w' ↔ p.run calls w = (.done x, w') := by
  refine Program.run_bind_done.trans ⟨?_, fun ran => ⟨x, w', ran, rfl⟩⟩
  rintro ⟨y, w₁, ran, rest⟩
  cases rest
  exact ran

theorem succeeds_except {r : Except ε α} :
    Succeeds calls (liftM r : ExceptT ε Program α) w x w' ↔ r = .ok x ∧ w = w' := by
  change ((Outcome.done r, w) = (Outcome.done (Except.ok x), w') ↔ _)
  simp

theorem succeeds_ofRuntime {reading : RuntimeFailure → Failure} {p : Runtime α} :
    Succeeds calls (ofRuntime reading p) w x w' ↔ Succeeds calls p w x w' := by
  refine Program.run_bind_done.trans ⟨?_, fun ran => ⟨.ok x, w', ran, rfl⟩⟩
  rintro ⟨r, w₁, ran, rest⟩
  cases r with
  | error e => cases rest
  | ok y =>
    cases rest
    exact ran

theorem Succeeds.region {keep : α → List Claim} {p : Bridge α}
    (ran : Succeeds calls (region keep p) w x w') :
    ∃ w₁, Succeeds calls p w x w₁ ∧ w' = (w₁.settle w.store.held.length (keep x)).2 := by
  rw [Succeeds, region_eq] at ran
  exact Program.run_region_done ran

end Succeeds

/-- A region that keeps nothing can be left before or after its value is changed. -/
theorem region_map (p : Bridge α) (f : α → β) :
    region keepNothing (p >>= fun x => pure (f x))
      = region keepNothing p >>= fun x => pure (f x) := by
  have mapped (q : Bridge α) : (q >>= fun x => pure (f x)).run
      = q.run >>= fun r => pure (r.map f) :=
    bind_congr (m := Program) fun r => by cases r <;> rfl
  refine ExceptT.ext ?_
  rw [mapped, region_eq, region_eq, mapped]
  refine congrArg (Program.ask .mark) (funext fun mark => ?_)
  change (p.run >>= fun r => pure (r.map f)) >>= _ = (p.run >>= _) >>= _
  simp only [bind_assoc, pure_bind]
  refine bind_congr fun r => ?_
  cases r <;> rfl

section Performs

variable {p : ExceptT ε Program α} {f : α → ExceptT ε Program β} {kind : World × Request → Prop}

/-- What a program does that may fail, before or after it has a value. -/
theorem performs_bind (performs : (p >>= f).run.Performs calls w kind) :
    p.run.Performs calls w kind
      ∨ ∃ x w', Succeeds calls p w x w' ∧ (f x).run.Performs calls w' kind := by
  have either : (p.run >>= fun r => match r with
      | .ok x => (f x).run
      | .error e => pure (.error e)).Performs calls w kind := performs
  rcases either.bind with first | ⟨r, w', ran, later⟩
  · exact .inl first
  · cases r with
    | error e => exact absurd later Program.not_performs_pure
    | ok x => exact .inr ⟨x, w', ran, later⟩

theorem performs_after (silent : Silent p) (performs : (p >>= f).run.Performs calls w kind) :
    ∃ x w', Succeeds calls p w x w' ∧ (f x).run.Performs calls w' kind :=
  (performs_bind performs).resolve_left (Program.Silent.not_performs silent)

theorem performs_lift {p : Program α}
    (performs : (liftM p : ExceptT ε Program α).run.Performs calls w kind) :
    p.Performs calls w kind :=
  performs.bind.resolve_right fun ⟨_, _, _, later⟩ => Program.not_performs_pure later

theorem not_performs_throw {e : ε} :
    ¬(throw e : ExceptT ε Program α).run.Performs calls w kind :=
  Program.not_performs_pure

theorem performs_ofRuntime {reading : RuntimeFailure → Failure} {p : Runtime α}
    (performs : (ofRuntime reading p).run.Performs calls w kind) : p.run.Performs calls w kind :=
  performs.bind.resolve_right fun ⟨_, _, _, later⟩ => Program.not_performs_pure later

theorem performs_region {keep : α → List Claim} {p : Bridge α}
    (performs : (region keep p).run.Performs calls w kind) : p.run.Performs calls w kind := by
  rw [region_eq] at performs
  exact performs.region

end Performs

section Stores

variable {p : ExceptT ε Program α} {f : α → ExceptT ε Program β}

end Stores

theorem Succeeds.looked {p : ExceptT ε Program α} {x : α} (ran : Succeeds calls p w x w')
    (silent : Silent p) (reading : Reading p) : w.Looked w' :=
  Program.looked_of_run silent reading ran

end Bridge
end ObjectBridge
