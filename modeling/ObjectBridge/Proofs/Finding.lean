import ObjectBridge.Proofs.Reading

/-!
# Programs that find

A program that finds something ends in every world that has what it looks for.  It only asks quiet
requests, which note nothing, call nothing and leave the database and all stored memory alone, and
of the counted things it only takes references to entries.  What it finds is proved along its
structure, for a world and for all that reading programs make of it.
-/

namespace ObjectBridge

deriving instance DecidableEq for Outcome

/-- A request that looks at the world, that claims things or gives claims back, or that reserves new
storage. -/
def Request.quiet : Request → Bool
  | .entry _ | .database | .memory | .store | .liveInstance _ | .bench | .options | .required
  | .mark | .hold _ | .letGo _ | .settle _ _ | .openHandle _ _ _ | .place _ _ | .trace _ | .tracing
  | .stop _ => true
  | _ => false

/-- The requests of a run of a program, each with the world that it meets. -/
def Program.moments {α : Type} (calls : Calls) : Program α → World → List (World × Request)
  | .done _, _ => []
  | .ask request next, w =>
    (w, request)
      :: match w.answer calls request with
         | (.done reply, w) => (next reply).moments calls w
         | (.stopped _, _) => []

/-- Whether a run of a program only asks quiet requests. -/
def Program.Quiet {α : Type} (calls : Calls) (p : Program α) (w : World) : Prop :=
  ∀ moment ∈ p.moments calls w, moment.2.quiet = true

namespace World

variable {w w₁ w₂ w' v : World}

/-- What quiet requests leave of a world: only the counted things change, and new storage. -/
structure Steady (w w' : World) : Prop where
  /-- Everything but the store and the memory is the same. -/
  frame : w' = { w with store := w'.store, memory := w'.memory }
  /-- No storage is given up. -/
  next : w.memory.next ≤ w'.memory.next
  /-- What was stored is the same. -/
  cells : ∀ a < w.memory.next, w'.memory.cell a = w.memory.cell a

theorem Steady.refl (w : World) : w.Steady w := ⟨rfl, Nat.le_refl _, fun _ _ => rfl⟩

theorem Steady.trans (first : w.Steady w₁) (second : w₁.Steady w₂) : w.Steady w₂ where
  frame := by rw [second.frame, first.frame]
  next := Nat.le_trans first.next second.next
  cells a below :=
    (second.cells a (Nat.lt_of_lt_of_le below first.next)).trans (first.cells a below)

theorem Steady.database (steady : w.Steady w') : w'.database = w.database := by rw [steady.frame]

/-- A change of the store alone. -/
theorem steady_withStore (w : World) (s : Store) : w.Steady (w.withStore s) :=
  ⟨rfl, Nat.le_refl _, fun _ _ => rfl⟩

theorem steady_release (w : World) (claims : List Claim) : w.Steady (w.release claims).2 :=
  ⟨rfl, Nat.le_refl _, fun _ _ => rfl⟩

theorem steady_settle (w : World) (mark : Nat) (kept : List Claim) :
    w.Steady (w.settle mark kept).2 :=
  (w.steady_withStore _).trans (steady_release _ _)

theorem steady_openHandle (w : World) (info : Option Token) (attachment : Option Attachment)
    (keeper : Option HandleId) : w.Steady (w.openHandle info attachment keeper).2 := by
  unfold openHandle
  dsimp only
  split
  · split
    · exact w.steady_withStore _
    · exact .refl w
  · exact w.steady_withStore _

/-- New storage lies above all storage reserved before. -/
theorem steady_place (w : World) (cells : List Cell) (size : Nat) :
    w.Steady (w.place cells size).2 where
  frame := rfl
  next := Nat.le_of_lt (w.place_lt cells size).2
  cells a below := by
    have apart : ¬w.memory.next ≤ a := Nat.not_le.mpr below
    simp [World.place, Memory.place, Memory.reserve, Memory.write, Memory.cell, Write.cell?, apart]

theorem steady_traceName (w : World) (t : Token) : w.Steady (w.traceName t) :=
  w.steady_withStore _

theorem steady_trace (entries : List Token) (w : World) :
    w.Steady (entries.foldl traceName w) := by
  induction entries generalizing w with
  | nil => exact .refl w
  | cons t rest ih => exact (w.steady_traceName t).trans (ih (w.traceName t))

/-- The answer to a quiet request. -/
theorem steady_answer (calls : Calls) {r : Request} (quiet : r.quiet = true) (w : World) :
    w.Steady (w.answer calls r).2 := by
  cases r with
  | entry t =>
    simp only [answer]
    split <;> exact .refl w
  | liveInstance a =>
    simp only [answer, withInstance]
    split <;> exact .refl w
  | hold c => exact w.steady_withStore _
  | letGo c =>
    by_cases held : w.store.held.contains c = true
    · have answered : w.answer calls (.letGo c) = (w.withStore (w.store.dropHeld c)).release [c] :=
        if_pos held
      rw [answered]
      exact (w.steady_withStore _).trans (steady_release _ _)
    · have answered : w.answer calls (.letGo c) = (.done (), w) := if_neg held
      rw [answered]
      exact .refl w
  | settle mark kept => exact w.steady_settle mark kept
  | openHandle info attachment keeper => exact w.steady_openHandle info attachment keeper
  | place cells size => exact w.steady_place cells size
  | trace entries =>
    simp only [answer]
    split
    · exact steady_trace entries w
    · exact .refl w
  | database | memory | store | bench | options | required | mark | tracing | stop _ =>
    exact .refl w
  | _ => simp [Request.quiet] at quiet

/-- What a program that finds something does to a world. -/
structure Looked (w w' : World) : Prop extends w.Steady w' where
  /-- References to entries may have been taken. -/
  reading : ∃ top, w.Reading w' top

theorem Looked.refl (w : World) : w.Looked w := ⟨.refl w, [], .refl w⟩

theorem Looked.trans (first : w.Looked w₁) (second : w₁.Looked w₂) : w.Looked w₂ := by
  obtain ⟨steady, older, before⟩ := first
  obtain ⟨steady', newer, after⟩ := second
  exact ⟨steady.trans steady', newer ++ older, before.trans after⟩

theorem Looked.instances (looked : w.Looked w') : w'.store.instances = w.store.instances := by
  obtain ⟨_, reading⟩ := looked.reading
  rw [reading.store]

theorem Looked.handles (looked : w.Looked w') : w'.store.handles = w.store.handles := by
  obtain ⟨_, reading⟩ := looked.reading
  rw [reading.store]

end World

namespace Program

variable {α β γ : Type} {calls : Calls} {w v : World}

theorem moments_bind (calls : Calls) (p : Program α) (f : α → Program β) (w : World) :
    (p >>= f).moments calls w
      = p.moments calls w
        ++ match p.run calls w with
           | (.done x, w) => (f x).moments calls w
           | (.stopped _, _) => [] := by
  induction p generalizing w with
  | done x => rfl
  | ask request next ih =>
    change (Program.ask request fun reply => next reply >>= f).moments calls w = _
    simp only [moments, run, List.cons_append]
    cases w.answer calls request with
    | mk outcome w' =>
      cases outcome with
      | done reply => simp only [ih reply w']
      | stopped why => rfl

/-- A quiet run leaves everything but the counted things and new storage alone. -/
theorem Quiet.steady {p : Program α} (quiet : p.Quiet calls w) : w.Steady (p.run calls w).2 := by
  induction p generalizing w with
  | done x => exact .refl w
  | ask request next ih =>
    simp only [Quiet, moments, List.mem_cons, forall_eq_or_imp] at quiet
    have first := w.steady_answer calls quiet.1
    simp only [run]
    revert first quiet
    cases w.answer calls request with
    | mk outcome w' =>
      cases outcome with
      | done reply => exact fun quiet first => first.trans (ih reply quiet.2)
      | stopped why => exact fun _ first => first

theorem quiet_pure {x : α} : Quiet calls (pure x : Program α) w := by simp [Quiet, Pure.pure, moments]

theorem Quiet.bind {p : Program α} {f : α → Program β} (first : p.Quiet calls w)
    (rest : ∀ x w', p.run calls w = (.done x, w') → (f x).Quiet calls w') :
    (p >>= f).Quiet calls w := by
  intro moment member
  rw [moments_bind] at member
  rcases List.mem_append.mp member with early | late
  · exact first moment early
  · split at late
    · next x w' ran => exact rest x w' ran moment late
    · simp at late

theorem quiet_request {r : Request} (quiet : r.quiet = true) : Quiet calls (request r) w := by
  intro moment member
  simp only [request, moments, List.mem_cons] at member
  rcases member with rfl | later
  · exact quiet
  · split at later <;> simp at later

theorem Quiet.region {keep : α → List Claim} {p : Program α} (quiet : p.Quiet calls w) :
    (region keep p).Quiet calls w := by
  refine Quiet.bind (quiet_request rfl) fun (mark : Nat) w' marked => ?_
  cases marked
  exact quiet.bind fun x _ _ => Quiet.bind (quiet_request rfl) fun _ _ _ => quiet_pure

/-- A quiet run that ends with a value. -/
structure Passes (calls : Calls) (p : Program α) (w : World) (x : α) (w' : World) : Prop where
  /-- The run ends with the value. -/
  run : p.run calls w = (.done x, w')
  /-- It only asks quiet requests. -/
  quiet : p.Quiet calls w

theorem Passes.bind {p : Program α} {f : α → Program β} {x : α} {y : β} {w₁ w₂ : World}
    (first : p.Passes calls w x w₁) (rest : (f x).Passes calls w₁ y w₂) :
    (p >>= f).Passes calls w y w₂ where
  run := by
    rw [run_bind, first.run]
    exact rest.run
  quiet := first.quiet.bind fun x' w' ran => by
    rw [first.run] at ran
    cases ran
    exact rest.quiet

theorem passes_pure {x : α} : (pure x : Program α).Passes calls w x w := ⟨rfl, quiet_pure⟩

theorem passes_request {r : Request} {x : r.Reply} {w' : World} (quiet : r.quiet = true)
    (answered : w.answer calls r = (.done x, w')) : (request r).Passes calls w x w' :=
  ⟨by simp [request, Program.run, answered], quiet_request quiet⟩

theorem Passes.steady {p : Program α} {x : α} {w' : World} (passes : p.Passes calls w x w') :
    w.Steady w' := by
  have steady := passes.quiet.steady
  rwa [passes.run] at steady

/-- A program that finds something in a world, and in whatever looking makes of it. -/
def Finds (p : Program α) (v : World) (post : α → Prop) : Prop :=
  ∀ calls w, v.Looked w → ∃ x w', p.Passes calls w x w' ∧ w.Looked w' ∧ post x

variable {post post' : α → Prop} {post₂ : β → Prop}

theorem finds_pure {x : α} (holds : post x) : Finds (pure x) v post :=
  fun _ w _ => ⟨x, w, passes_pure, .refl w, holds⟩

theorem Finds.bind {p : Program α} {f : α → Program β} (first : p.Finds v post)
    (rest : ∀ x, post x → (f x).Finds v post₂) : (p >>= f).Finds v post₂ := by
  intro calls w looked
  obtain ⟨x, w₁, passes, looked₁, holds⟩ := first calls w looked
  obtain ⟨y, w₂, passes₂, looked₂, holds₂⟩ := rest x holds calls w₁ (looked.trans looked₁)
  exact ⟨y, w₂, passes.bind passes₂, looked₁.trans looked₂, holds₂⟩

/-- Continue with the one thing that a program can find. -/
theorem Finds.next {p : Program α} {f : α → Program β} {x : α} (first : p.Finds v (· = x))
    (rest : (f x).Finds v post₂) : (p >>= f).Finds v post₂ :=
  first.bind fun _ same => same ▸ rest

theorem Finds.weaken {p : Program α} (finds : p.Finds v post) (holds : ∀ x, post x → post' x) :
    p.Finds v post' := by
  intro calls w looked
  obtain ⟨x, w', passes, looked', found⟩ := finds calls w looked
  exact ⟨x, w', passes, looked', holds x found⟩

theorem finds_request {r : Request} {post : r.Reply → Prop} (quiet : r.quiet = true)
    (answered : ∀ calls w, v.Looked w →
      ∃ x w', w.answer calls r = (.done x, w') ∧ (∃ top, w.Reading w' top) ∧ post x) :
    Finds (request r) v post := by
  intro calls w looked
  obtain ⟨x, w', found, reading, holds⟩ := answered calls w looked
  have passes : (request r).Passes calls w x w' := passes_request quiet found
  exact ⟨x, w', passes, ⟨passes.steady, reading⟩, holds⟩

theorem finds_entry {t : Token} {e : Entry} (found : v.database.entry? t = some e) :
    Finds (entry t) v (· = e) :=
  finds_request rfl fun calls w looked =>
    ⟨e, w, by simp [World.answer, looked.database, found], ⟨[], .refl w⟩, rfl⟩

theorem finds_database : Finds database v (· = v.database) :=
  finds_request rfl fun _ w looked => ⟨_, w, rfl, ⟨[], .refl w⟩, looked.database⟩

theorem finds_memory : Finds memory v fun _ => True :=
  finds_request rfl fun _ w _ => ⟨_, w, rfl, ⟨[], .refl w⟩, trivial⟩

theorem finds_store :
    Finds store v fun s => s.instances = v.store.instances ∧ s.handles = v.store.handles :=
  finds_request rfl fun _ w looked =>
    ⟨_, w, rfl, ⟨[], .refl w⟩, looked.instances, looked.handles⟩

theorem finds_liveInstance {a : Address} {i : Instance}
    (live : v.store.instances.get? a = some i) : Finds (liveInstance a) v (· = i) :=
  finds_request rfl fun _ w looked =>
    ⟨i, w, by simp [World.answer, World.withInstance, looked.instances, live], ⟨[], .refl w⟩, rfl⟩

theorem finds_handleRecord {h : HandleId} : Finds (handleRecord h) v (· = v.store.handle h) :=
  finds_store.bind fun s same => finds_pure (by rw [Store.handle, same.2]; rfl)

theorem finds_hold {t : Token} : Finds (hold (.entry t)) v fun _ => True :=
  finds_request rfl fun _ w _ => ⟨(), _, rfl, ⟨_, w.reading_hold t⟩, trivial⟩

theorem finds_trace {entries : List Token} : Finds (trace entries) v fun _ => True :=
  finds_request rfl fun calls w _ =>
    ⟨(), _, rfl, w.reading_answer calls (.trace entries) rfl, trivial⟩

theorem finds_placeCells {cells : List Cell} : Finds (placeCells cells) v fun _ => True :=
  finds_request rfl fun calls w _ =>
    ⟨_, _, rfl, w.reading_answer calls (.place cells cells.length) rfl, trivial⟩

theorem finds_place {bytes : List UInt8} : Finds (place bytes) v fun _ => True := finds_placeCells

/-- Giving the temporaries back leaves those that are kept; what is found stays the same. -/
theorem Finds.settled {p : Program α} (finds : p.Finds v post) (keep : α → List Claim)
    (calls : Calls) (looked : v.Looked w) :
    ∃ x w' top, (region keep p).Passes calls w x w' ∧ w.Reading w' (Store.part top (keep x)).1
      ∧ post x := by
  obtain ⟨x, w₁, passes, ⟨_, top, reading⟩, holds⟩ := finds calls w looked
  obtain ⟨settled, after⟩ := reading.settle (keep x)
  have closes : (request (.settle w.store.held.length (keep x)) : Program Unit).Passes calls w₁ ()
      (w₁.settle w.store.held.length (keep x)).2 :=
    passes_request rfl (Prod.ext settled rfl)
  have marks : (request .mark : Program Nat).Passes calls w w.store.held.length w :=
    passes_request rfl rfl
  exact ⟨x, _, top, marks.bind (passes.bind (closes.bind passes_pure)), after, holds⟩

theorem Finds.region {keep : α → List Claim} {p : Program α} (finds : p.Finds v post) :
    (region keep p).Finds v post := by
  intro calls w looked
  obtain ⟨x, w', _, passes, reading, holds⟩ := finds.settled keep calls looked
  exact ⟨x, w', passes, ⟨passes.steady, _, reading⟩, holds⟩

end Program

/-- A program that may fail and finds a result in a world, and in whatever looking makes of it. -/
def Bridge.Finds {ε α : Type} (p : ExceptT ε Program α) (v : World) (post : Except ε α → Prop) :
    Prop :=
  Program.Finds p.run v post

namespace Bridge

variable {ε α β γ : Type} {v : World} {post : Except ε α → Prop} {post₂ : Except ε β → Prop}

theorem finds_pure {x : α} (holds : post (.ok x)) : Finds (pure x : ExceptT ε Program α) v post :=
  Program.finds_pure holds

theorem finds_throw {e : ε} (holds : post (.error e)) :
    Finds (throw e : ExceptT ε Program α) v post :=
  Program.finds_pure holds

theorem finds_except {r : Except ε α} (holds : post r) :
    Finds (liftM r : ExceptT ε Program α) v post :=
  Program.finds_pure holds

theorem finds_lift {p : Program α} {given : α → Prop} (finds : p.Finds v given)
    (holds : ∀ x, given x → post (.ok x)) : Finds (liftM p : ExceptT ε Program α) v post :=
  finds.bind fun x found => Program.finds_pure (holds x found)

/-- What follows a result, and what a failure means for the whole. -/
theorem Finds.bind {p : ExceptT ε Program α} {f : α → ExceptT ε Program β} (first : Finds p v post)
    (rest : ∀ x, post (.ok x) → Finds (f x) v post₂)
    (failed : ∀ e, post (.error e) → post₂ (.error e)) : Finds (p >>= f) v post₂ := by
  refine Program.Finds.bind first fun r holds => ?_
  cases r with
  | error e => exact Program.finds_pure (failed e holds)
  | ok x => exact rest x holds

/-- Continue after a program that does not fail. -/
theorem Finds.after {p : Program α} {f : α → ExceptT ε Program β} {given : α → Prop}
    (first : p.Finds v given) (rest : ∀ x, given x → Finds (f x) v post₂) :
    Finds (liftM p >>= f : ExceptT ε Program β) v post₂ := by
  have lifted : Finds (liftM p : ExceptT ε Program α) v fun r => ∃ x, r = .ok x ∧ given x :=
    finds_lift first fun x holds => ⟨x, rfl, holds⟩
  exact lifted.bind (fun x ⟨_, same, holds⟩ => by cases same; exact rest x holds)
    (fun e ⟨_, same, _⟩ => by cases same)

/-- Continue after a program that can find only one thing. -/
theorem Finds.next {p : Program α} {f : α → ExceptT ε Program β} {x : α}
    (first : p.Finds v (· = x)) (rest : Finds (f x) v post₂) :
    Finds (liftM p >>= f : ExceptT ε Program β) v post₂ :=
  Finds.after first fun _ same => same ▸ rest

theorem Finds.weaken {post' : Except ε α → Prop} {p : ExceptT ε Program α} (finds : Finds p v post)
    (holds : ∀ r, post r → post' r) : Finds p v post' :=
  Program.Finds.weaken finds holds

theorem finds_ofRuntime {reading : RuntimeFailure → Failure} {p : Runtime α}
    {given : Except RuntimeFailure α → Prop} {post : Except Failure α → Prop} (finds : Finds p v given)
    (holds : ∀ r, given r → post (r.mapError reading)) : Finds (ofRuntime reading p) v post :=
  Program.Finds.bind finds fun r found => Program.finds_pure (holds r found)

theorem finds_mapM {f : γ → Except ε α} {items : List γ} :
    Finds (items.mapM fun x => (liftM (f x) : ExceptT ε Program α)) v (· = items.mapM f) := by
  unfold List.mapM
  generalize ([] : List α) = done
  induction items generalizing done with
  | nil => exact finds_pure rfl
  | cons x rest ih =>
    have first : Finds (liftM (f x) : ExceptT ε Program α) v (· = f x) := finds_except rfl
    refine first.bind (fun y same => ?_) (fun e same => ?_)
    · rw [List.mapM.loop, ← same]
      exact ih (y :: done)
    · rw [List.mapM.loop, ← same]
      rfl

theorem Finds.region {post : Except Failure α → Prop} {keep : α → List Claim} {p : Bridge α}
    (finds : Finds p v post) : Finds (region keep p) v post :=
  Program.Finds.region finds

end Bridge
end ObjectBridge
