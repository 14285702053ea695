import ObjectBridge.Proofs.Failing
import ObjectBridge.Proofs.Revealing

/-!
# Programs that seek

A program that seeks only looks, whether or not it ends with a value, and if it does then the value
is what the database determines.  Nothing needs to be known of the database for this: where an entry
is missing, the program stops.
-/

namespace ObjectBridge

open Program Descriptor

variable {t : Token} {name : String} {calls : Calls} {w w' u : World}

/-- A program that only looks, from a world and from whatever looking makes of it, and of whose
value something is known if it ends with one. -/
def Program.Seeks {α : Type} (p : Program α) (v : World) (post : α → Prop) : Prop :=
  ∀ calls w, v.Looked w → w.Looked (p.run calls w).2 ∧ ∀ x, (p.run calls w).1 = .done x → post x

namespace Program

variable {α β : Type} {p : Program α} {f : α → Program β} {v : World} {post : α → Prop}
  {post₂ : β → Prop}

theorem Silent.steady (silent : p.Silent) {x : α} (ran : p.run calls w = (.done x, w')) :
    w.Steady w' := by
  have steady := (silent calls w).steady
  rwa [ran] at steady

theorem looked_run (silent : p.Silent) (reading : p.Reading) (calls : Calls) (w : World) :
    w.Looked (p.run calls w).2 :=
  ⟨(silent calls w).steady,
    (reading ⟨calls, fun _ _ _ _ => [], fun _ _ _ => [], fun _ _ _ => [], fun _ _ => []⟩ w).2⟩

theorem seeks_of_silent (silent : p.Silent) (reading : p.Reading) : p.Seeks v fun _ => True :=
  fun calls w _ => ⟨looked_run silent reading calls w, fun _ _ => trivial⟩

theorem Finds.seeks (finds : p.Finds v post) : p.Seeks v post := fun calls w looked => by
  obtain ⟨x, w', passes, later, holds⟩ := finds calls w looked
  rw [passes.run]
  exact ⟨later, fun y ended => Outcome.done.inj ended ▸ holds⟩

theorem seeks_pure {x : α} (holds : post x) : Seeks (pure x) v post := (finds_pure holds).seeks

theorem Seeks.bind (first : p.Seeks v post) (rest : ∀ x, post x → (f x).Seeks v post₂) :
    (p >>= f).Seeks v post₂ := fun calls w looked => by
  obtain ⟨before, holds⟩ := first calls w looked
  rw [run_bind]
  cases ran : p.run calls w with
  | mk outcome w₁ =>
    rw [ran] at before holds
    cases outcome with
    | stopped why => exact ⟨before, fun _ ended => by cases ended⟩
    | done x =>
      obtain ⟨after, given⟩ := rest x (holds x rfl) calls w₁ (looked.trans before)
      exact ⟨before.trans after, given⟩

theorem Seeks.region {keep : α → List Claim} (seeks : p.Seeks v post) :
    (region keep p).Seeks v post := fun calls w looked => by
  obtain ⟨⟨steady, top, reading⟩, holds⟩ := seeks calls w looked
  rw [run_region]
  cases ran : p.run calls w with
  | mk outcome w₁ =>
    rw [ran] at steady reading holds
    cases outcome with
    | stopped why => exact ⟨⟨steady, top, reading⟩, fun _ ended => by cases ended⟩
    | done x =>
      obtain ⟨settled, after⟩ := reading.settle (keep x)
      refine ⟨⟨steady.trans (World.steady_settle _ _ _), _, after⟩, fun y ended => ?_⟩
      rw [close, settled] at ended
      exact Outcome.done.inj ended ▸ holds x rfl

/-- What an entry is, if it is there. -/
theorem seeks_entry : Seeks (entry t) v fun e => v.database.entry? t = some e :=
  fun calls w looked => by
    refine ⟨looked_run silent_entry reading_entry calls w, fun e ended => ?_⟩
    have found := (run_entry.mp (Prod.ext ended rfl : (entry t).run calls w = (.done e, _))).1
    exact looked.database ▸ found

end Program

variable {v : World} {group : MemberGroup}

namespace Bridge

variable {ε α β : Type}

/-- What follows something that is sought, and what a failure means for the whole. -/
theorem seeks_bind {p : ExceptT ε Program α} {f : α → ExceptT ε Program β}
    {post : Except ε α → Prop} {post₂ : Except ε β → Prop} (first : Program.Seeks p.run v post)
    (rest : ∀ x, post (.ok x) → Program.Seeks (f x).run v post₂)
    (failed : ∀ e, post (.error e) → post₂ (.error e)) : Program.Seeks (p >>= f).run v post₂ := by
  refine Program.Seeks.bind first fun r holds => ?_
  cases r with
  | error e => exact seeks_pure (failed e holds)
  | ok x => exact rest x holds

theorem seeks_lift {p : Program α} {post : α → Prop} {post₂ : Except ε α → Prop}
    (seeks : p.Seeks v post) (same : ∀ x, post x → post₂ (.ok x)) :
    Program.Seeks (liftM p : ExceptT ε Program α).run v post₂ :=
  seeks.bind fun x holds => seeks_pure (same x holds)

/-- What follows a program that cannot fail. -/
theorem seeks_after {p : Program α} {f : α → ExceptT ε Program β} {post : α → Prop}
    {post₂ : Except ε β → Prop} (first : p.Seeks v post)
    (rest : ∀ x, post x → Program.Seeks (f x).run v post₂) :
    Program.Seeks (liftM p >>= f : ExceptT ε Program β).run v post₂ := by
  have lifted : Program.Seeks (liftM p : ExceptT ε Program α).run v
      fun r => ∃ x, r = .ok x ∧ post x := seeks_lift first fun x holds => ⟨x, rfl, holds⟩
  refine seeks_bind lifted ?_ ?_
  · rintro x ⟨_, same, holds⟩
    cases same
    exact rest x holds
  · rintro _ ⟨_, impossible, _⟩
    cases impossible

/-- Giving the temporaries back after a program that only looked and then failed leaves the world
untouched. -/
theorem close_of_looked {f : Failure} (keep : α → List Claim) (looked : w.Looked u) :
    ∃ w', close w.store.held.length (keepOk keep) (.done (.error f), u) = (.done (.error f), w')
      ∧ w.Untouched w' := by
  obtain ⟨top, reading⟩ := looked.reading
  obtain ⟨done, settled⟩ := reading.settle []
  rw [Store.part_nil] at settled
  exact ⟨(u.settle w.store.held.length []).2, close_done.mpr ⟨u, rfl, Prod.ext done rfl⟩,
    settled.untouched (looked.toSteady.trans (World.steady_settle _ _ _))⟩

/-- So does a region around such a program. -/
theorem fails_of_looked {p : Bridge α} {f : Failure} {keep : α → List Claim}
    (failed : Fails calls p w f u) (looked : w.Looked u) :
    ∃ w', Fails calls (Bridge.region keep p) w f w' ∧ w.Untouched w' := by
  obtain ⟨w', closed, untouched⟩ := close_of_looked keep looked
  refine ⟨w', ?_, untouched⟩
  rw [Fails, region_eq, run_region, failed, closed]

/-- So does a region around a program that finds a failure. -/
theorem fails_of_finds {p : Bridge α} {f : Failure} {keep : α → List Claim}
    (finds : Finds p w (· = .error f)) (calls : Calls) :
    ∃ w', Fails calls (Bridge.region keep p) w f w' ∧ w.Untouched w' := by
  obtain ⟨r, u, passes, looked, rfl⟩ := finds calls w (.refl w)
  exact fails_of_looked passes.run looked

end Bridge

namespace Descriptor

/-- Trying entries one after the other seeks the first of the name. -/
theorem find?_of_firstNamed {entries : List Token} {found : Option Token}
    (ran : (firstNamed name entries).run calls w = (.done found, w')) :
    found = entries.find? (w.database.hasName name) := by
  induction entries generalizing w with
  | nil =>
    cases ran
    rfl
  | cons t rest ih =>
    obtain ⟨_, w₁, claimed, ran⟩ := run_bind_done.mp ran
    have first : w₁.database = w.database := (silent_hold.steady claimed).database
    obtain ⟨e, _, looked, ran⟩ := run_bind_done.mp ran
    obtain ⟨known, rfl⟩ := run_entry.mp looked
    have named : w.database.hasName name t = decide (e.name = some name) := by
      rw [Database.hasName, ← first, known]
    rw [List.find?_cons, named]
    split at ran
    · next here =>
      cases ran
      simp only [here, decide_true]
    · next other =>
      obtain ⟨_, w₂, given, ran⟩ := run_bind_done.mp ran
      have second : w₂.database = w₁.database :=
        (Silent.steady (silent_request rfl) given).database
      simp only [other, decide_false]
      rw [← second.trans first]
      exact ih ran

theorem seeks_firstNamed {entries : List Token} :
    (firstNamed name entries).Seeks v (· = entries.find? (v.database.hasName name)) :=
  fun calls w looked => by
    refine ⟨looked_run silent_firstNamed reading_firstNamed calls w, fun found ended => ?_⟩
    exact looked.database ▸ find?_of_firstNamed (Prod.ext ended rfl)

theorem seeks_member :
    (member? group name t).Seeks v (· = v.database.ownMember? group name t) := by
  refine seeks_entry.bind fun e known => ?_
  rw [Database.ownMember?_eq known]
  exact seeks_firstNamed

end Descriptor

namespace Member

theorem seeks_findEither :
    (findEither group t name).Seeks v (· = declared? v.database group name t) := by
  refine seeks_member.bind fun found own => ?_
  rw [declared?, ← own]
  cases found with
  | some m => exact seeks_pure rfl
  | none =>
    cases hyphenate? name with
    | none => exact seeks_pure rfl
    | some hyphenated =>
      refine seeks_member.bind fun found own => ?_
      dsimp only
      rw [← own]
      cases found <;> exact seeks_pure rfl

theorem seeks_findProperty :
    (findProperty t name).Seeks v (· = property? v.database t name) := by
  refine seeks_entry.bind fun e known => ?_
  rw [property?, known]
  dsimp only
  split
  · exact seeks_findEither
  · exact seeks_pure rfl

theorem seeks_findField : (findField t name).Seeks v (· = field? v.database t name) := by
  refine seeks_entry.bind fun e known => ?_
  rw [field?, known]
  dsimp only
  split
  · exact seeks_findEither
  · exact seeks_pure rfl

end Member

/-! ### What a name means -/

namespace Descriptor

theorem silent_walkWithin {limit : Nat} :
    Silent (walkWithin Descriptor.claims (member? group name) limit t) := by
  induction limit generalizing t with
  | zero => exact silent_stop
  | succ limit ih =>
    refine silent_member.bind fun found => ?_
    cases found with
    | some m => exact silent_pure
    | none =>
      refine silent_entry.bind fun e => ?_
      split
      · exact silent_pure
      · exact .region (silent_hold.bind fun _ => silent_trace.bind fun _ => ih)

end Descriptor

namespace Member

theorem silent_findSignal : Silent (findSignal t name) := silent_walkWithin

theorem silent_findMethod : Silent (findMethod t name) := by
  refine silent_entry.bind fun e => ?_
  split
  · exact silent_walkWithin
  · exact silent_member

/-- The property that a name finds on a type, or else the field. -/
def addressed? (db : Database) (t : Token) (name : String) : Option Member :=
  match property? db t name with
  | some (m, spelling) => some (.property m spelling)
  | none => (field? db t name).map fun (m, spelling) => .field m spelling

theorem addressed?_of_some {db : Database} {found : Token × String}
    (known : property? db t name = some found) :
    addressed? db t name = some (.property found.1 found.2) := by
  rw [addressed?, known]

theorem addressed?_of_none {db : Database} (unknown : property? db t name = none) :
    addressed? db t name = (field? db t name).map fun found => .field found.1 found.2 := by
  rw [addressed?, unknown]

/-- What the meaning of a name says about what the name addresses: a method may hide it, a property
or a field is just that, and otherwise there is none. -/
def Meant (db : Database) (t : Token) (name : String) : Except Failure Member → Prop
  | .ok (.enumValue _) => False
  | .ok (.method _) => True
  | .ok (.property m spelling) => addressed? db t name = some (.property m spelling)
  | .ok (.field m spelling) => addressed? db t name = some (.field m spelling)
  | .ok (.signal _) => addressed? db t name = none
  | .error _ => addressed? db t name = none

theorem seeks_findPlain {kind : EntryKind} :
    (findPlain kind t name).Seeks v fun found =>
      Meant v.database t name (found.elim (.error (.noMember name)) .ok) := by
  unfold findPlain
  extract_lets rest
  have after (method : Option Token) : (rest method).Seeks v fun found =>
      Meant v.database t name (found.elim (.error (.noMember name)) .ok) := by
    cases method with
    | some found => exact seeks_pure trivial
    | none =>
      refine seeks_findProperty.bind fun property known => ?_
      cases property with
      | some found => exact seeks_pure (by simp only [Meant, addressed?, ← known, Option.elim_some])
      | none =>
        refine seeks_findField.bind fun field named => ?_
        cases field with
        | some found =>
          exact seeks_pure (by
            simp only [Meant, addressed?, ← known, ← named, Option.map_some, Option.elim_some])
        | none =>
          exact seeks_pure (by
            simp only [Meant, addressed?, ← known, ← named, Option.map_none, Option.elim_none])
  split
  · exact (seeks_of_silent silent_findMethod reading_findMethod).bind fun method _ => after method
  · exact (seeks_pure trivial).bind fun method (_ : True) => after method

/-- What a name means on a type that is not an enumeration. -/
theorem seeks_resolve {e : Entry} (known : v.database.entry? t = some e)
    (plain : e.kind.isEnumeration = false) :
    (resolve t name).run.Seeks v (Meant v.database t name) := by
  have traced : (trace [t]).Seeks v fun _ => True := seeks_of_silent silent_trace reading_trace
  rw [resolve, Bridge.region_eq]
  refine .region <| Bridge.seeks_after seeks_entry fun e' known' =>
    Bridge.seeks_after traced fun _ _ => ?_
  cases known.symm.trans known'
  rw [plain]
  refine Bridge.seeks_after seeks_findPlain fun found meant => ?_
  cases found with
  | some found => exact seeks_pure meant
  | none =>
    dsimp only
    split
    · split
      · refine Bridge.seeks_after (seeks_of_silent silent_findSignal reading_findSignal)
          fun found _ => ?_
        cases found with
        | some found => exact seeks_pure meant
        | none => exact seeks_pure meant
      · exact seeks_pure meant
    · exact seeks_pure meant

end Member
end ObjectBridge
