import ObjectBridge.Proofs.Accessing
import ObjectBridge.Proofs.Seeking

/-!
# Visiting members

Getting and setting a member begin alike: the name is looked up on the type of the handle, first as
a property and then as a field.  Up to there nothing is done, so what follows begins in a world that
was only looked at.  What the name addresses depends on the database and on the type of the handle
alone.
-/

namespace ObjectBridge

open Program Bridge Descriptor

variable {calls : Calls} {w w' u : World}

namespace Program

variable {α β : Type} {p : Program α} {f : α → Program β} {why : Stop}

theorem silent_leads_stop (silent : p.Silent) (stopped : p.run calls w = (.stopped why, u)) :
    (p >>= f).Leads calls w (stop why) u where
  run := by
    rw [run_bind, stopped]
    rfl
  deeds := by
    rw [deeds_bind, (silent calls w).deeds, stopped, (silent_stop calls u).deeds]
    rfl

end Program

namespace Bridge

variable {ε α β : Type} {p : Program α} {f : α → ExceptT ε Program β}

/-- What is looked up is found, or else the run stops there. -/
theorem leads_lookup (silent : p.Silent) (reading : p.Reading) (f : α → ExceptT ε Program β)
    (calls : Calls) (w : World) :
    (∃ x u, p.run calls w = (.done x, u) ∧ w.Looked u
        ∧ (liftM p >>= f : ExceptT ε Program β).run.Leads calls w (f x).run u)
      ∨ ∃ why u, w.Looked u
        ∧ (liftM p >>= f : ExceptT ε Program β).run.Leads calls w (stop why) u := by
  have looked := looked_run silent reading calls w
  cases ran : p.run calls w with
  | mk outcome u =>
    rw [ran] at looked
    cases outcome with
    | done x =>
      exact .inl ⟨x, u, rfl, looked, leads_bind (passes_lift ⟨ran, silent calls w⟩)⟩
    | stopped why =>
      have lifted : (liftM p : ExceptT ε Program α).run.run calls w = (.stopped why, u) := by
        rw [run_lift, ran]
        rfl
      exact .inr ⟨why, u, looked, silent_leads_stop (silent_lift silent) lifted⟩

/-- Continue after a program that can only succeed with one value. -/
theorem Finds.onward {p : ExceptT ε Program α} {post : Except ε β → Prop} {x : α}
    (first : Finds p w (· = .ok x)) (rest : Finds (f x) w post) : Finds (p >>= f) w post :=
  first.bind (fun _ same => by cases same; exact rest) fun _ same => by cases same

end Bridge

namespace Handle

variable {h : HandleId} {name : String} {α : Type}

/-- What a name addresses through a handle: the property that it finds on the type of the handle, or
else the field. -/
def addressed? (w : World) (h : HandleId) (name : String) : Option Member :=
  (w.store.handle h).info.bind fun info => Member.addressed? w.database info name

theorem addressed?_of_typed {info : Token} (typed : (w.store.handle h).info = some info) :
    addressed? w h name = Member.addressed? w.database info name := by
  rw [addressed?, typed, Option.bind_some]

theorem addressed?_looked (looked : w.Looked u) : addressed? u h name = addressed? w h name := by
  have same : u.store.handle h = w.store.handle h := by rw [Store.handle, looked.handles]; rfl
  rw [addressed?, addressed?, same, looked.database]

/-- Look a member up and go on with the property or with the field. -/
def visit (h : HandleId) (name : String)
    (onProperty onField : HandleRecord → Token → String → Bridge α) : Bridge α := do
  let r ← handleRecord h
  let info ← typed r
  match ← Member.findProperty info name with
  | some (property, spelling) => onProperty r property spelling
  | none =>
    match ← Member.findField info name with
    | some (field, spelling) => onField r field spelling
    | none => throw (.noMember name)

theorem set_eq {v : Value} : set h name v
    = Bridge.region keepNothing (visit h name (fun r m spelling => writeProperty r m spelling v)
        fun r m spelling => writeField r m spelling v) := rfl

/-- Where a visit leads, and from which world on. -/
inductive Visits (calls : Calls) (w : World) (h : HandleId) (name : String)
    (onProperty onField : HandleRecord → Token → String → Bridge α) (u : World) : Prop
  /-- To the property that the name finds. -/
  | property {m : Token} {spelling : String}
      (found : addressed? w h name = some (.property m spelling))
      (leads : (visit h name onProperty onField).run.Leads calls w
        (onProperty (w.store.handle h) m spelling).run u)
  /-- To the field that the name finds. -/
  | field {m : Token} {spelling : String}
      (found : addressed? w h name = some (.field m spelling))
      (leads : (visit h name onProperty onField).run.Leads calls w
        (onField (w.store.handle h) m spelling).run u)
  /-- To a failure, because the name finds nothing. -/
  | missing (found : addressed? w h name = none) (typed : (w.store.handle h).info ≠ none)
      (leads : (visit h name onProperty onField).run.Leads calls w
        (throw (.noMember name) : Bridge α).run u)
  /-- To a failure, because the handle has no type. -/
  | untyped (info : (w.store.handle h).info = none)
      (leads : (visit h name onProperty onField).run.Leads calls w
        (throw .untyped : Bridge α).run u)
  /-- To a stop, because an entry is missing. -/
  | stopped {why : Stop}
      (leads : (visit h name onProperty onField).run.Leads calls w (stop why) u)

/-- A visit leads somewhere, and until then it only looks. -/
theorem visits (calls : Calls) (w : World) (h : HandleId) (name : String)
    (onProperty onField : HandleRecord → Token → String → Bridge α) :
    ∃ u, w.Looked u ∧ Visits calls w h name onProperty onField u := by
  have record : (handleRecord h).Passes calls w (w.store.handle h) w :=
    ⟨rfl, silent_handleRecord calls w⟩
  have start : (visit h name onProperty onField).run.Leads calls w _ w :=
    leads_bind (passes_lift record)
  cases typed : (w.store.handle h).info with
  | none =>
    rw [Handle.typed, typed] at start
    exact ⟨w, .refl w, .untyped typed start⟩
  | some info =>
    rw [Handle.typed, typed, pure_bind] at start
    rcases leads_lookup Member.silent_findProperty Member.reading_findProperty _ calls w with
      ⟨property?, u, ran, looked, first⟩ | ⟨why, u, looked, first⟩
    · have known := (Member.seeks_findProperty calls w (.refl w)).2 property? (by rw [ran])
      cases property? with
      | some found =>
        have address := (addressed?_of_typed typed).trans (Member.addressed?_of_some known.symm)
        exact ⟨u, looked, .property address (start.trans first)⟩
      | none =>
        rcases leads_lookup Member.silent_findField Member.reading_findField _ calls u with
          ⟨field?, u', ran', looked', second⟩ | ⟨why, u', looked', second⟩
        · have named := (Member.seeks_findField calls u looked).2 field? (by rw [ran'])
          have leads := start.trans (first.trans second)
          have address := (addressed?_of_typed typed).trans (Member.addressed?_of_none known.symm)
          rw [← named] at address
          cases field? with
          | some found => exact ⟨u', looked.trans looked', .field address leads⟩
          | none =>
            refine ⟨u', looked.trans looked', .missing address ?_ leads⟩
            rw [typed]
            exact Option.some_ne_none info
        · exact ⟨u', looked.trans looked', .stopped (start.trans (first.trans second))⟩
    · exact ⟨u, looked, .stopped (start.trans first)⟩

/-- What extracting gives for a meaning of the name. -/
def give (h : HandleId) (r : HandleRecord) : Member → Bridge Value
  | .enumValue number => return .int number
  | .method method => do
    let bound ← bindMethod h r method
    return .handle bound
  | .property property spelling => readProperty r property spelling
  | .field field spelling => readField r field spelling
  | .signal signal => do
    let bare ← unbound signal
    return .handle bare

theorem extract_eq : extract h name = Bridge.region Value.claims (do
    let r ← handleRecord h
    let info ← typed r
    let e ← entry info
    if ListCursor.isListType e then ListCursor.extract r.address info name
    else Member.resolve info name >>= give h r) := by
  unfold extract
  refine congrArg _ (bind_congr fun r => bind_congr fun info => bind_congr fun e => ?_)
  split
  · rfl
  · refine bind_congr fun member => ?_
    cases member <;> rfl

end Handle
end ObjectBridge
