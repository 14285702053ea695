import ObjectBridge.Handle.Access
import ObjectBridge.Handle.Text
import ObjectBridge.Listing
import ObjectBridge.Proofs.Grounding

/-!
# Looking up is grounded

Descriptors, members, signatures, listings and shapes are found from entry to entry.  What is found
on the way is what entries link to, so it is there.
-/

namespace ObjectBridge

open Program Descriptor

variable {db : Database} {t : Token} {name : String}

theorem Database.knows_entry (known : db.Has t) : db.Knows (.entry t) := known.alone

/-- A claim that is not of an entry names none. -/
theorem Database.knows_handle {h : HandleId} : db.Knows (.handle h) := List.forall_mem_nil _

theorem Database.knows_closure {k : ClosureId} : db.Knows (.closure k) := List.forall_mem_nil _

/-- The claims of a value name no entries. -/
theorem Database.knows_value {v : Value} : ∀ c ∈ v.claims, db.Knows c := by
  intro c member
  cases v with
  | handle h =>
    rw [List.mem_singleton.mp member]
    exact knows_handle
  | _ => exact absurd member List.not_mem_nil

namespace Descriptor

theorem looks_take {o : Option Token} (known : ∀ u ∈ o, db.Has u) :
    Looks (fun r => ∀ u ∈ r, db.Has u) (take o) db := by
  cases o with
  | none => exact looks_pure known
  | some u =>
    exact (looks_hold (Database.knows_entry (known u rfl))).bind fun _ _ => looks_pure known

section Linked

variable (linked : db.Linked)
include linked

/-- What an entry links to is found. -/
theorem looks_link {f : Entry → Option Token} (links : ∀ e, ∀ u ∈ f e, u ∈ e.links)
    (known : db.Has t) :
    Looks (fun r => ∀ u ∈ r, db.Has u) (entry t >>= fun e => take (f e)) db :=
  (looks_entry known).bind fun e found =>
    looks_take fun u member => linked.has_link found (links e u member)

theorem looks_parent (known : db.Has t) : Looks (fun r => ∀ u ∈ r, db.Has u) (parent? t) db :=
  looks_link linked (fun e u up => by simp [Entry.links, Option.mem_def.mp up]) known

theorem looks_target (known : db.Has t) : Looks (fun r => ∀ u ∈ r, db.Has u) (target? t) db :=
  looks_link linked (fun e u named => by simp [Entry.links, Option.mem_def.mp named]) known

theorem looks_part {index : Nat} (known : db.Has t) :
    Looks (fun r => ∀ u ∈ r, db.Has u) (part? t index) db :=
  looks_link linked
    (fun e u part => by simp [Entry.links, List.mem_of_getElem? (Option.mem_def.mp part)]) known

theorem looks_argument {index : Nat} (known : db.Has t) :
    Looks (fun r => ∀ u ∈ r, db.Has u) (argument? t index) db :=
  looks_link linked
    (fun e u argument => by simp [Entry.links, List.mem_of_getElem? (Option.mem_def.mp argument)])
    known

theorem looks_result (known : db.Has t) : Looks (fun r => ∀ u ∈ r, db.Has u) (result? t) db :=
  looks_link linked (fun e u result => by simp [Entry.links, Option.mem_def.mp result]) known

theorem looks_declared (known : db.Has t) : Looks (fun r => ∀ u ∈ r, db.Has u) (declared? t) db :=
  looks_link linked (fun e u declared => by simp [Entry.links, Option.mem_def.mp declared]) known

omit linked in
theorem looks_firstNamed {entries : List Token} (known : ∀ u ∈ entries, db.Has u) :
    Looks (fun r => ∀ u ∈ r, db.Has u) (firstNamed name entries) db := by
  induction entries with
  | nil => exact looks_pure fun u impossible => nomatch impossible
  | cons t rest ih =>
    have first := known t List.mem_cons_self
    refine (looks_hold (Database.knows_entry first)).bind fun _ _ =>
      (looks_entry first).bind fun e _ => ?_
    split
    · exact looks_pure fun u same => Option.mem_some.mp same ▸ first
    · exact (looks_letGo (Database.knows_entry first)).bind fun _ _ =>
        ih fun u member => known u (List.mem_cons_of_mem t member)

theorem looks_member {group : MemberGroup} (known : db.Has t) :
    Looks (fun r => ∀ u ∈ r, db.Has u) (member? group name t) db :=
  (looks_entry known).bind fun _ found => looks_firstNamed (linked.has_member found)

theorem looks_memberEntries {group : MemberGroup} (known : db.Has t) :
    Looks (fun _ => True) (memberEntries group t) db := by
  refine Looks.region ((looks_entry known).bind fun e found => ?_)
  have entries : Looks (fun es => ∀ e ∈ es, True)
      (each (fun m => do hold (.entry m); entry m) (e.membersOf group)) db :=
    looks_each fun m member => by
      have there := linked.has_member found m member
      exact (looks_hold (Database.knows_entry there)).bind fun _ _ =>
        (looks_entry there).weaken fun _ _ => trivial
  exact entries.weaken fun _ _ => trivial

theorem looks_qualifiedNameWithin {limit : Nat} (known : db.Has t) :
    Looks (fun _ => True) (qualifiedNameWithin limit t) db := by
  induction limit generalizing t with
  | zero => exact looks_stop fun _ same => nomatch same
  | succ limit ih =>
    refine (looks_entry known).bind fun e found => ?_
    split
    · split
      · next target named =>
        have there : db.Has target := linked.has_link found (by simp [Entry.links, named])
        exact Looks.region ((looks_hold (Database.knows_entry there)).bind fun _ _ => ih there)
      · exact looks_pure trivial
    · split <;> exact looks_pure trivial

theorem looks_qualifiedName (known : db.Has t) : Looks (fun _ => True) (qualifiedName t) db :=
  looks_qualifiedNameWithin linked known

theorem looks_render (known : db.Has t) : Looks (fun _ => True) (render t) db :=
  (looks_entry known).bind fun _ _ =>
    (looks_qualifiedName linked known).bind fun _ _ => looks_pure trivial

/-- Whatever is asked of the entries of a walk, it goes from entry to entry. -/
theorem looks_walkWithin {α : Type} {keep : α → List Claim} {probe : Token → Program (Option α)}
    {post : Option α → Prop} (nothing : post none)
    (probes : ∀ u, db.Has u → (probe u).Looks post db) {limit : Nat} (known : db.Has t) :
    Looks post (walkWithin keep probe limit t) db := by
  induction limit generalizing t with
  | zero => exact looks_stop fun _ same => nomatch same
  | succ limit ih =>
    refine (probes t known).bind fun found holds => ?_
    cases found with
    | some found => exact looks_pure holds
    | none =>
      refine (looks_entry known).bind fun e found => ?_
      split
      · exact looks_pure nothing
      · next parent up =>
        have there : db.Has parent := linked.has_link found (by simp [Entry.links, up])
        refine Looks.region ((looks_hold (Database.knows_entry there)).bind fun _ _ =>
          (looks_trace ?_).bind fun _ _ => ih there)
        exact there.alone

theorem looks_walk_member {group : MemberGroup} (known : db.Has t) :
    Looks (fun r => ∀ u ∈ r, db.Has u) (walk Descriptor.claims (member? group name) t) db :=
  looks_walkWithin linked (fun _ impossible => nomatch impossible)
    (fun _ there => looks_member linked there) known

end Linked

theorem looks_registered (sound : db.Sound) {number : TypeNumber} :
    Looks (fun r => ∀ u ∈ r, db.Has u) (registered? number) db := by
  unfold registered?
  split
  · exact looks_pure fun u impossible => nomatch impossible
  · refine looks_database.bind fun found same => ?_
    cases same
    exact looks_take fun u taken => sound.has_registered (Option.mem_def.mp taken)

end Descriptor

/-- The entries that a shape names. -/
def Codec.Shape.tokens : Codec.Shape → List Token
  | .array element _ _ => [element]
  | .object target | .interface target | .record target _ => [target]
  | _ => []

/-- Whether a signature names only entries. -/
structure Signature.Grounded (db : Database) (s : Signature) : Prop where
  /-- The types of the parameters. -/
  parameters : ∀ p ∈ s.parameters, db.Has p.type
  /-- The type of the result. -/
  result : ∀ u ∈ s.result, db.Has u

namespace Member

open Descriptor

section Linked

variable (linked : db.Linked)
include linked

theorem looks_findEnumValue (known : db.Has t) :
    Looks (fun _ => True) (findEnumValue t name) db := by
  refine Looks.region ((looks_member linked known).bind fun found there => ?_)
  cases found with
  | none => exact looks_pure trivial
  | some m => exact (looks_entry (there m rfl)).bind fun _ _ => looks_pure trivial

theorem looks_findMethod (known : db.Has t) :
    Looks (fun r => ∀ u ∈ r, db.Has u) (findMethod t name) db := by
  refine (looks_entry known).bind fun e _ => ?_
  split
  · exact looks_walk_member linked known
  · exact looks_member linked known

theorem looks_findSignal (known : db.Has t) :
    Looks (fun r => ∀ u ∈ r, db.Has u) (findSignal t name) db :=
  looks_walk_member linked known

theorem looks_findEither {group : MemberGroup} (known : db.Has t) :
    Looks (fun r => ∀ u ∈ r, db.Has u.1) (findEither group t name) db := by
  have nothing : ∀ u ∈ (none : Option (Token × String)), db.Has u.1 := fun _ none => nomatch none
  refine (looks_member linked known).bind fun found there => ?_
  cases found with
  | some m => exact looks_pure fun u same => Option.mem_some.mp same ▸ there m rfl
  | none =>
    cases hyphenate? name with
    | none => exact looks_pure nothing
    | some hyphenated =>
      refine (looks_member linked known).bind fun found there => ?_
      cases found with
      | some m => exact looks_pure fun u same => Option.mem_some.mp same ▸ there m rfl
      | none => exact looks_pure nothing

theorem looks_findProperty (known : db.Has t) :
    Looks (fun r => ∀ u ∈ r, db.Has u.1) (findProperty t name) db := by
  refine (looks_entry known).bind fun e _ => ?_
  split
  · exact looks_findEither linked known
  · exact looks_pure fun u impossible => nomatch impossible

theorem looks_findField (known : db.Has t) :
    Looks (fun r => ∀ u ∈ r, db.Has u.1) (findField t name) db := by
  refine (looks_entry known).bind fun e _ => ?_
  split
  · exact looks_findEither linked known
  · exact looks_pure fun u impossible => nomatch impossible

theorem looks_findPlain {kind : EntryKind} (known : db.Has t) :
    Looks (fun r => ∀ m ∈ r, ∀ c ∈ m.claims, db.Knows c) (findPlain kind t name) db := by
  unfold findPlain
  extract_lets rest
  have looks_rest (method : Option Token) (there : ∀ u ∈ method, db.Has u) :
      Looks (fun r => ∀ m ∈ r, ∀ c ∈ m.claims, db.Knows c) (rest method) db := by
    have only {m : Member} {u : Token} (there : db.Has u) (claims : m.claims = [.entry u]) :
        ∀ m' ∈ some m, ∀ c ∈ m'.claims, db.Knows c := by
      intro m' same c member
      rw [← Option.mem_some.mp same, claims] at member
      exact List.mem_singleton.mp member ▸ Database.knows_entry there
    cases method with
    | some u => exact looks_pure (only (there u rfl) rfl)
    | none =>
      refine (looks_findProperty linked known).bind fun found there => ?_
      cases found with
      | some found => exact looks_pure (only (there found rfl) rfl)
      | none =>
        refine (looks_findField linked known).bind fun found there => ?_
        cases found with
        | some found => exact looks_pure (only (there found rfl) rfl)
        | none => exact looks_pure fun m impossible => nomatch impossible
  split
  · exact (looks_findMethod linked known).bind looks_rest
  · exact looks_rest none fun u impossible => nomatch impossible

theorem looks_resolve (known : db.Has t) :
    Bridge.Looks (fun m => ∀ c ∈ m.claims, db.Knows c) (resolve t name) db := by
  refine .region <| .after (looks_entry known) fun e _ =>
    .after (looks_trace known.alone) fun _ _ => ?_
  split
  · refine .after (looks_findEnumValue linked known) fun found _ => ?_
    cases found with
    | some number => exact Bridge.looks_pure (List.forall_mem_nil _)
    | none => exact Bridge.looks_throw
  · refine .after (looks_findPlain linked known) fun found there => ?_
    cases found with
    | some found => exact Bridge.looks_pure (there found rfl)
    | none =>
      dsimp only
      split
      · split
        · refine .after (looks_findSignal linked known) fun found there => ?_
          cases found with
          | some signal =>
            exact Bridge.looks_pure fun c member =>
              List.mem_singleton.mp member ▸ Database.knows_entry (there signal rfl)
          | none => exact Bridge.looks_throw
        · exact Bridge.looks_throw
      · exact Bridge.looks_throw

end Linked
end Member

namespace Signature

open Descriptor

section Linked

variable (linked : db.Linked)
include linked

theorem looks_parameter {callable : Token} {index : Nat} (known : db.Has callable) :
    Bridge.Looks (fun p => db.Has p.type) (parameter callable index) db := by
  refine .region <| .after (looks_entry known) fun e _ =>
    .after (looks_argument linked known) fun found there => ?_
  cases found with
  | none => exact Bridge.looks_throw
  | some argument =>
    refine .after (looks_declared linked (there argument rfl)) fun found declared => ?_
    cases found with
    | none => exact Bridge.looks_throw
    | some type =>
      exact .after (looks_entry (there argument rfl)) fun _ _ =>
        Bridge.looks_pure (declared type rfl)

theorem looks_ofCallable {callable : Token} (known : db.Has callable) :
    Bridge.Looks (Signature.Grounded db) (ofCallable callable) db :=
  .region <| .after (looks_entry known) fun _ _ =>
    (Bridge.looks_each fun _ _ => looks_parameter linked known).bind fun _ parameters =>
      .after (looks_result linked known) fun _ result => Bridge.looks_pure ⟨parameters, result⟩

end Linked
end Signature

namespace Listing

open Descriptor

section Linked

variable (linked : db.Linked)
include linked

theorem looks_readSection {group : MemberGroup} (known : db.Has t) :
    Looks (fun _ => True) (readSection t group) db :=
  (looks_memberEntries linked known).bind fun _ _ => looks_pure trivial

theorem looks_parentName {kind : EntryKind} (known : db.Has t) :
    Looks (fun _ => True) (parentName t kind) db := by
  unfold parentName
  split
  · refine Looks.region ((looks_parent linked known).bind fun parent there => ?_)
    cases parent with
    | none => exact looks_pure trivial
    | some parent =>
      exact (looks_qualifiedName linked (there parent rfl)).bind fun _ _ => looks_pure trivial
  · exact looks_pure trivial

theorem looks_describe (known : db.Has t) : Looks (fun _ => True) (describe t) db :=
  (looks_entry known).bind fun _ _ =>
    (looks_each fun _ _ => looks_readSection linked known).bind fun _ _ =>
      (looks_qualifiedName linked known).bind fun _ _ =>
        (looks_parentName linked known).bind fun _ _ => looks_pure trivial

end Linked
end Listing

namespace Codec

open Descriptor

theorem looks_shapeOfTarget {target : Token} (known : db.Has target) :
    Bridge.Looks (fun s => ∀ u ∈ s.tokens, db.Has u) (shapeOfTarget target) db := by
  have nothing : ∀ u ∈ ([] : List Token), db.Has u := List.forall_mem_nil _
  refine .after (looks_entry known) fun e _ => ?_
  split
  · split
    · exact Bridge.looks_pure nothing
    · exact Bridge.looks_throw
  · split
    · exact Bridge.looks_pure known.alone
    · split
      · exact Bridge.looks_pure known.alone
      · split
        · exact Bridge.looks_pure nothing
        · split
          · exact .after looks_database fun _ _ => Bridge.looks_pure known.alone
          · exact Bridge.looks_throw

section Linked

variable (linked : db.Linked)
include linked

theorem looks_shapeOfArray {e : Entry} (known : db.Has t) :
    Bridge.Looks (fun s => ∀ u ∈ s.tokens, db.Has u) (shapeOfArray t e) db := by
  unfold shapeOfArray
  split
  · exact Bridge.looks_throw_bind
  · refine .after (looks_part linked known) fun found there => ?_
    cases found with
    | some element =>
      exact Bridge.looks_pure fun u member => List.mem_singleton.mp member ▸ there element rfl
    | none => exact Bridge.looks_throw

theorem looks_shape (known : db.Has t) :
    Bridge.Looks (fun s => ∀ u ∈ s.tokens, db.Has u) (shape t) db := by
  have nothing : ∀ u ∈ ([] : List Token), db.Has u := List.forall_mem_nil _
  refine .after (looks_entry known) fun e _ => ?_
  split
  · exact Bridge.looks_pure nothing
  · exact Bridge.looks_pure nothing
  · exact Bridge.looks_pure nothing
  · exact Bridge.looks_pure nothing
  · exact Bridge.looks_pure nothing
  · exact Bridge.looks_pure nothing
  · exact looks_shapeOfArray linked known
  · refine .after (looks_target linked known) fun found there => ?_
    cases found with
    | some target => exact looks_shapeOfTarget (there target rfl)
    | none => exact Bridge.looks_throw
  · split
    · exact Bridge.looks_pure nothing
    · exact Bridge.looks_throw

end Linked
end Codec

namespace Handle

/-- A handle that is typed is typed by an entry. -/
theorem looks_typed {r : HandleRecord} (known : ∀ u, r.info = some u → db.Has u) :
    Bridge.Looks db.Has (typed r) db := by
  unfold typed
  split
  · next info typed => exact Bridge.looks_pure (known info typed)
  · exact Bridge.looks_throw

theorem looks_receiver {r : HandleRecord} {member : String} :
    Bridge.Looks (fun _ => True) (receiver r member) db := by
  unfold receiver
  split
  · exact Bridge.looks_pure trivial
  · exact Bridge.looks_throw

theorem looks_memberType {member : Token} (linked : db.Linked) (known : db.Has member) :
    Bridge.Looks db.Has (memberType member name) db := by
  refine .after (Descriptor.looks_declared linked known) fun found there => ?_
  cases found with
  | some type => exact Bridge.looks_pure (there type rfl)
  | none => exact Bridge.looks_throw

theorem looks_text {h : HandleId} : Looks (fun _ => True) (text h) db := by
  refine looks_handleRecord.bind fun r known => ?_
  extract_lets start
  split
  · exact looks_pure trivial
  · next info typed =>
    refine (looks_entry (known info typed)).bind fun e _ => ?_
    split
    · split <;> exact looks_pure trivial
    · exact looks_pure trivial

theorem looks_render {h : HandleId} (linked : db.Linked) : Looks (fun _ => True) (render h) db := by
  refine looks_handleRecord.bind fun r known => ?_
  extract_lets rest
  have looks_rest (shown : String) : Looks (fun _ => True) (rest shown) db := looks_pure trivial
  split
  · next info typed =>
    exact (Descriptor.looks_render linked (known info typed)).bind fun _ _ => looks_rest _
  · exact looks_rest _

end Handle

theorem Value.looks_render {v : Value} : Looks (fun _ => True) v.render db := by
  cases v with
  | handle h => exact Handle.looks_text.bind fun _ _ => looks_pure trivial
  | _ => exact looks_pure trivial

end ObjectBridge
