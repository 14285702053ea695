import ObjectBridge.Proofs.BlindAccess
import ObjectBridge.Proofs.Keeping
import ObjectBridge.Proofs.Leaving
import ObjectBridge.Proofs.Visiting

/-!
# Paths to a member

A member of a handle is extracted, got, set, and named in the arguments of an evaluation.  Extracting
resolves the name, and a method goes before everything else there; the other paths go to the property
that the name finds, or else to the field.  Where extracting comes to a property or to a field, it is
the one that the other paths come to, and it is read in the same way.
-/

namespace ObjectBridge

open Program Bridge Descriptor

variable {calls : Calls} {w w' u : World} {name : String} {h : HandleId} {info : Token}
  {top : List Claim}

namespace Member

/-- Whether a member is a property or a field. -/
def isDatum : Member → Bool
  | property _ _ | field _ _ => true
  | _ => false

/-- The claims of what may be there. -/
def claims? (found : Option Member) : List Claim := (found.map claims).getD []

/-- A name with hyphens in place of underscores. -/
def hyphened (name : String) : String :=
  String.ofList (name.toList.map fun c => if c = '_' then '-' else c)

theorem hyphenate?_hyphened (name : String) : hyphenate? (hyphened name) = none := by
  have without : (hyphened name).toList.contains '_' = false := by
    rw [hyphened, String.toList_ofList]
    refine Bool.eq_false_iff.mpr fun inside => ?_
    obtain ⟨c, _, same⟩ := List.mem_map.mp (List.contains_iff_mem.mp inside)
    split at same
    · cases same
    · next other => exact other same
  rw [hyphenate?, without]
  rfl

/-- Without underscores there is nothing to replace. -/
theorem hyphened_of_none (plain : hyphenate? name = none) : hyphened name = name := by
  have without : ∀ c ∈ name.toList, c ≠ '_' := by
    intro c inside same
    rw [hyphenate?, if_pos (List.contains_iff_mem.mpr (same ▸ inside))] at plain
    cases plain
  have same : (name.toList.map fun c => if c = '_' then '-' else c) = name.toList := by
    conv_rhs => rw [← List.map_id name.toList]
    exact List.map_congr_left fun c inside => if_neg (without c inside)
  rw [hyphened, same, String.ofList_toList]

theorem hyphenate?_eq_some {hyphenated : String} (replaced : hyphenate? name = some hyphenated) :
    hyphenated = hyphened name := by
  rw [hyphenate?] at replaced
  split at replaced
  · exact (Option.some.inj replaced).symm
  · cases replaced

/-- A member is found under its own spelling before all others. -/
theorem declared?_of_own {db : Database} {group : MemberGroup} {t m : Token}
    (own : db.ownMember? group name t = some m) : declared? db group name t = some (m, name) := by
  rw [declared?, own]

/-- A name that is not declared finds what it finds with hyphens. -/
theorem declared?_of_not_own {db : Database} {group : MemberGroup} {t : Token}
    (other : db.ownMember? group name t = none) :
    declared? db group name t = declared? db group (hyphened name) t := by
  cases replaced : hyphenate? name with
  | none => rw [hyphened_of_none replaced]
  | some hyphenated =>
    cases hyphenate?_eq_some replaced
    simp only [declared?, other, replaced, hyphenate?_hyphened]
    cases db.ownMember? group (hyphened name) t <;> rfl

end Member

/-! ### Where a program arrives -/

namespace World

theorem Took.looked (took : w.Took u top) : w.Looked u := by
  have memory : u.memory = w.memory := by rw [took.rest]
  refine ⟨⟨?_, Nat.le_of_eq (congrArg Memory.next memory).symm, fun _ _ => by rw [memory]⟩,
    top, took.reading⟩
  rw [memory]
  exact took.rest

end World

namespace Bridge

variable {α β : Type} {p q : Bridge α} {keep : α → List Claim}

/-- A program arrives at another one in a region: it claims some entries, runs the other one from
there, and gives its temporaries back. -/
def Arrives (calls : Calls) (w : World) (keep : α → List Claim) (p q : Bridge α)
    (top : List Claim) : Prop :=
  ∃ u, w.Took u top
    ∧ p.run.run calls w = close w.store.held.length (keepOk keep) (q.run.run calls u)

theorem arrives_region (took : w.Took u top) (leads : p.run.Leads calls w q.run u) :
    Arrives calls w keep (Bridge.region keep p) q top :=
  ⟨u, took, by rw [region_eq, run_region, leads.run]⟩

/-- Two programs that arrive at the same silent and blind program, with the same claims, end
alike. -/
theorem Arrives.endAlike {p' : Bridge α} (first : Arrives calls w keep p q top)
    (second : Arrives calls w keep p' q top) (silent : Silent q) (blind : Blind q) :
    EndAlike (p.run.run calls w) (p'.run.run calls w) := by
  obtain ⟨u, took, ran⟩ := first
  obtain ⟨u', took', ran'⟩ := second
  rw [ran, ran']
  exact (blind.endAlike silent calls (took.alike took')).close _ _

/-- Arriving at a failure is failing, and leaves the world untouched. -/
theorem Arrives.fails {f : Failure} (arrives : Arrives calls w keep p (throw f) top) :
    ∃ w', Fails calls p w f w' ∧ w.Untouched w' := by
  obtain ⟨u, took, ran⟩ := arrives
  obtain ⟨w', closed, untouched⟩ := close_of_looked keep took.looked
  exact ⟨w', ran.trans closed, untouched⟩

/-- What is found is claimed, and the program goes on with it. -/
theorem leads_found {p : Program β} {x : β} {claims : β → List Claim} (finds : p.Finds w (· = x))
    (leaves : p.Leaves [] claims) (looked : w.Looked u) (f : β → Bridge α) (calls : Calls) :
    ∃ u', u.Took u' (claims x)
      ∧ (liftM p >>= f : Bridge α).run.Leads calls u (f x).run u' := by
  obtain ⟨_, u', passes, _, rfl⟩ := finds calls u looked
  exact ⟨u', leaves calls u u _ u' (.refl u) passes.run, leads_bind (passes_lift passes)⟩

end Bridge

namespace Handle

variable {α : Type} {member : Member}

/-- What is done with what a name finds. -/
def reach (r : HandleRecord) (name : String)
    (onProperty onField : HandleRecord → Token → String → Bridge α) : Option Member → Bridge α
  | some (.property m spelling) => onProperty r m spelling
  | some (.field m spelling) => onField r m spelling
  | _ => throw (.noMember name)

/-- A visit goes to what the name addresses. -/
theorem leads_visit (linked : w.database.Linked) (typed : (w.store.handle h).info = some info)
    (known : w.database.Has info) (calls : Calls) (name : String)
    (onProperty onField : HandleRecord → Token → String → Bridge α) :
    ∃ u, w.Took u (Member.claims? (addressed? w h name))
      ∧ (visit h name onProperty onField).run.Leads calls w
        (reach (w.store.handle h) name onProperty onField (addressed? w h name)).run u := by
  have record : (handleRecord h).Passes calls w (w.store.handle h) w :=
    ⟨rfl, silent_handleRecord calls w⟩
  have start : (visit h name onProperty onField).run.Leads calls w _ w :=
    leads_bind (passes_lift record)
  rw [Handle.typed, typed, pure_bind] at start
  obtain ⟨u, took, first⟩ := leads_found (Member.finds_property linked known)
    Member.leaves_findProperty (.refl w) _ calls
  have begun := start.trans first
  rw [addressed?_of_typed typed]
  cases property : Member.property? w.database info name with
  | some found =>
    rw [property] at begun took
    rw [Member.addressed?_of_some property]
    exact ⟨u, took, begun⟩
  | none =>
    rw [property] at begun took
    obtain ⟨u', took', second⟩ := leads_found (Member.finds_field linked known)
      Member.leaves_findField took.looked _ calls
    have led := begun.trans second
    have taken := took.trans took'
    rw [Member.addressed?_of_none property]
    cases field : Member.field? w.database info name with
    | some found =>
      rw [field] at led taken
      exact ⟨u', taken, led⟩
    | none =>
      rw [field] at led taken
      exact ⟨u', taken, led⟩

/-! ### Extracting and getting -/

theorem arrives_get (linked : w.database.Linked) (typed : (w.store.handle h).info = some info)
    (known : w.database.Has info) (calls : Calls) (name : String) :
    Arrives calls w Value.claims (get h name)
      (reach (w.store.handle h) name readProperty readField (addressed? w h name))
      (Member.claims? (addressed? w h name)) := by
  obtain ⟨u, took, leads⟩ := leads_visit linked typed known calls name readProperty readField
  exact arrives_region took leads

theorem arrives_set (linked : w.database.Linked) (typed : (w.store.handle h).info = some info)
    (known : w.database.Has info) (calls : Calls) (name : String) (v : Value) :
    Arrives calls w keepNothing (set h name v)
      (reach (w.store.handle h) name (fun r m spelling => writeProperty r m spelling v)
        (fun r m spelling => writeField r m spelling v) (addressed? w h name))
      (Member.claims? (addressed? w h name)) := by
  obtain ⟨u, took, leads⟩ := leads_visit linked typed known calls name
    (fun r m spelling => writeProperty r m spelling v) fun r m spelling => writeField r m spelling v
  exact arrives_region took leads

/-- Extracting resolves the name and gives what it means. -/
theorem run_extract {e : Entry} (typed : (w.store.handle h).info = some info)
    (known : w.database.entry? info = some e) (single : ListCursor.isListType e = false)
    (resolves : Member.Resolves calls w info name member) :
    (extract h name).run.run calls w
      = close w.store.held.length (keepOk Value.claims)
        ((give h (w.store.handle h) member).run.run calls
          ((Member.resolve info name).run.run calls w).2) := by
  have record : (handleRecord h).Passes calls w (w.store.handle h) w :=
    ⟨rfl, silent_handleRecord calls w⟩
  have looks : (entry info).Passes calls w e w :=
    ⟨run_entry.mpr ⟨known, rfl⟩, silent_entry calls w⟩
  have ran : (Member.resolve info name).run.run calls w = (.done (.ok member), _) :=
    Prod.ext resolves rfl
  rw [extract_eq, region_eq, run_region]
  congr 1
  rw [(leads_bind (passes_lift record)).run, Handle.typed, typed, pure_bind,
    (leads_bind (passes_lift looks)).run, single]
  exact Succeeds.run_bind ran

/-- Extracting arrives at what the name means. -/
theorem arrives_extract {e : Entry} (typed : (w.store.handle h).info = some info)
    (known : w.database.entry? info = some e) (single : ListCursor.isListType e = false)
    (resolves : Member.Resolves calls w info name member) :
    Arrives calls w Value.claims (extract h name) (give h (w.store.handle h) member)
      member.claims :=
  ⟨_, Member.leaves_resolve calls w w _ _ (.refl w) (Prod.ext resolves rfl),
    run_extract typed known single resolves⟩

/-- What a name means says what it addresses. -/
theorem meant_of_resolved {e : Entry} (known : w.database.entry? info = some e)
    (plain : e.kind.isEnumeration = false) {r : Except Failure Member}
    (resolved : ((Member.resolve info name).run.run calls w).1 = .done r) :
    Member.Meant w.database info name r :=
  (Member.seeks_resolve known plain calls w (.refl w)).2 r resolved

theorem silent_give {r : HandleRecord} (datum : member.isDatum = true) :
    Bridge.Silent (give h r member) := by
  cases member with
  | property m spelling => exact silent_readMember
  | field m spelling => exact silent_readField
  | _ => cases datum

theorem blind_give {r : HandleRecord} (datum : member.isDatum = true) :
    Bridge.Blind (give h r member) := by
  cases member with
  | property m spelling => exact blind_readProperty
  | field m spelling => exact blind_readField
  | _ => cases datum

/-- Reading what a name addresses is giving what it means as a property or as a field. -/
theorem reach_datum {r : HandleRecord} (datum : member.isDatum = true) :
    reach r name readProperty readField (some member) = give h r member := by
  cases member with
  | property m spelling | field m spelling => rfl
  | _ => cases datum

/-! ### Initializers -/

/-- What becomes of an initializer with the property that its name finds. -/
def encodeFound (name : String) (v : Value) (block : Codec.ArgumentBlock) :
    Option (Token × String) → Bridge (Runtime.Initial × Codec.ArgumentBlock)
  | none => throw (.noMember name)
  | some (property, spelling) => do
    let type ← memberType property spelling
    let (slot, block) ← Codec.encode v type block
    return (⟨spelling, slot⟩, block)

theorem arrives_encodeInitial (linked : w.database.Linked) (known : w.database.Has info)
    (calls : Calls) (name : String) (v : Value) (block : Codec.ArgumentBlock) :
    Arrives calls w keepNothing (encodeInitial info name v block)
      (encodeFound name v block (Member.property? w.database info name))
      (leavings ((Member.property? w.database info name).map Prod.fst)) := by
  obtain ⟨u, took, leads⟩ := leads_found (Member.finds_property linked known)
    Member.leaves_findProperty (.refl w) (encodeFound name v block) calls
  have same : encodeInitial info name v block = Bridge.region keepNothing
      (liftM (Member.findProperty info name) >>= encodeFound name v block) := by
    refine congrArg (Bridge.region keepNothing) (bind_congr fun found => ?_)
    cases found <;> rfl
  rw [same]
  exact arrives_region took leads

/-! ### How the paths go together -/

/-- How the paths to the members of a handle go together. -/
structure PathsAgree (calls : Calls) (w : World) (h : HandleId) (info : Token) (e : Entry) :
    Prop where
  /-- Extracting what resolves to a property or to a field ends as getting it does, and it is what
  the name addresses. -/
  read : ∀ name member, member.isDatum = true → Member.Resolves calls w info name member →
    addressed? w h name = some member
      ∧ EndAlike ((extract h name).run.run calls w) ((get h name).run.run calls w)
  /-- A name that resolves to a signal, or that does not resolve, addresses nothing: getting and
  setting it fail, and leave the world untouched. -/
  absent : ∀ name r, ((Member.resolve info name).run.run calls w).1 = .done r →
    ((∃ signal, r = .ok (.signal signal)) ∨ ∃ f, r = .error f) →
    addressed? w h name = none
      ∧ (∃ w', Fails calls (get h name) w (.noMember name) w' ∧ w.Untouched w')
      ∧ ∀ v, ∃ w', Fails calls (set h name v) w (.noMember name) w' ∧ w.Untouched w'
  /-- Nothing but a method hides from extracting what a name addresses. -/
  hidden : ∀ name member r, addressed? w h name = some member →
    ((Member.resolve info name).run.run calls w).1 = .done r →
    r = .ok member ∨ ∃ method, r = .ok (.method method)
  /-- Extracting arrives at what the name means. -/
  extracting : ∀ name member, Member.Resolves calls w info name member →
    Arrives calls w Value.claims (extract h name) (give h (w.store.handle h) member) member.claims
  /-- Getting arrives at what the name addresses, whatever it means. -/
  getting : ∀ name, Arrives calls w Value.claims (get h name)
    (reach (w.store.handle h) name readProperty readField (addressed? w h name))
    (Member.claims? (addressed? w h name))
  /-- So does setting. -/
  setting : ∀ name v, Arrives calls w keepNothing (set h name v)
    (reach (w.store.handle h) name (fun r m spelling => writeProperty r m spelling v)
      (fun r m spelling => writeField r m spelling v) (addressed? w h name))
    (Member.claims? (addressed? w h name))
  /-- A keyword of an evaluation sets its name. -/
  keyword : ∀ name v rest, access h (.keyword name v :: rest) = set h name v >>= fun _ => pure rest
  /-- A name before an output reference is got. -/
  output : ∀ argument name global rest, argument.name? = some name →
    access h (argument :: .output global :: rest) = readInto h name global >>= fun _ => pure rest
  /-- An evaluation that visits a handle, whichever handle that is, makes its accesses there. -/
  visiting : ∀ arguments target visited w₁,
    Succeeds calls (plan h arguments) w (.visit target visited) w₁ →
    (eval h arguments).run.run calls w
      = close w.store.held.length (keepOk Value.claims) ((finish target visited).run.run calls w₁)
  /-- An initializer of a construction arrives at the property that its name finds. -/
  initial : ∀ name v block, Arrives calls w keepNothing (encodeInitial info name v block)
    (encodeFound name v block (Member.property? w.database info name))
    (leavings ((Member.property? w.database info name).map Prod.fst))
  /-- What a name addresses is the property that it finds, or else the field. -/
  first : ∀ name, addressed? w h name
    = ((if e.kind = .object || e.kind = .interface then
          Member.declared? w.database .property name info else none).map
        fun found => .property found.1 found.2).or
      ((if e.kind = .object || e.kind.isRecord then
          Member.declared? w.database .field name info else none).map
        fun found => .field found.1 found.2)
  /-- A name that is declared finds what is declared by it. -/
  exact : ∀ group name m, w.database.ownMember? group name info = some m →
    Member.declared? w.database group name info = some (m, name)
  /-- A name that is not declared finds what it finds with hyphens in place of underscores. -/
  other : ∀ group name, w.database.ownMember? group name info = none →
    Member.declared? w.database group name info
      = Member.declared? w.database group (Member.hyphened name) info

/-- The paths to the members of a handle go together, unless its type is a list or an
enumeration. -/
theorem paths_agree (calls : Calls) (w : World) (h : HandleId) (info : Token) (e : Entry)
    (built : w.database.Built) (typed : (w.store.handle h).info = some info)
    (known : w.database.entry? info = some e) (single : ListCursor.isListType e = false)
    (plain : e.kind.isEnumeration = false) : PathsAgree calls w h info e := by
  have linked := built.sound.toLinked
  have has := Database.has_of_entry known
  have address (name : String) :
      addressed? w h name = Member.addressed? w.database info name := addressed?_of_typed typed
  exact
    { read := fun name member datum resolves => by
        have meant := meant_of_resolved known plain resolves
        have found : addressed? w h name = some member := by
          rw [address]
          cases member with
          | property m spelling | field m spelling => exact meant
          | _ => cases datum
        have extracts := arrives_extract typed known single resolves
        have gets := arrives_get linked typed has calls name
        rw [found, reach_datum (h := h) datum] at gets
        exact ⟨found, extracts.endAlike gets (silent_give datum) (blind_give datum)⟩
      absent := fun name r resolved none => by
        have meant := meant_of_resolved known plain resolved
        have missing : addressed? w h name = Option.none := by
          rw [address]
          rcases none with ⟨signal, rfl⟩ | ⟨f, rfl⟩ <;> exact meant
        have gets := arrives_get linked typed has calls name
        rw [missing] at gets
        refine ⟨missing, gets.fails, fun v => ?_⟩
        have sets := arrives_set linked typed has calls name v
        rw [missing] at sets
        exact sets.fails
      hidden := fun name member r found resolved => by
        have meant := meant_of_resolved known plain resolved
        rw [address] at found
        cases r with
        | error f => cases found.symm.trans meant
        | ok reached =>
          cases reached with
          | enumValue number => cases meant
          | method m => exact .inr ⟨m, rfl⟩
          | signal m => cases found.symm.trans meant
          | property m spelling | field m spelling =>
            cases found.symm.trans meant
            exact .inl rfl
      extracting := fun name member => arrives_extract typed known single
      getting := arrives_get linked typed has calls
      setting := arrives_set linked typed has calls
      keyword := fun name v rest => rfl
      output := fun argument name global rest => access_read
      visiting := fun arguments target visited w₁ planned => by
        rw [eval_eq, region_eq, run_region, planned.run_bind]
        rfl
      initial := arrives_encodeInitial linked has calls
      first := fun name => by
        rw [address]
        have property : Member.property? w.database info name
            = if e.kind = .object || e.kind = .interface then
                Member.declared? w.database .property name info else none := by
          rw [Member.property?, known]
        have field : Member.field? w.database info name
            = if e.kind = .object || e.kind.isRecord then
                Member.declared? w.database .field name info else none := by
          rw [Member.field?, known]
        rw [← property, ← field]
        cases found : Member.property? w.database info name with
        | some _ => exact Member.addressed?_of_some found
        | none => exact Member.addressed?_of_none found
      exact := fun group name m => Member.declared?_of_own
      other := fun group name => Member.declared?_of_not_own }

/-- An object type with a property, with a field, and with a method of the same name as the field. -/
def sampleShelfTypes : Database :=
  let shelf := (({} : Database).addObject "Demo" "Shelf" none false).2
  let types := (shelf.addType (.plain .int32)).2
  let wide := (types.addProperty 1 "line-width" 2
    (PropertyFlag.readable.union PropertyFlag.writable)).2
  ((wide.addField 1 "count" 2 0).2.addMethod 1 "count" CallableFlag.method [] none).2

theorem sampleShelfTypes_built : sampleShelfTypes.Built := by
  refine .next (.next (.next (.next (.next .empty (.object "Demo" "Shelf" false ?_)) (.type ?_))
    (.property "line-width" _ ?_ ?_)) (.field "count" 0 ?_ ?_))
    (.method "count" CallableFlag.method ?_ ?_ ?_)
  all_goals decide

/-- A world with a handle on an instance, which has the number one, and with a handle of its type
without an instance, which has the number two. -/
def sampleShelf : World :=
  (Session.advanceAll 1 [.makeInstance "Shelf" "x", .classHandle "Shelf" (some "shelf")]
    { database := sampleShelfTypes, bench := { identifiers := [("Shelf", 1)] } }).2

theorem paths_agree_sample : ∃ e, sampleShelf.database.entry? 1 = some e
    ∧ PathsAgree (Session.calls 1) sampleShelf 1 1 e
    ∧ Member.Resolves (Session.calls 1) sampleShelf 1 "line_width" (.property 3 "line-width")
    ∧ Member.Resolves (Session.calls 1) sampleShelf 1 "count" (.method 5)
    ∧ addressed? sampleShelf 1 "count" = some (.field 4 "count") := by
  have database : sampleShelf.database = sampleShelfTypes := by decide +kernel
  have kinds : (sampleShelf.database.entry? 1).map
      (fun e => (ListCursor.isListType e, e.kind.isEnumeration)) = some (false, false) := by
    decide +kernel
  obtain ⟨e, known, same⟩ := Option.map_eq_some_iff.mp kinds
  obtain ⟨single, plain⟩ := Prod.mk.inj same
  refine ⟨e, known, paths_agree (Session.calls 1) sampleShelf 1 1 e
    (database ▸ sampleShelfTypes_built) ?_ known single plain, ?_, ?_, ?_⟩
  all_goals decide +kernel

/-- A construction does not initialize the field that a name addresses on the same handle. -/
theorem field_not_initialized :
    ¬∀ w h name v member, addressed? w h name = some member →
      ((eval h [.keyword name v]).run.run (Session.calls 1) w).1 ≠ .done (.error (.noMember name)) := by
  intro reached
  exact reached sampleShelf 2 "count" (.int 1) (.field 4 "count") (by decide +kernel)
    (by decide +kernel)

end Handle
end ObjectBridge
