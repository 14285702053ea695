import ObjectBridge.Database.Builder
import Mathlib.Logic.Relation
import Mathlib.Tactic.Common

/-!
# Databases that are built

A database grows by calls of builders, which are given entries that are there already.  So an entry
only refers to earlier entries, its members are entries, and every type number of a registered type
stands for the entry that was registered for it first.
-/

namespace ObjectBridge

/-- The entries that a form of types refers to. -/
def TypeForm.references : TypeForm → List Token
  | plain _ => []
  | reference target => [target]
  | array element _ _ _ _ => [element]
  | list _ element => [element]

/-- The entries that a content refers to. -/
def Content.references : Content → List Token
  | object _ parent _ => parent.toList
  | function _ arguments result => arguments ++ result.toList
  | signal arguments result => arguments ++ [result]
  | argument _ declared => [declared]
  | property declared _ => [declared]
  | field declared _ => [declared]
  | constant declared _ => [declared]
  | type form => form.references
  | _ => []

namespace Database

variable {db db₁ db₂ : Database} {t u : Nat} {e : Entry}

/-- Whether a token is that of an entry. -/
def Has (db : Database) (t : Nat) : Prop := 0 < t ∧ t ≤ db.entries.size

instance : Decidable (db.Has t) := inferInstanceAs (Decidable (_ ∧ _))

/-- Whether a token is that of an argument of a callable. -/
def HasArgument (db : Database) (t : Token) : Prop :=
  ∃ e, db.entry? t = some e ∧ e.kind = .argument

theorem has_iff : db.Has t ↔ ∃ e, db.entry? t = some e := by
  unfold Has entry?
  by_cases zero : t = 0
  · simp [zero]
  · rw [if_neg zero, ← Option.isSome_iff_exists, isSome_getElem?]
    omega

theorem has_of_entry (found : db.entry? t = some e) : db.Has t := has_iff.mpr ⟨e, found⟩

theorem Has.entry (known : db.Has t) : ∃ e, db.entry? t = some e := has_iff.mp known

theorem mem_tokens : t ∈ db.tokens ↔ db.Has t := by
  simp only [tokens, List.mem_map, List.mem_range, Has]
  constructor
  · rintro ⟨i, below, rfl⟩
    omega
  · rintro ⟨positive, bound⟩
    exact ⟨t - 1, by omega, by omega⟩

theorem entry?_empty (t : Token) : Database.entry? {} t = none := by
  unfold entry?
  split <;> rfl

theorem HasArgument.has (known : db.HasArgument t) : db.Has t := by
  obtain ⟨e, found, _⟩ := known
  exact has_of_entry found

/-- What the entries of a database say about each other. -/
structure Linked (db : Database) : Prop where
  /-- An entry only refers to earlier entries. -/
  references : ∀ (t : Nat) e, db.entry? t = some e →
    ∀ u ∈ e.content.references, 0 < u ∧ u < t
  /-- The members of an entry are entries. -/
  members : ∀ (t : Nat) e, db.entry? t = some e → ∀ m ∈ e.members, db.Has m.2
  /-- The arguments of a callable are arguments. -/
  arguments : ∀ (t : Nat) e, db.entry? t = some e → ∀ u ∈ e.arguments, db.HasArgument u

/-- What holds of every database that is built. -/
structure Sound (db : Database) : Prop extends Linked db where
  /-- A type number that is taken stands for a registered type of this number. -/
  registered : ∀ n (t : Nat), db.registered? n = some t →
    ∃ e, db.entry? t = some e ∧ e.kind.isRegistered = true ∧ e.number = n
  /-- The type number of a registered type is taken. -/
  numbered : ∀ (t : Nat) e, db.entry? t = some e → e.kind.isRegistered = true →
    ∃ u, db.registered? e.number = some u

/-- A later state of a database, in which an entry has at most got more members. -/
structure Extends (db later : Database) : Prop where
  /-- The entries are there. -/
  entries : ∀ (t : Nat) e, db.entry? t = some e → ∃ members,
    later.entry? t = some { e with members := e.members ++ members }
  /-- A type number stands for the same entry. -/
  registered : ∀ n (t : Nat), db.registered? n = some t → later.registered? n = some t

theorem Extends.refl (db : Database) : db.Extends db :=
  ⟨fun t e found => ⟨[], by simpa using found⟩, fun _ _ found => found⟩

theorem Extends.trans (first : db.Extends db₁) (second : db₁.Extends db₂) : db.Extends db₂ where
  entries t e found := by
    obtain ⟨older, kept⟩ := first.entries t e found
    obtain ⟨newer, after⟩ := second.entries t _ kept
    exact ⟨older ++ newer, by rw [after, List.append_assoc]⟩
  registered n t found := second.registered n t (first.registered n t found)

theorem Extends.has (later : db.Extends db₁) (known : db.Has t) : db₁.Has t := by
  obtain ⟨e, found⟩ := known.entry
  obtain ⟨_, kept⟩ := later.entries t e found
  exact has_of_entry kept

theorem Extends.hasArgument (later : db.Extends db₁) (known : db.HasArgument t) :
    db₁.HasArgument t := by
  obtain ⟨e, found, kind⟩ := known
  obtain ⟨_, kept⟩ := later.entries t e found
  exact ⟨_, kept, kind⟩

/-! ### Adding an entry -/

theorem entry?_push (db : Database) (e : Entry) (t : Nat) :
    Database.entry? (db.push e).2 t = if t = db.entries.size + 1 then some e else db.entry? t := by
  simp only [push, entry?, Array.getElem?_push]
  by_cases zero : t = 0
  · simp [zero]
  · have place : t - 1 = db.entries.size ↔ t = db.entries.size + 1 := by omega
    simp only [zero, if_false, place]

theorem has_push (db : Database) (e : Entry) : (db.push e).2.Has (db.push e).1 :=
  has_of_entry ((db.entry?_push e _).trans (if_pos rfl))

theorem extends_push (db : Database) (e : Entry) : db.Extends (db.push e).2 where
  entries t f found := by
    have old : t ≠ db.entries.size + 1 := by
      have known := (has_of_entry found).2
      omega
    exact ⟨[], by simp [entry?_push, old, found]⟩
  registered _ _ found := found

/-- An entry can be added once everything that it refers to is there. -/
theorem Linked.push (linked : db.Linked) (references : ∀ u ∈ e.content.references, db.Has u)
    (bare : e.members = []) (arguments : ∀ u ∈ e.arguments, db.HasArgument u) :
    (db.push e).2.Linked where
  references t f found u member := by
    rw [entry?_push] at found
    split at found
    · next new =>
      cases found
      have known := references u member
      exact ⟨known.1, new ▸ Nat.lt_succ_of_le known.2⟩
    · exact linked.references t f found u member
  members t f found m member := by
    rw [entry?_push] at found
    split at found
    · cases found
      simp [bare] at member
    · exact (db.extends_push e).has (linked.members t f found m member)
  arguments t f found u member := by
    refine (db.extends_push e).hasArgument ?_
    rw [entry?_push] at found
    split at found
    · cases found
      exact arguments u member
    · exact linked.arguments t f found u member

theorem Sound.push (sound : db.Sound) (references : ∀ u ∈ e.content.references, db.Has u)
    (bare : e.members = []) (arguments : ∀ u ∈ e.arguments, db.HasArgument u)
    (unnumbered : e.kind.isRegistered = false) : (db.push e).2.Sound where
  toLinked := sound.toLinked.push references bare arguments
  registered n t found := by
    obtain ⟨f, known, kind⟩ := sound.registered n t found
    obtain ⟨_, kept⟩ := (db.extends_push e).entries t f known
    exact ⟨_, kept, kind⟩
  numbered t f found kind := by
    rw [entry?_push] at found
    split at found
    · cases found
      simp [unnumbered] at kind
    · exact sound.numbered t f found kind

/-! ### Adding a member -/

theorem entry?_addMember (db : Database) (owner : Nat) (group : MemberGroup) (m t : Nat) :
    Database.entry? (db.addMember owner group m) t
      = if t = owner then
          (db.entry? t).map fun e => { e with members := e.members ++ [(group, m)] }
        else db.entry? t := by
  unfold addMember entry?
  by_cases zero : t = 0
  · simp [zero]
  · by_cases none : owner = 0
    · have other : t ≠ owner := by omega
      simp [zero, none]
    · have place : owner - 1 = t - 1 ↔ t = owner := by omega
      simp only [zero, none, if_false, Array.getElem?_modify, place]

theorem registered?_addMember (db : Database) (owner : Token) (group : MemberGroup) (m : Token)
    (n : TypeNumber) : (db.addMember owner group m).registered? n = db.registered? n := by
  unfold addMember
  split <;> rfl

theorem extends_addMember (db : Database) (owner : Token) (group : MemberGroup) (m : Token) :
    db.Extends (db.addMember owner group m) where
  entries t e found := by
    rw [entry?_addMember, found]
    split
    · exact ⟨[(group, m)], rfl⟩
    · exact ⟨[], by simp⟩
  registered n t found := (db.registered?_addMember owner group m n).trans found

/-- An entry after a member was added is the old one, up to its members. -/
theorem entry_of_addMember {owner m : Token} {group : MemberGroup}
    (found : Database.entry? (db.addMember owner group m) t = some e) :
    ∃ f, db.entry? t = some f ∧ f.content = e.content
      ∧ ∀ member ∈ e.members, member ∈ f.members ∨ member = (group, m) := by
  rw [entry?_addMember] at found
  split at found
  · obtain ⟨f, old, rfl⟩ := Option.map_eq_some_iff.mp found
    exact ⟨f, old, rfl, fun member there => by simpa using there⟩
  · exact ⟨e, found, rfl, fun _ there => .inl there⟩

theorem Sound.addMember (sound : db.Sound) {m : Token} (known : db.Has m) (owner : Token)
    (group : MemberGroup) : (db.addMember owner group m).Sound := by
  have later := db.extends_addMember owner group m
  refine ⟨⟨fun t e found u member => ?_, fun t e found n member => ?_, fun t e found u member => ?_⟩,
    fun n t found => ?_, fun t e found kind => ?_⟩
  · obtain ⟨f, old, content, _⟩ := entry_of_addMember found
    exact sound.references t f old u (content ▸ member)
  · obtain ⟨f, old, _, members⟩ := entry_of_addMember found
    rcases members n member with there | rfl
    · exact later.has (sound.members t f old n there)
    · exact later.has known
  · obtain ⟨f, old, content, _⟩ := entry_of_addMember found
    refine later.hasArgument (sound.arguments t f old u ?_)
    simpa only [Entry.arguments, content] using member
  · rw [registered?_addMember] at found
    obtain ⟨f, old, kind⟩ := sound.registered n t found
    obtain ⟨_, kept⟩ := later.entries t f old
    exact ⟨_, kept, kind⟩
  · obtain ⟨f, old, content, _⟩ := entry_of_addMember found
    simp only [registered?_addMember, Entry.number, Entry.kind, ← content] at kind ⊢
    exact sound.numbered t f old kind

/-! ### Registering a type -/

theorem registered?_register (db : Database) (number : TypeNumber) (t : Token) (n : TypeNumber) :
    (db.register number t).registered? n
      = (db.registered? n).or (if n = number then some t else none) := by
  have appended : (db.registered ++ [(number, t)]).lookup n
      = (db.registered.lookup n).or (if n = number then some t else none) := by
    rw [List.lookup_append]
    by_cases same : n = number
    · simp [same]
    · have different : (n == number) = false := beq_false_of_ne same
      simp [List.lookup_cons, different, same]
  unfold register
  split
  · next u taken =>
    by_cases same : n = number
    · simp [same, taken]
    · simp [same]
  · exact appended

theorem entry?_register (db : Database) (number : TypeNumber) (t u : Token) :
    Database.entry? (db.register number t) u = db.entry? u := by
  unfold register
  split <;> rfl

theorem extends_register (db : Database) (number : TypeNumber) (t : Token) :
    db.Extends (db.register number t) where
  entries u e found := ⟨[], by simpa [entry?_register] using found⟩
  registered n u found := by simp [registered?_register, found]

/-- Changing what is known of namespaces changes no entry. -/
theorem Sound.congr (sound : db.Sound) (entries : db₁.entries = db.entries)
    (registered : db₁.registered = db.registered) : db₁.Sound := by
  obtain ⟨es, rs, next, catalog, path⟩ := db
  obtain ⟨es', rs', next', catalog', path'⟩ := db₁
  subst entries registered
  exact ⟨⟨sound.references, sound.members, sound.arguments⟩, sound.registered, sound.numbered⟩

theorem Extends.of_eq (entries : db₁.entries = db.entries)
    (registered : db₁.registered = db.registered) : db.Extends db₁ := by
  obtain ⟨es, rs, next, catalog, path⟩ := db
  obtain ⟨es', rs', next', catalog', path'⟩ := db₁
  subst entries registered
  exact ⟨(Extends.refl _).entries, (Extends.refl _).registered⟩

/-- What a call of a builder does to a sound database. -/
structure Grown (db : Database) (made : Token × Database) : Prop where
  /-- The database stays sound. -/
  sound : made.2.Sound
  /-- Everything that was there stays there. -/
  later : db.Extends made.2
  /-- The entry that was asked for is there. -/
  has : made.2.Has made.1

/-- A registered type can be added once everything that it refers to is there. -/
theorem Sound.addNumbered (sound : db.Sound) (home name : String) (number : TypeNumber)
    {content : Content} (references : ∀ u ∈ content.references, db.Has u)
    (kind : content.kind.isRegistered = true)
    (own : ∀ e : Entry, e.content = content → e.number = number) :
    db.Grown (db.addNumbered home name number content) := by
  let e : Entry :=
    { name := some name, home := some home, topLevel := true, content := content }
  let base : Database := { db with catalog := db.catalog.assume home }
  have sound' : base.Sound := sound.congr rfl rfl
  have same : db.Extends base := .of_eq rfl rfl
  have arguments : ∀ u ∈ e.arguments, base.HasArgument u := by
    cases content <;> simp [Content.kind, EntryKind.isRegistered] at kind <;>
      simp [e, Entry.arguments]
  have linked : (base.push e).2.Linked := sound'.toLinked.push references rfl arguments
  have later := base.extends_push e
  have onward := (base.push e).2.extends_register number (base.push e).1
  have new : Database.entry? (base.push e).2 (base.push e).1 = some e :=
    (base.entry?_push e _).trans (if_pos rfl)
  change db.Grown ((base.push e).1, (base.push e).2.register number (base.push e).1)
  refine ⟨⟨⟨?_, ?_, ?_⟩, fun n t found => ?_, fun t f found kind' => ?_⟩, ?_, ?_⟩
  · simp only [entry?_register]
    exact linked.references
  · intro t f found m member
    rw [entry?_register] at found
    exact onward.has (linked.members t f found m member)
  · intro t f found u member
    rw [entry?_register] at found
    exact onward.hasArgument (linked.arguments t f found u member)
  · rw [registered?_register, Option.or_eq_some_iff] at found
    rcases found with old | ⟨_, fresh⟩
    · obtain ⟨f, known, facts⟩ := sound'.registered n t old
      obtain ⟨_, kept⟩ := (later.trans onward).entries t f known
      exact ⟨_, kept, facts⟩
    · split at fresh
      · next same =>
        cases fresh
        exact ⟨e, by rw [entry?_register, new], kind, same ▸ own e rfl⟩
      · contradiction
  · rw [entry?_register, entry?_push] at found
    split at found
    · cases found
      rw [own e rfl, registered?_register]
      cases taken : (base.push e).2.registered? number with
      | some u => exact ⟨u, by simp⟩
      | none => exact ⟨(base.push e).1, by simp⟩
    · obtain ⟨u, taken⟩ := sound'.numbered t f found kind'
      exact ⟨u, onward.registered _ _ (later.registered _ _ taken)⟩
  · exact same.trans (later.trans onward)
  · exact onward.has (has_of_entry new)

/-- A registered type can be added with the next type number. -/
theorem Sound.addRegistered (sound : db.Sound) (home name : String) {content : TypeNumber → Content}
    (references : ∀ n, ∀ u ∈ (content n).references, db.Has u)
    (kind : ∀ n, (content n).kind.isRegistered = true)
    (own : ∀ n, ∀ e : Entry, e.content = content n → e.number = n) :
    db.Grown (db.addRegistered home name content) := by
  let base : Database := { db with nextNumber := db.nextNumber + 1 }
  have sound' : base.Sound := sound.congr rfl rfl
  have same : db.Extends base := .of_eq rfl rfl
  obtain ⟨grown, later, has⟩ := sound'.addNumbered home name db.nextNumber
    (references db.nextNumber) (kind db.nextNumber) (own db.nextNumber)
  exact ⟨grown, same.trans later, has⟩

theorem Sound.addTopLevel (sound : db.Sound) (home name : String) {content : Content}
    (references : ∀ u ∈ content.references, db.Has u)
    (arguments : ∀ e : Entry, e.content = content → ∀ u ∈ e.arguments, db.HasArgument u)
    (unnumbered : content.kind.isRegistered = false) :
    db.Grown (db.addTopLevel home name content) := by
  let base : Database := { db with catalog := db.catalog.assume home }
  have sound' : base.Sound := sound.congr rfl rfl
  have same : db.Extends base := .of_eq rfl rfl
  exact ⟨sound'.push references rfl (arguments _ rfl) unnumbered, same.trans (extends_push _ _),
    has_push _ _⟩

/-- An entry of its own can be added as a member, whether its owner is there or not. -/
theorem Sound.addOwned (sound : db.Sound) (owner : Token) (group : MemberGroup) (name : String)
    {content : Content} (references : ∀ u ∈ content.references, db.Has u)
    (arguments : ∀ e : Entry, e.content = content → ∀ u ∈ e.arguments, db.HasArgument u)
    (unnumbered : content.kind.isRegistered = false) :
    db.Grown (db.addOwned owner group name content) := by
  let e : Entry := { name := some name, home := some (db.homeOf owner), content := content }
  have pushed : (db.push e).2.Sound := sound.push references rfl (arguments e rfl) unnumbered
  have onward := (db.push e).2.extends_addMember owner group (db.push e).1
  exact ⟨pushed.addMember (has_push db e) owner group, (extends_push db e).trans onward,
    onward.has (has_push db e)⟩

/-- Adding arguments gives arguments. -/
theorem Sound.addArguments (sound : db.Sound) (home : String) {parameters : List Parameter}
    (known : ∀ p ∈ parameters, db.Has p.type) :
    (db.addArguments home parameters).2.Sound
      ∧ db.Extends (db.addArguments home parameters).2
      ∧ ∀ t ∈ (db.addArguments home parameters).1,
          (db.addArguments home parameters).2.HasArgument t := by
  induction parameters generalizing db with
  | nil => exact ⟨sound, .refl db, by simp [Database.addArguments]⟩
  | cons p rest ih =>
    let e : Entry :=
      { name := some p.name, home := some home, content := .argument p.passing p.type }
    have pushed : (db.push e).2.Sound := by
      refine sound.push (fun u member => ?_) rfl (by simp [e, Entry.arguments]) rfl
      rw [List.mem_singleton.mp member]
      exact known p List.mem_cons_self
    have later := db.extends_push e
    obtain ⟨sound', onward, others⟩ :=
      ih pushed fun q member => later.has (known q (List.mem_cons_of_mem p member))
    refine ⟨sound', later.trans onward, fun t member => ?_⟩
    rcases List.mem_cons.mp member with rfl | other
    · exact onward.hasArgument ⟨e, (db.entry?_push e _).trans (if_pos rfl), rfl⟩
    · exact others t other

theorem Sound.addValues (sound : db.Sound) (owner : Token) (home : String)
    (values : List (String × Int64)) :
    (db.addValues owner home values).Sound ∧ db.Extends (db.addValues owner home values) := by
  induction values generalizing db with
  | nil => exact ⟨sound, .refl db⟩
  | cons value rest ih =>
    let e : Entry := { name := some value.1, home := some home, content := .value value.2 }
    have pushed : (db.push e).2.Sound :=
      sound.push (by simp [e, Content.references]) rfl (by simp [e, Entry.arguments]) rfl
    obtain ⟨sound', onward⟩ := ih (pushed.addMember (has_push db e) owner .value)
    exact ⟨sound',
      (db.extends_push e).trans ((Database.extends_addMember _ owner .value _).trans onward)⟩

/-- An enumeration or a set of flags gets its values after it was added. -/
theorem Grown.addValues {made : Token × Database} (grown : db.Grown made) (home : String)
    (values : List (String × Int64)) :
    db.Grown (made.1, made.2.addValues made.1 home values) := by
  obtain ⟨sound, onward⟩ := grown.sound.addValues made.1 home values
  exact ⟨sound, grown.later.trans onward, onward.has grown.has⟩

theorem Extends.grown {made : Token × Database} (later : db.Extends db₁) (grown : db₁.Grown made) :
    db.Grown made :=
  ⟨grown.sound, later.trans grown.later, grown.has⟩

/-! ### Calls of builders -/

/-- A call of a builder, which is given tokens of entries that are there, and what it makes. -/
inductive Builds (db : Database) : Token × Database → Prop
  /-- An object type. -/
  | object (home name : String) {parent : Option Token} (floating : Bool)
      (known : ∀ p, parent = some p → db.Has p) :
      Builds db (db.addObject home name parent floating)
  /-- An interface type. -/
  | interface (home name : String) : Builds db (db.addInterface home name)
  /-- A plain record type. -/
  | struct (home name : String) (size : Nat) : Builds db (db.addStruct home name size)
  /-- A record type with a given type number. -/
  | boxed (home name : String) (size : Nat) (number : TypeNumber) :
      Builds db (db.addBoxed home name size number)
  /-- The record type of the generic value box. -/
  | valueBox (home name : String) : Builds db (db.addValueBox home name)
  /-- An enumeration. -/
  | enum (home name : String) (storage : Tag) (values : List (String × Int64)) :
      Builds db (db.addEnum home name storage values)
  /-- A set of bit flags. -/
  | flags (home name : String) (storage : Tag) (values : List (String × Int64)) :
      Builds db (db.addFlags home name storage values)
  /-- A callback type. -/
  | callback (home name : String) : Builds db (db.addCallback home name)
  /-- A type entry. -/
  | type {form : TypeForm} (known : ∀ t ∈ form.references, db.Has t) :
      Builds db (db.addType form)
  /-- A property. -/
  | property {owner declared : Token} (name : String) (flags : FlagSet) (own : db.Has owner)
      (known : db.Has declared) : Builds db (db.addProperty owner name declared flags)
  /-- A field. -/
  | field {owner declared : Token} (name : String) (offset : Nat) (own : db.Has owner)
      (known : db.Has declared) : Builds db (db.addField owner name declared offset)
  /-- A virtual function. -/
  | vfunc {owner : Token} (name : String) (own : db.Has owner) : Builds db (db.addVfunc owner name)
  /-- A signal. -/
  | signal {owner result : Token} {types : List Token} (name : String) (own : db.Has owner)
      (known : ∀ t ∈ types, db.Has t) (answer : db.Has result) :
      Builds db (db.addSignal owner name types result)
  /-- A constant. -/
  | constant (home name : String) {declared : Token} (slot : Slot) (known : db.Has declared) :
      Builds db (db.addConstant home name declared slot)
  /-- A function of a namespace. -/
  | function (home name : String) (flags : FlagSet) {parameters : List Parameter}
      {result : Option Token} (known : ∀ p ∈ parameters, db.Has p.type)
      (answer : ∀ t, result = some t → db.Has t) :
      Builds db (db.addFunction home name flags parameters result)
  /-- A method of an entry. -/
  | method {owner : Token} (name : String) (flags : FlagSet) {parameters : List Parameter}
      {result : Option Token} (own : db.Has owner) (known : ∀ p ∈ parameters, db.Has p.type)
      (answer : ∀ t, result = some t → db.Has t) :
      Builds db (db.addMethod owner name flags parameters result)

/-- A database that calls of builders make, starting from nothing.  Between the calls, namespaces
may be declared and loaded. -/
inductive Built : Database → Prop
  /-- The empty database. -/
  | empty : Built {}
  /-- One more call of a builder. -/
  | next {db : Database} {made : Token × Database} (built : Built db) (call : db.Builds made) :
      Built made.2
  /-- What is known of namespaces changes. -/
  | named {db : Database} (built : Built db) (catalog : Catalog) (path : List String) :
      Built { db with catalog := catalog, searchPath := path }

theorem sound_empty : ({} : Database).Sound := by
  have nothing {t : Token} {e : Entry} (found : Database.entry? {} t = some e) : False := by
    simp [entry?_empty] at found
  exact ⟨⟨fun t e found => (nothing found).elim, fun t e found => (nothing found).elim,
    fun t e found => (nothing found).elim⟩, fun n t found => by simp [registered?] at found,
    fun t e found => (nothing found).elim⟩

theorem known_signalParameters {types : List Token} (known : ∀ t ∈ types, db.Has t) :
    ∀ p ∈ signalParameters types, db.Has p.type := by
  intro p member
  obtain ⟨⟨type, i⟩, pair, rfl⟩ := List.mem_map.mp member
  exact known type (List.of_mem_zip pair).1

/-- A call of a builder keeps a database sound and everything that is in it. -/
theorem Builds.grown {made : Token × Database} (sound : db.Sound) (call : db.Builds made) :
    db.Grown made := by
  have single {t : Token} (known : db.Has t) : ∀ u ∈ [t], db.Has u := fun u member => by
    rwa [List.mem_singleton.mp member]
  cases call with
  | object home name floating known =>
    exact sound.addRegistered home name (fun _ u member => known u (Option.mem_toList.mp member))
      (fun _ => rfl) fun _ e content => by simp [Entry.number, content]
  | interface home name =>
    exact sound.addRegistered home name (fun _ _ none => by simp [Content.references] at none)
      (fun _ => rfl) fun _ e content => by simp [Entry.number, content]
  | struct home name size =>
    exact sound.addRegistered home name (fun _ _ none => by simp [Content.references] at none)
      (fun _ => rfl) fun _ e content => by simp [Entry.number, content]
  | boxed home name size number =>
    exact sound.addNumbered home name number (by simp [Content.references]) rfl
      fun e content => by simp [Entry.number, content]
  | valueBox home name =>
    exact sound.addNumbered home name valueBoxNumber (by simp [Content.references]) rfl
      fun e content => by simp [Entry.number, content]
  | enum home name storage values =>
    have added : db.Grown (db.addRegistered home name fun number => .enum number storage) :=
      sound.addRegistered home name (fun _ _ none => by simp [Content.references] at none)
        (fun _ => rfl) fun _ e content => by simp [Entry.number, content]
    exact added.addValues home values
  | flags home name storage values =>
    have added : db.Grown (db.addRegistered home name fun number => .flags number storage) :=
      sound.addRegistered home name (fun _ _ none => by simp [Content.references] at none)
        (fun _ => rfl) fun _ e content => by simp [Entry.number, content]
    exact added.addValues home values
  | callback home name =>
    exact sound.addTopLevel home name (by simp [Content.references])
      (fun e content => by simp [Entry.arguments, content]) rfl
  | @type form known =>
    exact ⟨sound.push known rfl (by simp [Entry.arguments]) rfl, extends_push _ _, has_push _ _⟩
  | property name flags own known =>
    exact sound.addOwned _ _ name (single known)
      (fun e content => by simp [Entry.arguments, content]) rfl
  | field name offset own known =>
    exact sound.addOwned _ _ name (single known)
      (fun e content => by simp [Entry.arguments, content]) rfl
  | vfunc name own =>
    exact sound.addOwned _ _ name (by simp [Content.references])
      (fun e content => by simp [Entry.arguments, content]) rfl
  | @signal owner result types name own known answer =>
    obtain ⟨sound₁, later₁, arguments⟩ :=
      sound.addArguments (db.homeOf owner) (known_signalParameters known)
    refine later₁.grown (sound₁.addOwned owner .signal name (fun u member => ?_)
      (fun e content => by simpa [Entry.arguments, content] using arguments) rfl)
    rcases List.mem_append.mp member with argument | own
    · exact (arguments u argument).has
    · rw [List.mem_singleton.mp own]
      exact later₁.has answer
  | constant home name slot known =>
    exact sound.addTopLevel home name (single known)
      (fun e content => by simp [Entry.arguments, content]) rfl
  | @function home name flags parameters result known answer =>
    let base : Database := { db with catalog := db.catalog.assume home }
    have same : db.Extends base := .of_eq rfl rfl
    have sound' : base.Sound := sound.congr rfl rfl
    obtain ⟨sound₁, later₁, arguments⟩ := sound'.addArguments home known
    refine (same.trans later₁).grown (sound₁.addTopLevel home name
      (fun u member => ?_) (fun e content => by simpa [Entry.arguments, content] using arguments) rfl)
    rcases List.mem_append.mp member with argument | own
    · exact (arguments u argument).has
    · exact later₁.has (answer u (Option.mem_toList.mp own))
  | @method owner name flags parameters result own known answer =>
    obtain ⟨sound₁, later₁, arguments⟩ := sound.addArguments (db.homeOf owner) known
    refine later₁.grown (sound₁.addOwned owner .method name (fun u member => ?_)
      (fun e content => by simpa [Entry.arguments, content] using arguments) rfl)
    rcases List.mem_append.mp member with argument | own
    · exact (arguments u argument).has
    · exact later₁.has (answer u (Option.mem_toList.mp own))

/-- Every database that is built is sound. -/
theorem Built.sound (built : db.Built) : db.Sound := by
  induction built with
  | empty => exact sound_empty
  | next _ call ih => exact (call.grown ih).sound
  | named _ catalog path ih => exact ih.congr rfl rfl

end Database
end ObjectBridge
