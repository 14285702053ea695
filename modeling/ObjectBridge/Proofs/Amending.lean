import ObjectBridge.Database.Amend
import ObjectBridge.Proofs.Ancestry

/-!
# Databases that are assembled

A database is assembled by calls of all kinds: builders add entries, and two calls mark an entry that
is there.  Marks are no references, so an assembled database is sound: what an entry links to is
there before it.  An entry is never taken away or replaced; later calls add members to it and mark
it, and its links stay as they are.
-/

namespace ObjectBridge

namespace Content

/-- A content without the marks that it can get after it was added. -/
def unmarked : Content → Content
  | object number parent _ => object number parent false
  | type (.array element form zeroTerminated fixedSize _) =>
    type (.array element form zeroTerminated fixedSize none)
  | other => other

variable (c : Content)

theorem unmarked_floating : c.floating.unmarked = c.unmarked := by
  cases c <;> rfl

theorem unmarked_measured (index : Nat) : (c.measured index).unmarked = c.unmarked := by
  cases c with
  | type form => cases form <;> rfl
  | _ => rfl

theorem references_unmarked : c.unmarked.references = c.references := by
  cases c with
  | type form => cases form <;> rfl
  | _ => rfl

end Content

namespace Entry

/-- An entry without the marks that it can get after it was added. -/
def unmarked (e : Entry) : Entry := { e with content := e.content.unmarked }

/-- The entries that an entry links to, apart from its members. -/
def links (e : Entry) : List Token :=
  e.parent?.toList ++ e.target?.toList ++ e.parts ++ e.arguments ++ e.result?.toList
    ++ e.declared?.toList

/-- What is told of an entry in the same way however many members and marks it gets. -/
structure Lasting {α : Type} (f : Entry → α) : Prop where
  /-- It does not depend on whether instances start out floating. -/
  float : ∀ (e : Entry) number parent floating,
    f { e with content := .object number parent floating }
      = f { e with content := .object number parent false }
  /-- It does not depend on which argument gives a length. -/
  measure : ∀ (e : Entry) element form zeroTerminated fixedSize index,
    f { e with content := .type (.array element form zeroTerminated fixedSize index) }
      = f { e with content := .type (.array element form zeroTerminated fixedSize none) }
  /-- It does not depend on the members. -/
  members : ∀ (e : Entry) members, f { e with members := members } = f e

theorem Lasting.unmarked {α : Type} {f : Entry → α} (lasting : Lasting f) (e : Entry) :
    f e.unmarked = f e := by
  obtain ⟨name, home, top, members, content⟩ := e
  cases content with
  | object number parent floating => exact (lasting.float ⟨name, home, top, members, _⟩ _ _ _).symm
  | type form =>
    cases form with
    | array element form zeroTerminated fixedSize index =>
      exact (lasting.measure ⟨name, home, top, members, .callback⟩ _ _ _ _ _).symm
    | _ => rfl
  | _ => rfl

theorem lasting_parent : Lasting parent? :=
  ⟨fun _ _ _ _ => rfl, fun _ _ _ _ _ _ => rfl, fun _ _ => rfl⟩

theorem lasting_target : Lasting target? :=
  ⟨fun _ _ _ _ => rfl, fun _ _ _ _ _ _ => rfl, fun _ _ => rfl⟩

theorem lasting_arguments : Lasting arguments :=
  ⟨fun _ _ _ _ => rfl, fun _ _ _ _ _ _ => rfl, fun _ _ => rfl⟩

theorem lasting_kind : Lasting kind :=
  ⟨fun _ _ _ _ => rfl, fun _ _ _ _ _ _ => rfl, fun _ _ => rfl⟩

theorem lasting_number : Lasting number :=
  ⟨fun _ _ _ _ => rfl, fun _ _ _ _ _ _ => rfl, fun _ _ => rfl⟩

/-- What an entry links to is what its content refers to. -/
theorem mem_links {e : Entry} {u : Token} : u ∈ e.links ↔ u ∈ e.content.references := by
  obtain ⟨name, home, top, members, content⟩ := e
  cases content with
  | type form =>
    cases form <;> simp [links, parent?, target?, parts, arguments, result?, declared?,
      Content.references, TypeForm.references]
  | _ =>
    simp [links, parent?, target?, parts, arguments, result?, declared?, Content.references]

/-- What an entry means later: it may have more members and marks. -/
structure Amended (e e' : Entry) : Prop where
  /-- The name is the same. -/
  name : e'.name = e.name
  /-- So is the namespace. -/
  home : e'.home = e.home
  /-- The entry is found by its name where it was. -/
  topLevel : e'.topLevel = e.topLevel
  /-- The members that there were stand in front. -/
  members : e.members <+: e'.members
  /-- Only marks may differ in what it says. -/
  content : e'.content.unmarked = e.content.unmarked

variable {e e₁ e₂ e' : Entry}

theorem Amended.refl (e : Entry) : e.Amended e := ⟨rfl, rfl, rfl, List.prefix_refl _, rfl⟩

theorem Amended.trans (first : e.Amended e₁) (second : e₁.Amended e₂) : e.Amended e₂ where
  name := second.name.trans first.name
  home := second.home.trans first.home
  topLevel := second.topLevel.trans first.topLevel
  members := first.members.trans second.members
  content := second.content.trans first.content

theorem Amended.keeps {α : Type} {f : Entry → α} (amended : e.Amended e') (lasting : Lasting f) :
    f e' = f e := by
  have same : e'.unmarked = { e.unmarked with members := e'.members } := by
    obtain ⟨name, home, top, _, content⟩ := amended
    simp only [unmarked, name, home, top, content]
  rw [← lasting.unmarked e', same, lasting.members, lasting.unmarked]

end Entry

namespace Database

variable {db db₁ db₂ later : Database} {t u : Nat} {e : Entry} {f : Content → Content}

/-! ### Marking an entry -/

theorem entry?_amend (db : Database) (t u : Nat) (f : Content → Content) :
    Database.entry? (db.amend t f) u
      = if u = t then (db.entry? u).map fun e => { e with content := f e.content }
        else db.entry? u := by
  unfold amend entry?
  by_cases zero : u = 0
  · simp [zero]
  · by_cases none : t = 0
    · have other : u ≠ t := by omega
      simp [zero, none]
    · have place : t - 1 = u - 1 ↔ u = t := by omega
      simp only [zero, none, if_false, Array.getElem?_modify, place]

theorem registered?_amend (db : Database) (t : Token) (f : Content → Content) (n : TypeNumber) :
    (db.amend t f).registered? n = db.registered? n := by
  unfold amend
  split <;> rfl

/-- A later state of a database, in which entries have at most got more members and marks. -/
structure Persists (db later : Database) : Prop where
  /-- Every entry is there, and means what it meant. -/
  entries : ∀ (t : Nat) e, db.entry? t = some e → ∃ e', later.entry? t = some e' ∧ e.Amended e'
  /-- A type number stands for the same entry. -/
  registered : ∀ n (t : Nat), db.registered? n = some t → later.registered? n = some t

theorem Persists.refl (db : Database) : db.Persists db :=
  ⟨fun _ e found => ⟨e, found, .refl e⟩, fun _ _ taken => taken⟩

theorem Persists.trans (first : db.Persists db₁) (second : db₁.Persists db₂) :
    db.Persists db₂ where
  entries t e found := by
    obtain ⟨e₁, found₁, before⟩ := first.entries t e found
    obtain ⟨e₂, found₂, after⟩ := second.entries t e₁ found₁
    exact ⟨e₂, found₂, before.trans after⟩
  registered n t taken := second.registered n t (first.registered n t taken)

theorem Persists.has (persists : db.Persists later) (known : db.Has t) : later.Has t := by
  obtain ⟨e, found⟩ := known.entry
  obtain ⟨_, kept, _⟩ := persists.entries t e found
  exact has_of_entry kept

theorem Persists.hasArgument (persists : db.Persists later) (known : db.HasArgument t) :
    later.HasArgument t := by
  obtain ⟨e, found, kind⟩ := known
  obtain ⟨e', kept, amended⟩ := persists.entries t e found
  exact ⟨e', kept, (amended.keeps Entry.lasting_kind).trans kind⟩

theorem Extends.persists (extends_ : db.Extends later) : db.Persists later where
  entries t e found := by
    obtain ⟨members, kept⟩ := extends_.entries t e found
    exact ⟨_, kept, rfl, rfl, rfl, List.prefix_append _ _, rfl⟩
  registered := extends_.registered

/-- Marking an entry changes nothing else. -/
theorem persists_amend (db : Database) (t : Token) (marks : ∀ c, (f c).unmarked = c.unmarked) :
    db.Persists (db.amend t f) where
  entries u e found := by
    rw [entry?_amend, found]
    split
    · exact ⟨_, rfl, rfl, rfl, rfl, List.prefix_refl _, marks e.content⟩
    · exact ⟨e, rfl, .refl e⟩
  registered n u taken := (db.registered?_amend t f n).trans taken

/-- An entry after one was marked is the old one, up to marks. -/
theorem entry_of_amend (marks : ∀ c, (f c).unmarked = c.unmarked)
    (found : Database.entry? (db.amend t f) u = some e) :
    ∃ e₀, db.entry? u = some e₀ ∧ e.members = e₀.members ∧ e.unmarked = e₀.unmarked := by
  rw [entry?_amend] at found
  split at found
  · obtain ⟨e₀, old, rfl⟩ := Option.map_eq_some_iff.mp found
    refine ⟨e₀, old, rfl, ?_⟩
    simp only [Entry.unmarked, marks]
  · exact ⟨e, found, rfl, rfl⟩

/-- Marking an entry keeps a database sound. -/
theorem Sound.amend (sound : db.Sound) (t : Token) (marks : ∀ c, (f c).unmarked = c.unmarked) :
    (db.amend t f).Sound := by
  have later := db.persists_amend t marks
  refine ⟨⟨fun u e found v member => ?_, fun u e found m member => ?_,
    fun u e found v member => ?_⟩, fun n u taken => ?_, fun u e found kind => ?_⟩
  · obtain ⟨e₀, old, _, same⟩ := entry_of_amend marks found
    refine sound.references u e₀ old v ?_
    have content : e.content.unmarked = e₀.content.unmarked := congrArg Entry.content same
    rwa [← Content.references_unmarked, ← content, Content.references_unmarked]
  · obtain ⟨e₀, old, members, _⟩ := entry_of_amend marks found
    exact later.has (sound.members u e₀ old m (members ▸ member))
  · obtain ⟨e₀, old, _, same⟩ := entry_of_amend marks found
    refine later.hasArgument (sound.arguments u e₀ old v ?_)
    rwa [← Entry.lasting_arguments.unmarked, ← same, Entry.lasting_arguments.unmarked]
  · rw [registered?_amend] at taken
    obtain ⟨e, old, kind, number⟩ := sound.registered n u taken
    obtain ⟨e', kept, amended⟩ := later.entries u e old
    exact ⟨e', kept, amended.keeps Entry.lasting_kind ▸ kind,
      (amended.keeps Entry.lasting_number).trans number⟩
  · obtain ⟨e₀, old, _, same⟩ := entry_of_amend marks found
    have number : e.number = e₀.number := by
      rw [← Entry.lasting_number.unmarked, same, Entry.lasting_number.unmarked]
    rw [← Entry.lasting_kind.unmarked, same, Entry.lasting_kind.unmarked] at kind
    obtain ⟨v, taken⟩ := sound.numbered u e₀ old kind
    exact ⟨v, by rw [registered?_amend, number, taken]⟩

/-! ### Calls of all kinds -/

/-- A call that changes a database, given tokens of entries that are there, and what it leaves. -/
inductive Edits (db : Database) : Database → Prop
  /-- A builder adds entries. -/
  | build {made : Token × Database} (call : db.Builds made) : Edits db made.2
  /-- The instances of a type are made to start out floating. -/
  | float {t : Token} (known : db.Has t) : Edits db (db.setFloating t)
  /-- The argument that gives the length of an array type is recorded. -/
  | measure {t : Token} (index : Nat) (known : db.Has t) : Edits db (db.setLengthIndex t index)
  /-- What is known of namespaces changes. -/
  | rename (catalog : Catalog) (path : List String) :
      Edits db { db with catalog := catalog, searchPath := path }

/-- A database that any number of calls leave. -/
def Edited : Database → Database → Prop := Relation.ReflTransGen Edits

/-- A database that calls make, starting from nothing. -/
def Assembled (db : Database) : Prop := Edited {} db

theorem Edits.sound (call : db.Edits later) (sound : db.Sound) : later.Sound := by
  cases call with
  | build call => exact (call.grown sound).sound
  | @float t known => exact sound.amend t Content.unmarked_floating
  | @measure t index known => exact sound.amend t (Content.unmarked_measured · index)
  | rename catalog path => exact sound.congr rfl rfl

theorem Edits.persists (call : db.Edits later) (sound : db.Sound) : db.Persists later := by
  cases call with
  | build call => exact (call.grown sound).later.persists
  | @float t known => exact db.persists_amend t Content.unmarked_floating
  | @measure t index known => exact db.persists_amend t (Content.unmarked_measured · index)
  | rename catalog path =>
    have same : db.Extends { db with catalog := catalog, searchPath := path } := .of_eq rfl rfl
    exact same.persists

theorem Edited.refl (db : Database) : db.Edited db := Relation.ReflTransGen.refl

theorem Edited.trans (first : db.Edited db₁) (second : db₁.Edited db₂) : db.Edited db₂ :=
  Relation.ReflTransGen.trans first second

theorem Edits.edited (call : db.Edits later) : db.Edited later := Relation.ReflTransGen.single call

theorem Edited.sound (edited : db.Edited later) (sound : db.Sound) : later.Sound := by
  induction edited with
  | refl => exact sound
  | tail _ call ih => exact call.sound ih

theorem Edited.persists (edited : db.Edited later) (sound : db.Sound) : db.Persists later := by
  induction edited with
  | refl => exact .refl db
  | tail before call ih => exact ih.trans (call.persists (Edited.sound before sound))

theorem Edited.has (edited : db.Edited later) (sound : db.Sound) (known : db.Has t) : later.Has t :=
  (edited.persists sound).has known

theorem Assembled.sound (assembled : db.Assembled) : db.Sound := Edited.sound assembled sound_empty

/-- A type number stands for an entry. -/
theorem Sound.has_registered (sound : db.Sound) {n : TypeNumber}
    (taken : db.registered? n = some t) : db.Has t := by
  obtain ⟨e, found, _⟩ := sound.registered n t taken
  exact has_of_entry found

/-- Databases that are built are assembled. -/
theorem Built.assembled (built : db.Built) : db.Assembled := by
  induction built with
  | empty => exact .refl {}
  | next _ call ih => exact ih.trans (Edits.build call).edited
  | named _ catalog path ih => exact ih.trans (Edits.rename catalog path).edited

/-- What an entry links to is there before it. -/
theorem Linked.links (linked : db.Linked) (found : db.entry? t = some e) (member : u ∈ e.links) :
    0 < u ∧ u < t :=
  linked.references t e found u (Entry.mem_links.mp member)

/-- What an entry links to is there. -/
theorem Linked.has_link (linked : db.Linked) (found : db.entry? t = some e) (member : u ∈ e.links) :
    db.Has u := by
  obtain ⟨positive, below⟩ := linked.links found member
  exact ⟨positive, Nat.le_trans (Nat.le_of_lt below) (has_of_entry found).2⟩

/-- The members of a group are there. -/
theorem Linked.has_member (linked : db.Linked) {group : MemberGroup}
    (found : db.entry? t = some e) : ∀ m ∈ e.membersOf group, db.Has m := by
  intro m member
  obtain ⟨row, listed, rfl⟩ := List.mem_map.mp member
  exact linked.members t e found row (List.mem_filter.mp listed).1

end Database
end ObjectBridge
