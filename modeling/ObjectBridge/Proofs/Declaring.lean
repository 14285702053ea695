import ObjectBridge.Proofs.Building

/-!
# The order of declarations

Whatever a builder does comes down to three elementary changes: a new entry without members, a new
entry that becomes a member of another one, and changes of what is no entry.  So members are
declared in the order in which they were made, none of them twice, and everything that is found by
its name has one.
-/

namespace ObjectBridge
namespace Database

variable {db db₁ later : Database} {t : Nat} {e : Entry}

/-- An elementary change of a database. -/
inductive Changes (db : Database) : Database → Prop
  /-- A new entry.  If it is found by its name, it has one. -/
  | push {e : Entry} (bare : e.members = []) (named : e.topLevel = true → e.name.isSome = true) :
      Changes db (db.push e).2
  /-- A new entry with a name, which becomes a member. -/
  | member {e : Entry} (owner : Token) (group : MemberGroup) (bare : e.members = [])
      (named : e.name.isSome = true) :
      Changes db ((db.push e).2.addMember owner group (db.push e).1)
  /-- What is no entry changes. -/
  | aside {later : Database} (same : later.entries = db.entries) : Changes db later

/-- A later state of a database, after any number of elementary changes. -/
def Altered : Database → Database → Prop := Relation.ReflTransGen Changes

theorem Changes.altered (changes : db.Changes later) : db.Altered later := .single changes

theorem Altered.trans (first : db.Altered db₁) (second : db₁.Altered later) : db.Altered later :=
  Relation.ReflTransGen.trans first second

/-! ### The changes that builders make -/

theorem altered_register (db : Database) (number : TypeNumber) (t : Token) :
    db.Altered (db.register number t) := by
  have same : (db.register number t).entries = db.entries := by
    unfold register
    split <;> rfl
  exact (Changes.aside same).altered

theorem altered_addTopLevel (db : Database) (home name : String) (content : Content) :
    db.Altered (db.addTopLevel home name content).2 := by
  let base : Database := { db with catalog := db.catalog.assume home }
  have same : db.Changes base := .aside rfl
  exact same.altered.trans (Changes.push rfl fun _ => rfl).altered

theorem altered_addNumbered (db : Database) (home name : String) (number : TypeNumber)
    (content : Content) : db.Altered (db.addNumbered home name number content).2 :=
  (db.altered_addTopLevel home name content).trans (altered_register _ number _)

theorem altered_addRegistered (db : Database) (home name : String)
    (content : TypeNumber → Content) : db.Altered (db.addRegistered home name content).2 := by
  let base : Database := { db with nextNumber := db.nextNumber + 1 }
  have same : db.Changes base := .aside rfl
  exact same.altered.trans (base.altered_addNumbered home name _ _)

theorem altered_addOwned (db : Database) (owner : Token) (group : MemberGroup) (name : String)
    (content : Content) : db.Altered (db.addOwned owner group name content).2 :=
  (Changes.member owner group rfl rfl).altered

theorem altered_addValues (db : Database) (owner : Token) (home : String)
    (values : List (String × Int64)) : db.Altered (db.addValues owner home values) := by
  induction values generalizing db with
  | nil => exact .refl
  | cons value rest ih => exact (Changes.member owner .value rfl rfl).altered.trans (ih _)

theorem altered_addArguments (db : Database) (home : String) (parameters : List Parameter) :
    db.Altered (db.addArguments home parameters).2 := by
  induction parameters generalizing db with
  | nil => exact .refl
  | cons p rest ih => exact (Changes.push rfl fun _ => rfl).altered.trans (ih _)

/-- A call of a builder only makes elementary changes. -/
theorem Builds.altered {made : Token × Database} (call : db.Builds made) : db.Altered made.2 := by
  cases call with
  | object home name floating _ => exact db.altered_addRegistered home name _
  | interface home name => exact db.altered_addRegistered home name _
  | struct home name size => exact db.altered_addRegistered home name _
  | boxed home name size number => exact db.altered_addNumbered home name number _
  | valueBox home name => exact db.altered_addNumbered home name valueBoxNumber _
  | enum home name storage values =>
    have added := db.altered_addRegistered home name fun number => .enum number storage
    exact added.trans (altered_addValues _ _ home values)
  | flags home name storage values =>
    have added := db.altered_addRegistered home name fun number => .flags number storage
    exact added.trans (altered_addValues _ _ home values)
  | callback home name => exact db.altered_addTopLevel home name _
  | type _ => exact (Changes.push rfl fun top => absurd top Bool.false_ne_true).altered
  | property name flags _ _ => exact db.altered_addOwned _ _ name _
  | field name offset _ _ => exact db.altered_addOwned _ _ name _
  | vfunc name _ => exact db.altered_addOwned _ _ name _
  | signal name _ _ _ => exact (db.altered_addArguments _ _).trans (altered_addOwned _ _ _ name _)
  | constant home name slot _ => exact db.altered_addTopLevel home name _
  | function home name flags _ _ =>
    let base : Database := { db with catalog := db.catalog.assume home }
    have same : db.Changes base := .aside rfl
    exact same.altered.trans
      ((base.altered_addArguments home _).trans (altered_addTopLevel _ home name _))
  | method name flags _ _ _ =>
    exact (db.altered_addArguments _ _).trans (altered_addOwned _ _ _ name _)

/-! ### What elementary changes keep -/

/-- How the entries of a database are declared. -/
structure Ordered (db : Database) : Prop where
  /-- What is found by its name has one. -/
  named : ∀ t e, db.entry? t = some e → e.topLevel = true → e.name.isSome = true
  /-- Members are declared in the order in which they were made. -/
  ordered : ∀ t e, db.entry? t = some e → e.members.Pairwise (·.2 < ·.2)
  /-- A member is an entry with a name. -/
  members : ∀ t e, db.entry? t = some e → ∀ m ∈ e.members,
    ∃ f, db.entry? m.2 = some f ∧ f.name.isSome = true

theorem Ordered.congr (ordered : db.Ordered) (same : later.entries = db.entries) :
    later.Ordered := by
  obtain ⟨entries, _, _, _, _⟩ := db
  obtain ⟨entries', _, _, _, _⟩ := later
  subst same
  exact ⟨ordered.named, ordered.ordered, ordered.members⟩

theorem Ordered.push (ordered : db.Ordered) (bare : e.members = [])
    (named : e.topLevel = true → e.name.isSome = true) : (db.push e).2.Ordered where
  named t f found := by
    rw [entry?_push] at found
    split at found
    · cases found
      exact named
    · exact ordered.named t f found
  ordered t f found := by
    rw [entry?_push] at found
    split at found
    · cases found
      simp [bare]
    · exact ordered.ordered t f found
  members t f found m member := by
    rw [entry?_push] at found
    split at found
    · cases found
      simp [bare] at member
    · obtain ⟨g, there, named⟩ := ordered.members t f found m member
      have known : m.2 ≤ db.entries.size := (has_of_entry there).2
      have old : m.2 ≠ db.entries.size + 1 := Nat.ne_of_lt (Nat.lt_succ_of_le known)
      exact ⟨g, by rw [entry?_push, if_neg old, there], named⟩

/-- A member can be added that was made after all members that there are. -/
theorem Ordered.addMember (ordered : db.Ordered) {m : Token} (owner : Token) (group : MemberGroup)
    (known : ∃ f, db.entry? m = some f ∧ f.name.isSome = true)
    (last : ∀ t e, db.entry? t = some e → ∀ n ∈ e.members, n.2 < m) :
    (db.addMember owner group m).Ordered := by
  have stays (n : Token) (there : ∃ f, db.entry? n = some f ∧ f.name.isSome = true) :
      ∃ f, Database.entry? (db.addMember owner group m) n = some f ∧ f.name.isSome = true := by
    obtain ⟨f, found, named⟩ := there
    obtain ⟨_, kept⟩ := (db.extends_addMember owner group m).entries n f found
    exact ⟨_, kept, named⟩
  -- An entry is the old one, or the owner, which has one more member at the end.
  have old (t : Token) (e : Entry)
      (found : Database.entry? (db.addMember owner group m) t = some e) :
      ∃ f, db.entry? t = some f ∧ e.name = f.name ∧ e.topLevel = f.topLevel
        ∧ (e.members = f.members ∨ e.members = f.members ++ [(group, m)]) := by
    rw [entry?_addMember] at found
    split at found
    · obtain ⟨f, before, rfl⟩ := Option.map_eq_some_iff.mp found
      exact ⟨f, before, rfl, rfl, .inr rfl⟩
    · exact ⟨e, found, rfl, rfl, .inl rfl⟩
  refine ⟨fun t e found top => ?_, fun t e found => ?_, fun t e found n member => ?_⟩
  · obtain ⟨f, before, name, same, _⟩ := old t e found
    exact name ▸ ordered.named t f before (same ▸ top)
  · obtain ⟨f, before, _, _, same | more⟩ := old t e found
    · exact same ▸ ordered.ordered t f before
    · rw [more, List.pairwise_append]
      refine ⟨ordered.ordered t f before, List.pairwise_singleton _ _, fun n member n' new => ?_⟩
      rw [List.mem_singleton.mp new]
      exact last t f before n member
  · obtain ⟨f, before, _, _, same | more⟩ := old t e found
    · exact stays n.2 (ordered.members t f before n (same ▸ member))
    · rw [more, List.mem_append, List.mem_singleton] at member
      rcases member with there | rfl
      · exact stays n.2 (ordered.members t f before n there)
      · exact stays m known

theorem Ordered.changes (ordered : db.Ordered) (changes : db.Changes later) : later.Ordered := by
  cases changes with
  | push bare named => exact ordered.push bare named
  | @member e owner group bare named =>
    have pushed : (db.push e).2.Ordered := ordered.push bare fun _ => named
    have new : Database.entry? (db.push e).2 (db.push e).1 = some e :=
      (db.entry?_push e _).trans (if_pos rfl)
    refine pushed.addMember owner group ⟨e, new, named⟩ fun t f found n member => ?_
    rw [entry?_push] at found
    split at found
    · cases found
      simp [bare] at member
    · obtain ⟨_, there, _⟩ := ordered.members t f found n member
      exact Nat.lt_succ_of_le (has_of_entry there).2
  | aside same => exact ordered.congr same

theorem Ordered.altered (ordered : db.Ordered) (altered : db.Altered later) : later.Ordered := by
  induction altered with
  | refl => exact ordered
  | tail _ changes ih => exact ih.changes changes

/-- In a database that is built, members are declared in the order in which they were made. -/
theorem Built.ordered (built : db.Built) : db.Ordered := by
  induction built with
  | empty =>
    exact ⟨fun t e found => by simp [entry?_empty] at found,
      fun t e found => by simp [entry?_empty] at found,
      fun t e found => by simp [entry?_empty] at found⟩
  | next _ call ih => exact ih.altered call.altered
  | named _ _ _ ih => exact ih.congr rfl

/-! ### The members of a group -/

/-- The members of a group stand in the order in which they were made. -/
theorem Ordered.membersOf (ordered : db.Ordered) (found : db.entry? t = some e)
    (group : MemberGroup) : (e.membersOf group).Pairwise (· < ·) :=
  ((ordered.ordered t e found).filter _).map _ fun _ _ before => before

end Database
end ObjectBridge
