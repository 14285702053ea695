import ObjectBridge.Proofs.Building

/-!
# Ancestors and the members that they declare

The nearest type that declares a member of a name decides what the name means on a type and on all
its descendants.  The search along the chain of a registered type finds this member, because a chain
never comes back to an entry that it left.
-/

namespace ObjectBridge
namespace Database

variable {db : Database} {t u p : Nat} {e : Entry} {group : MemberGroup} {name : String}
  {m : Token} {found found' : Option Token}

/-- Whether an entry is the parent of another one. -/
def Parent (db : Database) (t p : Token) : Prop := ∃ e, db.entry? t = some e ∧ e.parent? = some p

/-- Whether an entry is another one or descends from it. -/
def Descends (db : Database) : Token → Token → Prop := Relation.ReflTransGen db.Parent

/-- What the nearest of an entry and its ancestors that declares a member of a group and a name
declares first. -/
inductive Nearest (db : Database) (group : MemberGroup) (name : String) :
    Token → Option Token → Prop
  /-- The entry declares it itself. -/
  | own {t m : Token} (declared : db.ownMember? group name t = some m) :
      Nearest db group name t (some m)
  /-- An ancestor declares it. -/
  | inherited {t p : Token} {found : Option Token} (absent : db.ownMember? group name t = none)
      (parent : db.Parent t p) (above : Nearest db group name p found) : Nearest db group name t found
  /-- No ancestor is left. -/
  | nowhere {t : Token} (absent : db.ownMember? group name t = none)
      (root : ∀ p, ¬db.Parent t p) : Nearest db group name t none

/-- No two registered types share a type number. -/
def Distinct (db : Database) : Prop :=
  ∀ t u e f, db.entry? t = some e → db.entry? u = some f → e.kind.isRegistered = true →
    f.kind.isRegistered = true → e.number = f.number → t = u

/-- The type number of a registered type. -/
def numberOf? (db : Database) (t : Token) : Option TypeNumber :=
  (db.entry? t).bind fun e => if e.kind.isRegistered then some e.number else none

theorem distinct_iff : db.Distinct ↔
    ∀ t ∈ db.tokens, ∀ u ∈ db.tokens, (db.numberOf? t).isSome → db.numberOf? t = db.numberOf? u →
      t = u := by
  have listed {t : Nat} {e : Entry} (found : db.entry? t = some e) : t ∈ db.tokens :=
    mem_tokens.mpr (has_of_entry found)
  have number {t : Token} {n : TypeNumber} : db.numberOf? t = some n ↔
      ∃ e, db.entry? t = some e ∧ e.kind.isRegistered = true ∧ e.number = n := by
    simp [numberOf?, Option.bind_eq_some_iff]
  constructor
  · intro distinct t _ u _ registered same
    obtain ⟨n, taken⟩ := Option.isSome_iff_exists.mp registered
    obtain ⟨e, found, kind, rfl⟩ := number.mp taken
    obtain ⟨f, found', kind', equal⟩ := number.mp (same ▸ taken)
    exact distinct t u e f found found' kind kind' equal.symm
  · intro distinct t u e f found found' kind kind' same
    have taken : db.numberOf? t = some e.number := number.mpr ⟨e, found, kind, rfl⟩
    have taken' : db.numberOf? u = some e.number := number.mpr ⟨f, found', kind', same.symm⟩
    exact distinct t (listed found) u (listed found') (by rw [taken]; rfl) (taken.trans taken'.symm)

instance : Decidable db.Distinct := decidable_of_iff' _ distinct_iff

theorem Parent.unique {q : Token} (first : db.Parent t p) (second : db.Parent t q) : p = q := by
  obtain ⟨e, found, parent⟩ := first
  obtain ⟨f, found', parent'⟩ := second
  rw [found] at found'
  cases found'
  exact Option.some.inj (parent.symm.trans parent')

theorem mem_references_of_parent (parent : e.parent? = some p) : p ∈ e.content.references := by
  unfold Entry.parent? at parent
  split at parent
  · next content =>
    rw [content]
    exact Option.mem_toList.mpr parent
  · cases parent

/-- A parent is an earlier entry. -/
theorem Linked.parent (linked : db.Linked) (parent : db.Parent t p) : db.Has p ∧ p < t := by
  obtain ⟨e, found, parent⟩ := parent
  have below := linked.references t e found p (mem_references_of_parent parent)
  exact ⟨⟨below.1, Nat.le_trans (Nat.le_of_lt below.2) (has_of_entry found).2⟩, below.2⟩

/-- Only object types have parents. -/
theorem Parent.object (parent : db.Parent t p) :
    ∃ e, db.entry? t = some e ∧ e.kind = .object := by
  obtain ⟨⟨name, home, top, members, content⟩, found, parent⟩ := parent
  refine ⟨_, found, ?_⟩
  cases content with
  | object => rfl
  | _ => cases parent

/-- What descends from an object type is an object type. -/
theorem Descends.object (descends : db.Descends t u) (found : db.entry? u = some e)
    (object : e.kind = .object) : ∃ f, db.entry? t = some f ∧ f.kind = .object := by
  rcases descends.cases_head with rfl | ⟨_, parent, _⟩
  · exact ⟨e, found, object⟩
  · exact parent.object

theorem Nearest.unique (first : db.Nearest group name t found)
    (second : db.Nearest group name t found') : found = found' := by
  induction first with
  | own declared =>
    cases second with
    | own declared' => exact declared.symm.trans declared'
    | inherited absent _ _ => cases declared.symm.trans absent
    | nowhere absent _ => cases declared.symm.trans absent
  | inherited absent parent _ ih =>
    cases second with
    | own declared => cases declared.symm.trans absent
    | inherited _ parent' above => exact ih (parent.unique parent' ▸ above)
    | nowhere _ root => exact absurd parent (root _)
  | nowhere absent root =>
    cases second with
    | own declared => cases declared.symm.trans absent
    | inherited _ parent _ => exact absurd parent (root _)
    | nowhere _ _ => rfl

/-- A member of an ancestor is inherited, unless a nearer type declares one of the same name. -/
theorem Nearest.descend (nearest : db.Nearest group name u (some m)) (descends : db.Descends t u) :
    ∃ m, db.Nearest group name t (some m) := by
  induction descends using Relation.ReflTransGen.head_induction_on with
  | refl => exact ⟨m, nearest⟩
  | @head t p parent _ ih =>
    obtain ⟨above, nearer⟩ := ih
    cases declared : db.ownMember? group name t with
    | some own => exact ⟨own, .own declared⟩
    | none => exact ⟨above, .inherited declared parent nearer⟩

/-- What is found nearest is declared by an ancestor. -/
theorem Nearest.declared (nearest : db.Nearest group name t (some m)) :
    ∃ u, db.Descends t u ∧ db.ownMember? group name u = some m := by
  generalize same : some m = found at nearest
  induction nearest with
  | own declared => exact ⟨_, .refl, same ▸ declared⟩
  | inherited _ parent _ ih =>
    obtain ⟨u, descends, declared⟩ := ih same
    exact ⟨u, .head parent descends, declared⟩
  | nowhere => cases same

/-- A member that an entry declares is an entry of the name that was asked for. -/
theorem Linked.named (linked : db.Linked) (declared : db.ownMember? group name t = some m) :
    ∃ e, db.entry? m = some e ∧ e.name = some name := by
  unfold ownMember? at declared
  split at declared
  · next e found =>
    obtain ⟨f, known⟩ : ∃ f, db.entry? m = some f := by
      have member := List.mem_of_find?_eq_some declared
      obtain ⟨row, there, rfl⟩ := List.mem_map.mp member
      exact (linked.members t e found row (List.mem_filter.mp there).1).entry
    have named := List.find?_some declared
    simp only [hasName, known, decide_eq_true_eq] at named
    exact ⟨f, known, named⟩
  · cases declared

/-- The members of an entry that is there are found by their names. -/
theorem ownMember?_eq (known : db.entry? t = some e) :
    db.ownMember? group name t = (e.membersOf group).find? (db.hasName name) := by
  rw [ownMember?, known]

theorem ancestry_none (db : Database) (limit : Nat) : db.ancestry limit none = [] := by
  cases limit <;> rfl

/-- The search along the ancestors finds the nearest member, if it may go far enough. -/
theorem Linked.nearest_ancestry (linked : db.Linked) {limit : Nat} (known : db.Has t)
    (far : t ≤ limit) :
    db.Nearest group name t
      ((db.ancestry limit (some t)).findSome? (db.ownMember? group name)) := by
  induction limit generalizing t with
  | zero => exact absurd known.1 (Nat.not_lt.mpr far)
  | succ limit ih =>
    obtain ⟨e, found⟩ := known.entry
    simp only [ancestry, found, Option.bind_some, List.findSome?_cons]
    cases declared : db.ownMember? group name t with
    | some m => exact .own declared
    | none =>
      cases up : e.parent? with
      | none =>
        rw [ancestry_none]
        refine .nowhere declared fun p ⟨f, found', parent⟩ => ?_
        rw [found] at found'
        cases found'
        cases up.symm.trans parent
      | some p =>
        have parent : db.Parent t p := ⟨e, found, up⟩
        obtain ⟨there, below⟩ := linked.parent parent
        exact .inherited declared parent (ih there (by omega))

/-- Where no two registered types share a type number, it stands for the type that has it. -/
theorem Sound.registered_number (sound : db.Sound) (distinct : db.Distinct)
    (found : db.entry? t = some e) (kind : e.kind.isRegistered = true) :
    db.registered? e.number = some t := by
  obtain ⟨u, taken⟩ := sound.numbered t e found kind
  obtain ⟨f, known, kind', number⟩ := sound.registered _ u taken
  rw [taken, distinct u t f e known found kind' kind number]

/-- The search along the chain of a type number finds the nearest member of its type. -/
theorem Sound.nearest_chainMember (sound : db.Sound) (distinct : db.Distinct)
    (found : db.entry? t = some e) (kind : e.kind.isRegistered = true) :
    db.Nearest group name t (db.chainMember? e.number group name) := by
  rw [chainMember?, chain, sound.registered_number distinct found kind]
  exact sound.nearest_ancestry (has_of_entry found) (has_of_entry found).2

end Database
end ObjectBridge
