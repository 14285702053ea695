import ObjectBridge.Proofs.Resolving

/-!
# The order of the registered types

Whether a runtime type is another one is decided by type numbers along a chain of entries.  Where no
two registered types share a number, this is the order in which types descend from each other: the
chain of a type holds exactly the entries that it descends from, and parents are earlier entries, so
no two types descend from each other.  Later calls of builders leave every chain as it is.
-/

namespace ObjectBridge
namespace Database

variable {db later : Database} {t u : Nat} {e : Entry} {r s a : TypeNumber}

/-- Whether every registered type has a valid type number. -/
def ValidNumbers (db : Database) : Prop :=
  ∀ t e, db.entry? t = some e → e.kind.isRegistered = true → e.number ≠ 0

theorem validNumbers_iff : db.ValidNumbers ↔ ∀ t ∈ db.tokens, db.numberOf? t ≠ some 0 := by
  have number {t : Token} : db.numberOf? t = some 0 ↔
      ∃ e, db.entry? t = some e ∧ e.kind.isRegistered = true ∧ e.number = 0 := by
    simp [numberOf?, Option.bind_eq_some_iff]
  constructor
  · intro valid t _ zero
    obtain ⟨e, found, kind, equal⟩ := number.mp zero
    exact valid t e found kind equal
  · intro valid t e found kind equal
    exact valid t (mem_tokens.mpr (has_of_entry found)) (number.mpr ⟨e, found, kind, equal⟩)

instance : Decidable db.ValidNumbers := decidable_of_iff' _ validNumbers_iff

/-- Only registered types have type numbers. -/
theorem registered_of_number (numbered : e.number ≠ 0) : e.kind.isRegistered = true := by
  obtain ⟨name, home, top, members, content⟩ := e
  cases content with
  | object | interface | struct | boxed | enum | flags => rfl
  | _ => exact absurd rfl numbered

/-! ### Chains of parents -/

/-- The search along the ancestors meets exactly what an entry descends from, if it may go far
enough. -/
theorem Linked.mem_ancestry (linked : db.Linked) {limit : Nat} (known : db.Has t)
    (far : t ≤ limit) : u ∈ db.ancestry limit (some t) ↔ db.Descends t u := by
  induction limit generalizing t with
  | zero => exact absurd known.1 (Nat.not_lt.mpr far)
  | succ limit ih =>
    obtain ⟨e, found⟩ := known.entry
    simp only [ancestry, found, Option.bind_some, List.mem_cons]
    cases up : e.parent? with
    | none =>
      rw [ancestry_none]
      constructor
      · rintro (rfl | impossible)
        · exact .refl
        · cases impossible
      · intro descends
        rcases descends.cases_head with rfl | ⟨p, ⟨f, found', parent⟩, _⟩
        · exact .inl rfl
        · rw [found] at found'
          cases found'
          cases up.symm.trans parent
    | some p =>
      have parent : db.Parent t p := ⟨e, found, up⟩
      obtain ⟨there, below⟩ := linked.parent parent
      rw [ih there (by omega)]
      constructor
      · rintro (rfl | above)
        · exact .refl
        · exact .head parent above
      · intro descends
        rcases descends.cases_head with rfl | ⟨q, parent', above⟩
        · exact .inl rfl
        · exact .inr (parent.unique parent' ▸ above)

/-- What an entry descends from is no later entry. -/
theorem Linked.descends_le (linked : db.Linked) (descends : db.Descends t u) : u ≤ t := by
  induction descends with
  | refl => exact Nat.le_refl _
  | tail _ parent below => exact Nat.le_trans (Nat.le_of_lt (linked.parent parent).2) below

theorem Linked.descends_antisymm (linked : db.Linked) (up : db.Descends t u)
    (down : db.Descends u t) : t = u :=
  Nat.le_antisymm (linked.descends_le down) (linked.descends_le up)

theorem Linked.descends_has (linked : db.Linked) (known : db.Has t) (descends : db.Descends t u) :
    db.Has u := by
  induction descends with
  | refl => exact known
  | tail _ parent _ => exact (linked.parent parent).1

/-- A registered type is another one if their numbers are equal, or if it descends from an entry of
the other number. -/
theorem Sound.isA_iff (sound : db.Sound) (taken : db.registered? r = some t) :
    db.isA r a = true ↔ (r = a ∧ r ≠ 0)
      ∨ (r ≠ a ∧ ∃ u e, db.Descends t u ∧ db.entry? u = some e ∧ e.number = a) := by
  obtain ⟨f, found, _⟩ := sound.registered r t taken
  have known := has_of_entry found
  unfold isA
  by_cases same : r = a
  · simp [same]
  · simp only [same, if_false, false_and, ne_eq, not_false_eq_true, true_and, false_or, chain,
      taken, List.any_eq_true, sound.mem_ancestry known known.2]
    constructor
    · rintro ⟨u, descends, numbered⟩
      obtain ⟨e, entry⟩ := (sound.descends_has known descends).entry
      rw [entry] at numbered
      exact ⟨u, e, descends, entry, of_decide_eq_true numbered⟩
    · rintro ⟨u, e, descends, entry, numbered⟩
      exact ⟨u, descends, by rw [entry]; exact decide_eq_true numbered⟩

/-- Where no two registered types share a number, a runtime type is another one exactly if its entry
descends from the entry of the other one. -/
theorem Sound.isA_iff_descends (sound : db.Sound) (distinct : db.Distinct)
    (valid : db.ValidNumbers) (taken : db.registered? r = some t)
    (taken' : db.registered? a = some u) : db.isA r a = true ↔ db.Descends t u := by
  obtain ⟨e, found, kind, rfl⟩ := sound.registered r t taken
  obtain ⟨f, found', kind', rfl⟩ := sound.registered a u taken'
  rw [sound.isA_iff taken]
  constructor
  · rintro (⟨same, _⟩ | ⟨_, v, g, descends, entry, numbered⟩)
    · rw [distinct t u e f found found' kind kind' same]
      exact .refl
    · have registered : g.kind.isRegistered = true :=
        registered_of_number (numbered ▸ valid u f found' kind')
      rwa [← distinct v u g f entry found' registered kind' numbered]
  · intro descends
    by_cases same : e.number = f.number
    · exact .inl ⟨same, valid t e found kind⟩
    · exact .inr ⟨same, u, f, descends, found', rfl⟩

/-! ### Later calls of builders -/

/-- A database that is reached by further calls of builders. -/
inductive Grows (db : Database) : Database → Prop
  /-- No call. -/
  | refl : Grows db db
  /-- One more call of a builder. -/
  | next {later : Database} {made : Token × Database} (grows : Grows db later)
      (call : later.Builds made) : Grows db made.2
  /-- What is known of namespaces changes. -/
  | named {later : Database} (grows : Grows db later) (catalog : Catalog) (path : List String) :
      Grows db { later with catalog := catalog, searchPath := path }

theorem Grows.sound_extends (grows : db.Grows later) (sound : db.Sound) :
    later.Sound ∧ db.Extends later := by
  induction grows with
  | refl => exact ⟨sound, .refl db⟩
  | next _ call ih =>
    have grown := call.grown ih.1
    exact ⟨grown.sound, ih.2.trans grown.later⟩
  | named _ catalog path ih => exact ⟨ih.1.congr rfl rfl, ih.2.trans (.of_eq rfl rfl)⟩

/-- The parent of an entry stays what it is. -/
theorem Extends.parent_iff (extends' : db.Extends later) (known : db.Has t) :
    later.Parent t u ↔ db.Parent t u := by
  obtain ⟨e, found⟩ := known.entry
  obtain ⟨members, kept⟩ := extends'.entries t e found
  simp only [Parent, found, kept, Option.some.injEq, exists_eq_left']
  rfl

/-- An entry descends from the same entries as before. -/
theorem Extends.descends_iff (extends' : db.Extends later) (linked : db.Linked)
    (known : db.Has t) : later.Descends t u ↔ db.Descends t u := by
  constructor
  · intro descends
    -- The walk stays among the entries that were there, since their parents were.
    induction descends with
    | refl => exact .refl
    | tail _ parent ih =>
      exact ih.tail ((extends'.parent_iff (linked.descends_has known ih)).mp parent)
  · intro descends
    induction descends with
    | refl => exact .refl
    | tail before parent ih =>
      exact ih.tail ((extends'.parent_iff (linked.descends_has known before)).mpr parent)

/-- What a registered type is does not change when the database grows. -/
theorem Extends.isA_eq (extends' : db.Extends later) (sound : db.Sound) (sound' : later.Sound)
    (taken : db.registered? r = some t) : later.isA r a = db.isA r a := by
  obtain ⟨f, found, _⟩ := sound.registered r t taken
  have known := has_of_entry found
  rw [Bool.eq_iff_iff, sound.isA_iff taken, sound'.isA_iff (extends'.registered r t taken)]
  refine or_congr_right (and_congr_right fun _ => exists_congr fun u => ?_)
  simp only [extends'.descends_iff sound.toLinked known]
  constructor
  · rintro ⟨e, descends, entry, numbered⟩
    obtain ⟨g, old⟩ := (sound.descends_has known descends).entry
    obtain ⟨members, kept⟩ := extends'.entries u g old
    obtain rfl := Option.some.inj (kept.symm.trans entry)
    exact ⟨g, descends, old, numbered⟩
  · rintro ⟨e, descends, entry, numbered⟩
    obtain ⟨members, kept⟩ := extends'.entries u e entry
    exact ⟨_, descends, kept, numbered⟩

/-- Where the registered types have valid type numbers of their own, a runtime type is another one
exactly if its entry is the other's or descends from it.  So this is a partial order on the
registered types, and no later call of a builder changes it. -/
theorem isA_subtyping (built : db.Built) (distinct : db.Distinct) (valid : db.ValidNumbers) :
    (∀ r a t u, db.registered? r = some t → db.registered? a = some u →
      (db.isA r a = true ↔ db.Descends t u))
    ∧ (∀ r t, db.registered? r = some t → db.isA r r = true)
    ∧ (∀ r s a t u v, db.registered? r = some t → db.registered? s = some u →
      db.registered? a = some v → db.isA r s = true → db.isA s a = true → db.isA r a = true)
    ∧ (∀ r a t u, db.registered? r = some t → db.registered? a = some u →
      db.isA r a = true → db.isA a r = true → r = a)
    ∧ ∀ later, db.Grows later → ∀ r t a, db.registered? r = some t →
      later.isA r a = db.isA r a := by
  have sound := built.sound
  have order {r a : TypeNumber} {t u : Token} (taken : db.registered? r = some t)
      (taken' : db.registered? a = some u) : db.isA r a = true ↔ db.Descends t u :=
    sound.isA_iff_descends distinct valid taken taken'
  refine ⟨fun r a t u => order, fun r t taken => (order taken taken).mpr .refl,
    fun r s a t u v first second third below above => ?_,
    fun r a t u taken taken' below above => ?_, fun later grows r t a taken => ?_⟩
  · exact (order first third).mpr
      (Relation.ReflTransGen.trans ((order first second).mp below) ((order second third).mp above))
  · have equal : t = u := sound.descends_antisymm ((order taken taken').mp below)
      ((order taken' taken).mp above)
    obtain ⟨e, found, _, rfl⟩ := sound.registered r t taken
    obtain ⟨f, found', _, rfl⟩ := sound.registered a u taken'
    rw [equal, found'] at found
    rw [Option.some.inj found]
  · obtain ⟨sound', extends'⟩ := grows.sound_extends sound
    exact extends'.isA_eq sound sound' taken

theorem isA_subtyping_sample :
    Member.sampleDatabase.isA 101 100 = true ∧ Member.sampleDatabase.isA 100 101 = false := by
  obtain ⟨order, _, _, antisymmetric, _⟩ := isA_subtyping Member.sampleDatabase_built
    (by decide +kernel) (by decide +kernel)
  have child : Member.sampleDatabase.registered? 101 = some 2 := by decide +kernel
  have base : Member.sampleDatabase.registered? 100 = some 1 := by decide +kernel
  have below := (order 101 100 2 1 child base).mpr Member.sampleDatabase_descends
  refine ⟨below, Bool.eq_false_iff.mpr fun above => ?_⟩
  exact absurd (antisymmetric 101 100 2 1 child base below above) (by decide)

end Database
end ObjectBridge
