import ObjectBridge.Proofs.Amending
import ObjectBridge.Proofs.Holding

/-!
# Trails

A walk from entry to entry follows a trail: from a type to its parent, or from a reference to what it
refers to.  Each step leads to an earlier entry, so a trail from an entry is no longer than its token
and comes to no entry twice.  The walks of the bridge take their steps under a bound; they do what
the same walks do along the whole trail without any bound.
-/

namespace ObjectBridge

/-- The tokens from one on, as far as steps lead. -/
inductive Trail (next : Token → Option Token) : Token → List Token → Prop
  /-- No step leads on. -/
  | last {t : Token} (ends : next t = none) : Trail next t [t]
  /-- A step leads on. -/
  | onward {t u : Token} {path : List Token} (step : next t = some u) (rest : Trail next u path) :
      Trail next t (t :: path)

namespace Trail

variable {next next' : Token → Option Token} {t u : Nat} {path path' : List Token}

theorem unique (trail : Trail next t path) (other : Trail next t path') : path = path' := by
  induction trail generalizing path' with
  | last ends =>
    cases other with
    | last _ => rfl
    | onward step _ => cases ends.symm.trans step
  | onward step _ ih =>
    cases other with
    | last ends => cases ends.symm.trans step
    | onward step' rest' =>
      cases step.symm.trans step'
      rw [ih rest']

/-- A trail starts where it starts. -/
theorem head (trail : Trail next t path) : ∃ rest, path = t :: rest := by
  cases trail with
  | last _ => exact ⟨[], rfl⟩
  | onward _ _ => exact ⟨_, rfl⟩

/-- A trail in which all steps are the same is the same. -/
theorem congr (trail : Trail next t path) (same : ∀ u ∈ path, next' u = next u) :
    Trail next' t path := by
  induction trail with
  | last ends => exact .last ((same _ List.mem_cons_self).trans ends)
  | onward step _ ih =>
    exact .onward ((same _ List.mem_cons_self).trans step)
      (ih fun u member => same u (List.mem_cons_of_mem _ member))

section Below

variable (below : ∀ t u : Nat, next t = some u → 0 < u ∧ u < t)
include below

/-- A trail whose steps lead to smaller tokens ends. -/
theorem exists_of_below (t : Nat) : ∃ path, Trail next t path := by
  induction t using Nat.strong_induction_on with
  | h t ih =>
    cases step : next t with
    | none => exact ⟨[t], .last step⟩
    | some u =>
      obtain ⟨path, rest⟩ := ih u (below t u step).2
      exact ⟨t :: path, .onward step rest⟩

theorem le_of_mem (trail : Trail next t path) (member : u ∈ path) : u ≤ t := by
  induction trail with
  | last _ => exact Nat.le_of_eq (List.mem_singleton.mp member)
  | @onward t v path step _ ih =>
    rcases List.mem_cons.mp member with rfl | later
    · exact Nat.le_refl _
    · exact Nat.le_trans (ih later) (Nat.le_of_lt (below t v step).2)

/-- It comes to no token twice. -/
theorem nodup (trail : Trail next t path) : path.Nodup := by
  induction trail with
  | last _ => exact List.nodup_singleton _
  | @onward t v path step rest ih =>
    refine List.nodup_cons.mpr ⟨fun again => ?_, ih⟩
    exact absurd (rest.le_of_mem below again) (Nat.not_le.mpr (below t v step).2)

/-- It is no longer than the token where it starts. -/
theorem length_le (trail : Trail next t path) (positive : 0 < t) : path.length ≤ t := by
  induction trail with
  | last _ => exact positive
  | @onward t v path step _ ih =>
    obtain ⟨above, less⟩ := below t v step
    exact Nat.lt_of_le_of_lt (ih above) less

end Below
end Trail

namespace Database

variable {db later : Database} {t u : Nat} {path : List Token}

/-- The parent of an entry. -/
def parentOf? (db : Database) (t : Token) : Option Token := (db.entry? t).bind Entry.parent?

/-- The entry that an entry refers to as a type. -/
def targetOf? (db : Database) (t : Token) : Option Token := (db.entry? t).bind Entry.target?

theorem Linked.parentOf_below (linked : db.Linked) (t u : Nat) (step : db.parentOf? t = some u) :
    0 < u ∧ u < t := by
  obtain ⟨e, found, parent⟩ := Option.bind_eq_some_iff.mp step
  exact linked.references t e found u (mem_references_of_parent parent)

theorem Linked.targetOf_below (linked : db.Linked) (t u : Nat) (step : db.targetOf? t = some u) :
    0 < u ∧ u < t := by
  obtain ⟨e, found, target⟩ := Option.bind_eq_some_iff.mp step
  exact linked.references t e found u (Codec.mem_references_of_target target)

/-- A trail from an entry goes through entries. -/
theorem has_of_trail {next : Token → Option Token}
    (below : ∀ t u : Nat, next t = some u → 0 < u ∧ u < t) (trail : Trail next t path)
    (known : db.Has t) : ∀ u ∈ path, db.Has u := by
  induction trail with
  | last _ =>
    intro u member
    rwa [List.mem_singleton.mp member]
  | @onward t v path step _ ih =>
    obtain ⟨positive, less⟩ := below t v step
    have there : db.Has v := ⟨positive, Nat.le_trans (Nat.le_of_lt less) known.2⟩
    intro u member
    rcases List.mem_cons.mp member with rfl | later
    · exact known
    · exact ih there u later

/-- What is told of an entry whatever marks it gets is told of it later. -/
theorem Persists.lasts {f : Entry → Option Token} (persists : db.Persists later)
    (lasting : Entry.Lasting f) (known : db.Has t) :
    (later.entry? t).bind f = (db.entry? t).bind f := by
  obtain ⟨e, before⟩ := known.entry
  obtain ⟨e', kept, amended⟩ := persists.entries t e before
  rw [before, kept, Option.bind_some, Option.bind_some]
  exact amended.keeps lasting

/-- An entry has the parent later that it had. -/
theorem Persists.parent {e : Entry} (persists : db.Persists later) (known : db.Has t)
    (found : later.entry? t = some e) : e.parent? = db.parentOf? t := by
  have same := persists.lasts Entry.lasting_parent known
  rwa [found] at same

/-- The search along the ancestors meets the whole trail, however far it may go beyond. -/
theorem ancestry_of_trail (trail : Trail db.parentOf? t path) {limit : Nat}
    (far : path.length ≤ limit) : db.ancestry limit (some t) = path := by
  induction trail generalizing limit with
  | @last t ends =>
    obtain ⟨limit, rfl⟩ := Nat.exists_eq_add_of_le' far
    change db.parentOf? t = none at ends
    simp only [parentOf?] at ends
    simp only [List.length_singleton, ancestry, ends, ancestry_none]
  | @onward t u path step _ ih =>
    obtain ⟨limit, rfl⟩ := Nat.exists_eq_add_of_le' far
    simp only [parentOf?] at step
    rw [List.length_cons, ← Nat.add_assoc, ancestry, step,
      ih (Nat.le_add_left path.length limit)]

/-- Tracing the name of an entry reads it through the rest of the trail. -/
theorem namePath_of_trail (trail : Trail db.targetOf? t path) {limit : Nat}
    (far : path.length ≤ limit + 1) : World.namePath db limit t = path.tail := by
  induction trail generalizing limit with
  | @last t ends =>
    simp only [targetOf?] at ends
    cases limit with
    | zero => rfl
    | succ limit => simp only [World.namePath, ends, List.tail_cons]
  | @onward t u path step rest ih =>
    obtain ⟨behind, rfl⟩ := rest.head
    simp only [targetOf?] at step
    obtain ⟨limit, rfl⟩ : ∃ n, limit = n + 1 := by
      refine Nat.exists_eq_add_of_le' ?_
      simp only [List.length_cons] at far
      omega
    simp only [World.namePath, step, List.tail_cons] at ih ⊢
    rw [ih (Nat.le_of_succ_le_succ far)]

end Database

/-- The name of an entry that refers to no other one. -/
def Entry.ownName (e : Entry) : String :=
  if e.kind = .type then e.tag.name
  else if e.shownHome = "" then e.shownName
  else e.shownHome ++ "." ++ e.shownName

/-- Only types refer to entries. -/
theorem Entry.kind_of_target {e : Entry} {target : Token} (refers : e.target? = some target) :
    e.kind = .type := by
  obtain ⟨name, home, top, members, content⟩ := e
  cases content with
  | type form => rfl
  | _ => cases refers

open Program Descriptor

namespace Descriptor

/-- Ask the entries of a trail, one after the other, until one answers. -/
def visit {α : Type} (keep : α → List Claim) (probe : Token → Program (Option α)) :
    List Token → Program (Option α)
  | [] => return none
  | t :: rest => do
    match ← probe t with
    | some found => return some found
    | none =>
      let _ ← entry t
      match rest with
      | [] => return none
      | parent :: _ =>
        region (fun found => (found.map keep).getD []) do
          hold (.entry parent)
          trace [parent]
          visit keep probe rest

/-- The name of the last entry of a trail. -/
def nameAlong : List Token → Program String
  | [] => return ""
  | t :: rest => do
    let e ← entry t
    match rest with
    | [] => return e.ownName
    | target :: _ =>
      region keepNothing do
        hold (.entry target)
        nameAlong rest

end Descriptor

namespace Program

variable {α β : Type} {calls : Calls} {w w' : World} {t : Token}

/-- Two programs that begin alike end alike if what follows does. -/
theorem run_bind_congr {p : Program α} {f g : α → Program β}
    (same : ∀ x w', p.run calls w = (.done x, w') → (f x).run calls w' = (g x).run calls w') :
    (p >>= f).run calls w = (p >>= g).run calls w := by
  rw [run_bind, run_bind]
  split
  · next x w' ran => exact same x w' ran
  · rfl

/-- Two regions end alike if the programs inside do. -/
theorem run_region_congr {p q : Program α} (keep : α → List Claim)
    (same : p.run calls w = q.run calls w) :
    (region keep p).run calls w = (region keep q).run calls w := by
  rw [run_region, run_region, same]

/-- Looking at an entry, and claiming things, leaves the database alone. -/
theorem database_hold {c : Claim} (ran : (hold c).run calls w = (.done (), w')) :
    w'.database = w.database := by
  cases ran
  rfl

theorem database_trace {entries : List Token}
    (ran : (trace entries).run calls w = (.done (), w')) : w'.database = w.database := by
  cases ran
  split
  · exact (World.steady_trace entries w).database
  · rfl

end Program

namespace Descriptor

variable {db : Database} {calls : Calls} {path : List Token} {t : Nat}

/-- A walk asks what it would ask along the whole trail, however far it may go beyond, if asking
takes nothing away. -/
theorem run_walkWithin {α : Type} {keep : α → List Claim} {probe : Token → Program (Option α)}
    (trail : Trail db.parentOf? t path) (known : ∀ u ∈ path, db.Has u)
    (steady : ∀ u ∈ path, ∀ w : World, db.Persists w.database →
      db.Persists ((probe u).run calls w).2.database)
    {limit : Nat} (far : path.length ≤ limit) (w : World) (persists : db.Persists w.database) :
    (walkWithin keep probe limit t).run calls w = (visit keep probe path).run calls w := by
  induction trail generalizing limit w with
  | @last t ends =>
    obtain ⟨limit, rfl⟩ := Nat.exists_eq_add_of_le' far
    refine run_bind_congr fun found w₁ probed => ?_
    cases found with
    | some found => rfl
    | none =>
      refine run_bind_congr fun e w₂ looked => ?_
      obtain ⟨found, rfl⟩ := run_entry.mp looked
      have after : db.Persists w₁.database := by
        simpa only [probed] using steady t List.mem_cons_self w persists
      simp only [after.parent (known t List.mem_cons_self) found, ends]
  | @onward t u path step rest ih =>
    obtain ⟨limit, rfl⟩ := Nat.exists_eq_add_of_le' far
    obtain ⟨behind, rfl⟩ := rest.head
    refine run_bind_congr fun found w₁ probed => ?_
    cases found with
    | some found => rfl
    | none =>
      refine run_bind_congr fun e w₂ looked => ?_
      obtain ⟨found, rfl⟩ := run_entry.mp looked
      have after : db.Persists w₁.database := by
        simpa only [probed] using steady t List.mem_cons_self w persists
      simp only [after.parent (known t List.mem_cons_self) found, step]
      refine run_region_congr _ (run_bind_congr fun _ w₃ held => ?_)
      refine run_bind_congr fun _ w₄ traced => ?_
      refine ih (fun v member => known v (List.mem_cons_of_mem _ member))
        (fun v member => steady v (List.mem_cons_of_mem _ member)) ?_ w₄ ?_
      · exact Nat.le_add_left _ limit
      · rwa [database_trace traced, database_hold held]

/-- A name is read along the whole trail, however far it may go beyond. -/
theorem run_qualifiedNameWithin (trail : Trail db.targetOf? t path) {limit : Nat}
    (far : path.length ≤ limit) (w : World) (same : w.database = db) :
    (qualifiedNameWithin limit t).run calls w = (nameAlong path).run calls w := by
  induction trail generalizing limit w with
  | @last t ends =>
    obtain ⟨limit, rfl⟩ := Nat.exists_eq_add_of_le' far
    refine run_bind_congr fun e w₁ looked => ?_
    obtain ⟨found, rfl⟩ := run_entry.mp looked
    rw [Database.targetOf?, ← same, found, Option.bind_some] at ends
    simp only [ends, Entry.ownName]
    split
    · rfl
    · split <;> rfl
  | @onward t u path step rest ih =>
    obtain ⟨limit, rfl⟩ := Nat.exists_eq_add_of_le' far
    obtain ⟨behind, rfl⟩ := rest.head
    refine run_bind_congr fun e w₁ looked => ?_
    obtain ⟨found, rfl⟩ := run_entry.mp looked
    rw [Database.targetOf?, ← same, found, Option.bind_some] at step
    simp only [step, Entry.kind_of_target step, if_true]
    refine run_region_congr _ (run_bind_congr fun _ w₂ held => ?_)
    exact ih (Nat.le_add_left _ limit) w₂ ((database_hold held).trans same)

/-- Reading a name along a trail of entries ends with the name of the last one. -/
theorem finds_nameAlong {v : World} {next : Token → Option Token} (trail : Trail next t path)
    (known : ∀ u ∈ path, v.database.Has u) :
    (nameAlong path).Finds v fun name =>
      ∃ u ∈ path.getLast?, ∃ e, v.database.entry? u = some e ∧ name = e.ownName := by
  induction trail with
  | @last t ends =>
    obtain ⟨e, found⟩ := (known t List.mem_cons_self).entry
    exact (finds_entry found).next (finds_pure ⟨t, rfl, e, found, rfl⟩)
  | @onward t u path step rest ih =>
    obtain ⟨e, found⟩ := (known t List.mem_cons_self).entry
    obtain ⟨behind, rfl⟩ := rest.head
    have above := ih fun v member => known v (List.mem_cons_of_mem _ member)
    refine (finds_entry found).next (.region (finds_hold.bind fun _ _ => above.weaken ?_))
    rintro name ⟨w, last, named⟩
    exact ⟨w, by rwa [List.getLast?_cons_cons], named⟩

end Descriptor
end ObjectBridge
