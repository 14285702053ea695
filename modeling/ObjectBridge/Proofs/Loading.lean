import ObjectBridge.Proofs.Creating
import ObjectBridge.Proofs.Serving

/-!
# What is loaded and what is required

Loading a namespace marks one version in the catalog and records it under the name of the namespace.
The marks do not matter for later calls, so every call of a run chooses among the versions that were
declared at its start.  After the run the catalog is marked at the versions that were chosen, and
the record has the version of the last call for each name that succeeded.
-/

namespace ObjectBridge

variable {cat : Catalog} {e f : Edition} {i : Nat}

/-- A version that has been loaded. -/
def Edition.marked (e : Edition) : Edition := { e with loaded := true }

/-- A version as it was before it was loaded. -/
def Edition.unmarked (e : Edition) : Edition := { e with loaded := false }

namespace Library

/-- A call that requires a namespace: its name, possibly a version, and possibly the directory of a
private version. -/
structure Requirement where
  /-- The namespace. -/
  name : String
  /-- The version, if it matters. -/
  version : Option String := none
  /-- The directory in which private versions are looked for. -/
  directory : Option String := none
  deriving DecidableEq, Repr

namespace Requirement

variable {q : Requirement} {w : World}

/-- Whether a declared version meets a requirement. -/
structure MetBy (q : Requirement) (e : Edition) : Prop where
  /-- It is a version of the namespace. -/
  name : e.name = q.name
  /-- It is the version that is asked for, if one is. -/
  version : ∀ v, q.version = some v → e.version = v
  /-- It is public, or it was declared for the given directory. -/
  directory : ∀ own, e.directory = some own →
    ∃ given, q.directory = some given ∧ Text.samePath own given = true

/-- The call of a requirement. -/
def call (q : Requirement) : Program (Except Failure Value) :=
  (Library.load q.name q.version q.directory).run

/-- Whether the catalog finds that a version meets a requirement. -/
def answered (q : Requirement) (e : Edition) : Bool :=
  Catalog.answers q.name q.version q.directory e

theorem answered_iff : q.answered e = true ↔ q.MetBy e := by
  obtain ⟨name, version, directory⟩ := q
  obtain ⟨name', version', directory', assumed, loaded⟩ := e
  constructor
  · intro meets
    simp only [answered, Catalog.answers, Bool.and_eq_true, decide_eq_true_eq] at meets
    obtain ⟨⟨named, versioned⟩, placed⟩ := meets
    refine ⟨named, fun v asked => ?_, fun own private' => ?_⟩
    · cases asked
      exact of_decide_eq_true versioned
    · cases private'
      cases directory with
      | none => cases placed
      | some given => exact ⟨given, rfl, placed⟩
  · rintro ⟨named, versioned, placed⟩
    simp only [answered, Catalog.answers, Bool.and_eq_true, decide_eq_true_eq]
    refine ⟨⟨named, ?_⟩, ?_⟩
    · cases version with
      | none => rfl
      | some v => exact decide_eq_true (versioned v rfl)
    · cases directory' with
      | none => rfl
      | some own =>
        obtain ⟨given, rfl, same⟩ := placed own rfl
        exact same

instance : Decidable (q.MetBy e) := decidable_of_iff _ answered_iff

/-- Whether the version at a place of a catalog is the first one that meets a requirement. -/
structure Chooses (q : Requirement) (cat : Catalog) (i : Nat) (e : Edition) : Prop where
  /-- The version stands at the place. -/
  there : cat[i]? = some e
  /-- It meets the requirement. -/
  met : q.MetBy e
  /-- No version before it does. -/
  first : ∀ j f, j < i → cat[j]? = some f → ¬q.MetBy f

/-- The place of the first version that meets a requirement. -/
def chosen? (q : Requirement) (cat : Catalog) : Option Nat := cat.findIdx? q.answered

theorem chooses_of_chosen (chosen : q.chosen? cat = some i) : ∃ e, q.Chooses cat i e := by
  obtain ⟨bound, met, first⟩ := List.findIdx?_eq_some_iff_getElem.mp chosen
  refine ⟨cat[i], List.getElem?_eq_getElem bound, answered_iff.mp met, fun j f earlier there => ?_⟩
  obtain ⟨_, rfl⟩ := List.getElem?_eq_some_iff.mp there
  exact fun met' => first j earlier (answered_iff.mpr met')

theorem Chooses.chosen (chooses : q.Chooses cat i e) : q.chosen? cat = some i := by
  obtain ⟨bound, rfl⟩ := List.getElem?_eq_some_iff.mp chooses.there
  refine List.findIdx?_eq_some_iff_getElem.mpr ⟨bound, answered_iff.mpr chooses.met, ?_⟩
  intro j earlier met
  exact chooses.first j _ earlier (List.getElem?_eq_getElem (earlier.trans bound))
    (answered_iff.mp met)

theorem chosen_eq_some_iff : q.chosen? cat = some i ↔ ∃ e, q.Chooses cat i e :=
  ⟨chooses_of_chosen, fun ⟨_, chooses⟩ => chooses.chosen⟩

/-- The first version that meets a requirement. -/
def edition? (q : Requirement) (cat : Catalog) : Option Edition := cat.find? q.answered

theorem Chooses.edition (chooses : q.Chooses cat i e) : q.edition? cat = some e := by
  rw [edition?, List.find?_eq_some_iff_getElem]
  obtain ⟨bound, there⟩ := List.getElem?_eq_some_iff.mp chooses.there
  refine ⟨answered_iff.mpr chooses.met, i, bound, there, fun j earlier => ?_⟩
  have unmet := chooses.first j _ earlier (List.getElem?_eq_getElem (earlier.trans bound))
  rwa [← answered_iff, Bool.not_eq_true, ← Bool.not_eq_true'] at unmet

theorem exists_chooses (found : q.edition? cat = some e) : ∃ i, q.Chooses cat i e := by
  obtain ⟨met, i, bound, there, first⟩ := List.find?_eq_some_iff_getElem.mp found
  refine ⟨i, List.getElem?_eq_some_iff.mpr ⟨bound, there⟩, answered_iff.mp met,
    fun j f earlier there' => ?_⟩
  obtain ⟨_, rfl⟩ := List.getElem?_eq_some_iff.mp there'
  rw [← answered_iff, Bool.not_eq_true, ← Bool.not_eq_true']
  exact first j earlier

theorem edition_eq_none_iff : q.edition? cat = none ↔ ∀ e ∈ cat, ¬q.MetBy e := by
  simp only [edition?, List.find?_eq_none, answered_iff]

/-! ### One call -/

/-- The catalog after a call. -/
def mark (q : Requirement) (cat : Catalog) : Catalog :=
  match q.chosen? cat with
  | some i => cat.modify i Edition.marked
  | none => cat

theorem load?_eq (q : Requirement) (cat : Catalog) :
    Catalog.load? q.name q.version q.directory cat
      = (q.edition? cat).map fun e => (e.version, q.mark cat) := by
  induction cat with
  | nil => rfl
  | cons e rest ih =>
    change (if q.answered e then _ else _) = _
    simp only [edition?, mark, chosen?, List.find?_cons, List.findIdx?_cons] at ih ⊢
    by_cases met : q.answered e = true
    · simp [met, Edition.marked]
    · rw [if_neg met, ih]
      simp only [Bool.not_eq_true] at met
      simp only [met]
      cases rest.findIdx? q.answered with
      | none => cases rest.find? q.answered <;> rfl
      | some i => cases rest.find? q.answered <;> rfl

/-- What a call records: the name and the version that was chosen. -/
def record? (q : Requirement) (cat : Catalog) : Option (String × String) :=
  (q.edition? cat).map fun e => (q.name, e.version)

/-- What a call gives. -/
def reply (q : Requirement) (cat : Catalog) : Except Failure Value :=
  match q.record? cat with
  | some (name, version) => .ok (.library name version)
  | none => .error (.libraryUnavailable (Catalog.notFound q.name q.version).message)

/-- The world after a call. -/
def after (q : Requirement) (w : World) : World :=
  { w with
    database := { w.database with catalog := q.mark w.database.catalog }
    required := assignAll (q.record? w.database.catalog).toList w.required }

theorem after_of_unmet (unmet : q.edition? w.database.catalog = none) : q.after w = w := by
  have unchosen : q.chosen? w.database.catalog = none := by
    simpa [edition?, chosen?] using unmet
  simp only [after, mark, unchosen, record?, unmet]
  rfl

/-- A call chooses a version, marks and records it, or it fails and changes nothing. -/
theorem run_call (calls : Calls) (q : Requirement) (w : World) :
    q.call.run calls w = (.done (q.reply w.database.catalog), q.after w) := by
  have looks : (liftM Program.database : Bridge Database).run.Passes calls w (.ok w.database) w :=
    Bridge.passes_lift (Program.passes_request rfl rfl)
  have loads := load?_eq q w.database.catalog
  rw [call, Library.load, (Bridge.leads_bind looks).run]
  cases found : q.edition? w.database.catalog with
  | none =>
    rw [found] at loads
    simp only [loads, Option.map_none, after_of_unmet found, reply, record?, found]
    rfl
  | some e =>
    rw [found] at loads
    simp only [loads, Option.map_some, reply, record?, found, after]
    rfl

/-! ### A run of calls -/

/-- Marks do not matter for what is chosen. -/
theorem unmarked_mark (q : Requirement) (cat : Catalog) :
    (q.mark cat).map Edition.unmarked = cat.map Edition.unmarked := by
  unfold mark
  cases q.chosen? cat with
  | none => rfl
  | some j =>
    refine List.ext_getElem? fun i => ?_
    simp only [List.getElem?_map, List.getElem?_modify]
    cases cat[i]? with
    | none => rfl
    | some e => by_cases here : j = i <;> simp [here, Edition.unmarked, Edition.marked]

theorem chosen_unmarked : q.chosen? (cat.map Edition.unmarked) = q.chosen? cat :=
  List.findIdx?_map

theorem record_unmarked : q.record? (cat.map Edition.unmarked) = q.record? cat := by
  rw [record?, edition?, List.find?_map, Option.map_map]
  rfl

theorem chosen_mark {p : Requirement} : q.chosen? (p.mark cat) = q.chosen? cat := by
  rw [← chosen_unmarked, unmarked_mark, chosen_unmarked]

theorem record_mark {p : Requirement} : q.record? (p.mark cat) = q.record? cat := by
  rw [← record_unmarked, unmarked_mark, record_unmarked]

theorem reply_mark {p : Requirement} : q.reply (p.mark cat) = q.reply cat := by
  rw [reply, record_mark, reply]

/-- The catalog after some calls. -/
def markAll (qs : List Requirement) (cat : Catalog) : Catalog :=
  qs.foldl (fun cat q => q.mark cat) cat

theorem unmarked_markAll (qs : List Requirement) (cat : Catalog) :
    (markAll qs cat).map Edition.unmarked = cat.map Edition.unmarked := by
  induction qs generalizing cat with
  | nil => rfl
  | cons q rest ih => exact (ih (q.mark cat)).trans (q.unmarked_mark cat)

/-- The world after some calls. -/
def afterAll (qs : List Requirement) (w : World) : World :=
  qs.foldl (fun w q => q.after w) w

/-- Every call of a run chooses among the versions that were declared at its start. -/
theorem run_each_call (calls : Calls) (qs : List Requirement) (w : World) :
    (Program.each call qs).run calls w
      = (.done (qs.map fun q => q.reply w.database.catalog), afterAll qs w) := by
  induction qs generalizing w with
  | nil => rfl
  | cons q rest ih =>
    simp only [Program.each, Program.run_bind, run_call, ih]
    refine congrArg (fun replies => (Outcome.done replies, _)) ?_
    exact congrArg _ (List.map_congr_left fun p _ => p.reply_mark)

theorem catalog_afterAll (qs : List Requirement) (w : World) :
    (afterAll qs w).database.catalog = markAll qs w.database.catalog := by
  induction qs generalizing w with
  | nil => rfl
  | cons q rest ih => exact ih (q.after w)

theorem required_afterAll (qs : List Requirement) (w : World) :
    (afterAll qs w).required
      = assignAll (qs.filterMap fun q => q.record? w.database.catalog) w.required := by
  induction qs generalizing w with
  | nil => rfl
  | cons q rest ih =>
    change (afterAll rest (q.after w)).required = _
    have same : (rest.filterMap fun p => p.record? (q.after w).database.catalog)
        = rest.filterMap fun p => p.record? w.database.catalog :=
      List.filterMap_congr fun p _ => p.record_mark
    rw [ih, same, List.filterMap_cons]
    cases recorded : q.record? w.database.catalog <;> simp [after, recorded, assignAll]

/-- After some calls exactly the versions that one of them chose are marked, besides those that were
marked before. -/
theorem getElem?_markAll (qs : List Requirement) (cat : Catalog) (i : Nat) :
    (markAll qs cat)[i]? = cat[i]?.map fun e =>
      { e with loaded := e.loaded || qs.any fun q => q.chosen? cat = some i } := by
  induction qs generalizing cat with
  | nil => cases there : cat[i]? <;> simp [markAll, there]
  | cons q rest ih =>
    change (markAll rest (q.mark cat))[i]? = _
    simp only [ih, chosen_mark, List.any_cons]
    unfold mark
    cases chosen : q.chosen? cat with
    | none => simp
    | some j =>
      rw [List.getElem?_modify]
      cases cat[i]? with
      | none => rfl
      | some e => by_cases here : j = i <;> simp [here, Edition.marked]

end Requirement

open Requirement

/-! ### The record of what is required -/

/-- What a call that succeeded loaded. -/
def loaded? : Except Failure Value → Option (String × String)
  | .ok (.library name version) => some (name, version)
  | _ => none

theorem loaded_eq_some_iff {r : Except Failure Value} {name version : String} :
    loaded? r = some (name, version) ↔ r = .ok (.library name version) := by
  constructor
  · intro found
    unfold loaded? at found
    split at found
    · cases found
      rfl
    · cases found
  · rintro rfl
    rfl

theorem loaded_reply (q : Requirement) (cat : Catalog) : loaded? (q.reply cat) = q.record? cat := by
  unfold reply
  split
  · next found => exact found.symm
  · next absent => exact absent.symm

/-- Whether the last call that loaded some version of a namespace gave this one. -/
def LastLoaded (results : List (Except Failure Value)) (name version : String) : Prop :=
  ∃ before after, results = before ++ .ok (.library name version) :: after
    ∧ ∀ other, .ok (.library name other) ∉ after

theorem lookup_loaded_iff {results : List (Except Failure Value)} {name version : String} :
    (results.filterMap loaded?).reverse.lookup name = some version
      ↔ LastLoaded results name version := by
  rw [List.lookup_eq_some_iff]
  constructor
  · rintro ⟨later, earlier, split, others⟩
    have rows : results.filterMap loaded?
        = earlier.reverse ++ (name, version) :: later.reverse := by
      rw [← List.reverse_reverse (results.filterMap loaded?), split]
      simp
    obtain ⟨before, rest, rfl, _, found⟩ := List.filterMap_eq_append_iff.mp rows
    obtain ⟨failed, r, after, rfl, _, loaded, kept⟩ := List.filterMap_eq_cons_iff.mp found
    rw [loaded_eq_some_iff.mp loaded]
    refine ⟨before ++ failed, after, by simp, fun other member => ?_⟩
    have listed : (name, other) ∈ later.reverse :=
      kept ▸ List.mem_filterMap.mpr ⟨_, member, rfl⟩
    have different := others _ (List.mem_reverse.mp listed)
    simp at different
  · rintro ⟨before, after, rfl, none⟩
    refine ⟨(after.filterMap loaded?).reverse, (before.filterMap loaded?).reverse,
      by simp [loaded?], fun row member => ?_⟩
    obtain ⟨r, there, loaded⟩ := List.mem_filterMap.mp (List.mem_reverse.mp member)
    refine bne_iff_ne.mpr fun same => none row.2 ?_
    rwa [← loaded_eq_some_iff.mp (same ▸ loaded : loaded? r = some (name, row.2))]

theorem mem_iff_lookup {rows : List (String × String)} (distinct : (rows.map Prod.fst).Nodup)
    {name version : String} : (name, version) ∈ rows ↔ rows.lookup name = some version := by
  refine ⟨fun member => ?_, mem_of_lookup⟩
  induction rows with
  | nil => cases member
  | cons row rest ih =>
    obtain ⟨fresh, distinct⟩ := List.nodup_cons.mp distinct
    rcases List.mem_cons.mp member with rfl | later
    · exact List.lookup_cons_self
    · have different : name ≠ row.1 := fun same =>
        fresh (List.mem_map.mpr ⟨(name, version), later, same⟩)
      rw [List.lookup_cons, beq_false_of_ne different]
      exact ih distinct later

/-- The record is listed in the order of the names, each of them once. -/
theorem pairwise_mergeSort {rows : List (String × String)} (distinct : (rows.map Prod.fst).Nodup) :
    (rows.mergeSort fun a b => decide (a.1 ≤ b.1)).Pairwise fun a b => a.1 < b.1 := by
  let before (a b : String × String) : Bool := decide (a.1 ≤ b.1)
  have trans (a b c : String × String) (first : before a b) (second : before b c) : before a c :=
    decide_eq_true (String.le_trans (of_decide_eq_true first) (of_decide_eq_true second))
  have total (a b : String × String) : before a b || before b a := by
    simpa [before] using String.le_total a.1 b.1
  have sorted : (rows.mergeSort before).Pairwise fun a b => before a b :=
    List.pairwise_mergeSort trans total rows
  have apart : (rows.mergeSort before).Pairwise fun a b => a.1 ≠ b.1 := by
    have permuted := (List.mergeSort_perm rows before).map Prod.fst
    exact List.pairwise_map.mp (permuted.nodup_iff.mpr distinct)
  refine (sorted.and apart).imp fun ⟨below, different⟩ => ?_
  exact lt_of_le_of_ne (of_decide_eq_true below) different

/-- What a call gives, by the versions that were declared. -/
structure Granted (cat : Catalog) (q : Requirement) (r : Except Failure Value) : Prop where
  /-- It succeeds if and only if a declared version meets the requirement. -/
  succeeds : (∃ v, r = .ok v) ↔ ∃ e ∈ cat, q.MetBy e
  /-- It gives the first declared version that does. -/
  version : ∀ i e, q.Chooses cat i e → r = .ok (.library q.name e.version)
  /-- If there is none, it says so. -/
  refused : (∀ e ∈ cat, ¬q.MetBy e) →
    r = .error (.libraryUnavailable (Catalog.notFound q.name q.version).message)

theorem granted_reply (q : Requirement) (cat : Catalog) : Granted cat q (q.reply cat) := by
  cases found : q.edition? cat with
  | none =>
    have unmet := edition_eq_none_iff.mp found
    have failed : q.reply cat
        = .error (.libraryUnavailable (Catalog.notFound q.name q.version).message) := by
      simp [reply, record?, found]
    refine ⟨⟨fun ⟨v, ok⟩ => ?_, fun ⟨e, member, met⟩ => absurd met (unmet e member)⟩,
      fun i e chooses => ?_, fun _ => failed⟩
    · cases failed.symm.trans ok
    · cases found.symm.trans chooses.edition
  | some e =>
    obtain ⟨i, chooses⟩ := exists_chooses found
    have member : e ∈ cat := List.mem_of_getElem? chooses.there
    have given : q.reply cat = .ok (.library q.name e.version) := by simp [reply, record?, found]
    refine ⟨⟨fun _ => ⟨e, member, chooses.met⟩, fun _ => ⟨_, given⟩⟩, fun j f chooses' => ?_,
      fun unmet => absurd chooses.met (unmet e member)⟩
    rw [given, Option.some.inj (found.symm.trans chooses'.edition)]

/-- What a run of calls that require namespaces leaves behind, if nothing was required before. -/
theorem load_bookkeeping (calls : Calls) (w : World) (qs : List Requirement)
    (fresh : w.required = []) :
    ∃ results w', (Program.each call qs).run calls w = (.done results, w')
      ∧ List.Forall₂ (Granted w.database.catalog) qs results
      ∧ (∀ (v : World) (q : Requirement) (f : Failure) (v' : World),
          q.call.run calls v = (.done (.error f), v') → v' = v)
      ∧ (∃ listed, required.run calls w' = (.done listed, w')
        ∧ (listed.Pairwise fun a b => a.1 < b.1)
        ∧ (∀ name version, (name, version) ∈ listed ↔ LastLoaded results name version)
        ∧ ∀ name version, (name, version) ∈ listed →
          w'.database.catalog.isLoaded name (some version) = true)
      ∧ w'.database.catalog.length = w.database.catalog.length
      ∧ ∀ i e, w.database.catalog[i]? = some e → ∃ loaded,
          w'.database.catalog[i]? = some { e with loaded := loaded }
          ∧ (loaded = true ↔ e.loaded = true ∨ ∃ q ∈ qs, q.Chooses w.database.catalog i e) := by
  let cat := w.database.catalog
  have records : (afterAll qs w).required
      = assignAll ((qs.map fun q => q.reply cat).filterMap loaded?) [] := by
    rw [required_afterAll, fresh, List.filterMap_map]
    exact congrArg (assignAll · []) (List.filterMap_congr fun q _ => (loaded_reply q cat).symm)
  have distinct : ((afterAll qs w).required.map Prod.fst).Nodup :=
    records ▸ nodup_assignAll List.nodup_nil
  have listed {name version : String} :
      (name, version) ∈ (afterAll qs w).required.mergeSort (fun a b => decide (a.1 ≤ b.1))
        ↔ LastLoaded (qs.map fun q => q.reply cat) name version := by
    rw [List.mem_mergeSort, mem_iff_lookup distinct, records, lookup_assignAll, List.lookup_nil,
      Option.or_none, lookup_loaded_iff]
  have marks {i : Nat} {e : Edition} (there : cat[i]? = some e) : ∃ loaded,
      (afterAll qs w).database.catalog[i]? = some { e with loaded := loaded }
        ∧ (loaded = true ↔ e.loaded = true ∨ ∃ q ∈ qs, q.Chooses cat i e) := by
    refine ⟨_, by rw [catalog_afterAll, getElem?_markAll, there]; rfl, ?_⟩
    simp only [Bool.or_eq_true, List.any_eq_true, decide_eq_true_eq, chosen_eq_some_iff]
    refine or_congr_right (exists_congr fun q => and_congr_right fun _ =>
      ⟨?_, fun chooses => ⟨e, chooses⟩⟩)
    rintro ⟨f, chooses⟩
    rwa [← Option.some.inj (chooses.there.symm.trans there)]
  refine ⟨_, _, run_each_call calls qs w, ?_, fun v q f v' failed => ?_,
    ⟨_, rfl, pairwise_mergeSort distinct, fun name version => listed, fun name version there => ?_⟩,
    ?_, fun i e there => marks there⟩
  · exact List.forall₂_map_right_iff.mpr (List.forall₂_same.mpr fun q _ => granted_reply q cat)
  · obtain ⟨replied, rfl⟩ := Prod.mk.inj ((run_call calls q v).symm.trans failed)
    have unrecorded : q.record? v.database.catalog = none := by
      rw [← loaded_reply, Outcome.done.inj replied]
      rfl
    exact after_of_unmet (Option.map_eq_none_iff.mp unrecorded)
  · obtain ⟨before, after, split, _⟩ := listed.mp there
    have given : Except.ok (Value.library name version) ∈ qs.map fun q => q.reply cat :=
      split ▸ List.mem_append_right _ List.mem_cons_self
    obtain ⟨q, asked, replied⟩ := List.mem_map.mp given
    have recorded := (loaded_reply q cat).symm.trans (loaded_eq_some_iff.mpr replied)
    obtain ⟨e, found, row⟩ := Option.map_eq_some_iff.mp recorded
    obtain ⟨rfl, rfl⟩ := Prod.mk.inj row
    obtain ⟨i, chooses⟩ := exists_chooses found
    obtain ⟨loaded, kept, marked⟩ := marks chooses.there
    refine List.any_eq_true.mpr ⟨_, List.mem_of_getElem? kept, ?_⟩
    simp [marked.mpr (.inr ⟨q, asked, chooses⟩), chooses.met.name]
  · have same : (afterAll qs w).database.catalog.map Edition.unmarked
        = cat.map Edition.unmarked := by
      rw [catalog_afterAll]
      exact unmarked_markAll qs cat
    simpa using congrArg List.length same

/-- A catalog with two public versions and a private one of a namespace. -/
def sampleCatalog : Catalog :=
  [{ name := "Demo", version := "3.0", directory := some "/opt/private" },
    { name := "Demo", version := "1.0" }, { name := "Demo", version := "2.0" }]

/-- Calls for the namespace: for any version, for one from its directory, and for one that is not
public. -/
def sampleCalls : List Requirement :=
  [{ name := "Demo" }, { name := "Demo", version := some "3.0", directory := some "/opt/private" },
    { name := "Demo", version := some "3.0" }]

theorem load_bookkeeping_sample :
    ∃ results w' listed,
      (Program.each call sampleCalls).run (Session.calls 0)
          { database := { catalog := sampleCatalog } } = (.done results, w')
        ∧ required.run (Session.calls 0) w' = (.done listed, w') ∧ ("Demo", "3.0") ∈ listed
        ∧ w'.database.catalog.isLoaded "Demo" (some "3.0") = true := by
  obtain ⟨results, w', ran, _, _, ⟨listed, list, _, last, registered⟩, _⟩ :=
    load_bookkeeping (Session.calls 0) { database := { catalog := sampleCatalog } } sampleCalls rfl
  obtain ⟨replies, _⟩ := Prod.mk.inj ((run_each_call _ _ _).symm.trans ran)
  have gave : results = [.ok (.library "Demo" "1.0"), .ok (.library "Demo" "3.0"),
      .error (.libraryUnavailable (Catalog.notFound "Demo" (some "3.0")).message)] := by
    rw [← Outcome.done.inj replies]
    decide +kernel
  have newest : ("Demo", "3.0") ∈ listed :=
    (last _ _).mpr ⟨[.ok (.library "Demo" "1.0")], _, gave, by simp⟩
  exact ⟨results, w', listed, ran, list, newest, registered _ _ newest⟩

end Library
end ObjectBridge
