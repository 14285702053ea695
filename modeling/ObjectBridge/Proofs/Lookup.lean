import ObjectBridge.Listing
import ObjectBridge.Proofs.Reading
import ObjectBridge.Resolve
import ObjectBridge.Signature

/-!
# Looking things up is reading

Descriptors, members, signatures and listings are found by reading: whatever is found or not found,
and wherever the search fails, the references that were taken are those of the temporaries.
-/

namespace ObjectBridge

open Program

namespace Descriptor

theorem reading_take {t : Option Token} : Reading (take t) := by
  cases t with
  | none => exact reading_pure
  | some t => exact reading_holdEntry.bind fun _ => reading_pure

theorem reading_parent {t : Token} : Reading (parent? t) := reading_entry.bind fun _ => reading_take

theorem reading_target {t : Token} : Reading (target? t) := reading_entry.bind fun _ => reading_take

theorem reading_part {t : Token} {index : Nat} : Reading (part? t index) :=
  reading_entry.bind fun _ => reading_take

theorem reading_argument {t : Token} {index : Nat} : Reading (argument? t index) :=
  reading_entry.bind fun _ => reading_take

theorem reading_result {t : Token} : Reading (result? t) := reading_entry.bind fun _ => reading_take

theorem reading_declared {t : Token} : Reading (declared? t) :=
  reading_entry.bind fun _ => reading_take

theorem reading_registered {number : TypeNumber} : Reading (registered? number) := by
  unfold registered?
  split
  · exact reading_pure
  · exact reading_database.bind fun _ => reading_take

/-- Giving back the entry that was claimed just before restores the temporaries and the counts. -/
theorem ends_letGo (stage : Stage) (w : World) (t : Token) :
    ∃ w', Ends stage (letGo (.entry t)) (w.withStore (w.store.hold (.entry t))) () w'
      ∧ w.Reading w' [] := by
  have held : ((w.withStore (w.store.hold (.entry t))).store.held.contains (.entry t)) = true := by
    simp [World.withStore, Store.hold]
  have answered : (w.withStore (w.store.hold (.entry t))).answer stage.calls (.letGo (.entry t))
      = (.done (), w.withStore { w.store with ledger := (w.store.ledger.take t).giveBack t }) := by
    refine (if_pos held).trans ?_
    simp only [World.release, World.withStore, Store.dropHeld, Store.hold, Store.claim,
      Store.release, List.erase_cons_head, Outcome.ofFaults]
    rfl
  refine ⟨_, ends_request answered rfl, by simp, rfl, fun u => ?_, ?_, Nat.le_refl _⟩
  · simp only [World.withStore, Tally.get_giveBack, Tally.get_take, List.count_nil]
    omega
  · simp only [World.withStore, Tally.total_giveBack, Tally.total_take, List.length_nil]
    omega

/-- Trying entries one after the other only keeps the claim of the one that is found. -/
theorem reading_firstNamed {name : String} {entries : List Token} :
    Reading (firstNamed name entries) := by
  induction entries with
  | nil => exact reading_pure
  | cons t rest ih =>
    intro stage w
    have claimed : Ends stage (hold (.entry t)) w () (w.withStore (w.store.hold (.entry t))) :=
      ends_request rfl rfl
    rw [firstNamed, claimed.run_bind, claimed.seen_bind]
    cases found : w.database.entry? t with
    | none =>
      obtain ⟨why, stopped⟩ : ∃ why, Stops stage (entry t)
          (w.withStore (w.store.hold (.entry t))) why _ := stops_entry found
      rw [stopped.bind.run, stopped.bind.seen]
      exact ⟨rfl, _, w.reading_hold t⟩
    | some e =>
      have looked : Ends stage (entry t) (w.withStore (w.store.hold (.entry t))) e
          (w.withStore (w.store.hold (.entry t))) := ends_entry found
      rw [looked.run_bind, looked.seen_bind]
      by_cases named : e.name = some name
      · rw [if_pos named]
        exact ⟨rfl, _, w.reading_hold t⟩
      · obtain ⟨w', back, reading⟩ := ends_letGo stage w t
        obtain ⟨unseen, top, ran⟩ := ih stage w'
        rw [if_neg named, back.run_bind, back.seen_bind]
        exact ⟨unseen, _, reading.trans ran⟩

theorem reading_member {group : MemberGroup} {name : String} {t : Token} :
    Reading (member? group name t) :=
  reading_entry.bind fun _ => reading_firstNamed

theorem reading_memberEntries {group : MemberGroup} {t : Token} :
    Reading (memberEntries group t) :=
  .region <| reading_entry.bind fun _ =>
    reading_each fun _ => reading_holdEntry.bind fun _ => reading_entry

theorem reading_qualifiedNameWithin {limit : Nat} {t : Token} :
    Reading (qualifiedNameWithin limit t) := by
  induction limit generalizing t with
  | zero => exact reading_stop
  | succ limit ih =>
    refine reading_entry.bind fun e => ?_
    split
    · split
      · exact .region (reading_holdEntry.bind fun _ => ih)
      · exact reading_pure
    · split
      · exact reading_pure
      · exact reading_pure

theorem reading_qualifiedName {t : Token} : Reading (qualifiedName t) := reading_qualifiedNameWithin

theorem reading_render {t : Token} : Reading (render t) :=
  reading_entry.bind fun _ => reading_qualifiedName.bind fun _ => reading_pure

theorem reading_walkWithin {α : Type} {keep : α → List Claim} {probe : Token → Program (Option α)}
    (probes : ∀ t, (probe t).Reading) {limit : Nat} {t : Token} :
    Reading (walkWithin keep probe limit t) := by
  induction limit generalizing t with
  | zero => exact reading_stop
  | succ limit ih =>
    refine (probes t).bind fun found => ?_
    cases found with
    | some found => exact reading_pure
    | none =>
      refine reading_entry.bind fun e => ?_
      split
      · exact reading_pure
      · exact .region (reading_holdEntry.bind fun _ => reading_trace.bind fun _ => ih)

theorem reading_walk {α : Type} {keep : α → List Claim} {probe : Token → Program (Option α)}
    (probes : ∀ t, (probe t).Reading) {t : Token} : Reading (walk keep probe t) :=
  reading_walkWithin probes

end Descriptor

namespace Member

open Descriptor

theorem reading_findEnumValue {t : Token} {name : String} : Reading (findEnumValue t name) := by
  refine .region (reading_member.bind fun found => ?_)
  cases found with
  | none => exact reading_pure
  | some m => exact reading_entry.bind fun _ => reading_pure

theorem reading_findMethod {t : Token} {name : String} : Reading (findMethod t name) := by
  refine reading_entry.bind fun e => ?_
  split
  · exact reading_walk fun _ => reading_member
  · exact reading_member

theorem reading_findSignal {t : Token} {name : String} : Reading (findSignal t name) :=
  reading_walk fun _ => reading_member

theorem reading_findEither {group : MemberGroup} {t : Token} {name : String} :
    Reading (findEither group t name) := by
  refine reading_member.bind fun found => ?_
  cases found with
  | some found => exact reading_pure
  | none =>
    cases hyphenate? name with
    | none => exact reading_pure
    | some hyphenated =>
      refine reading_member.bind fun found => ?_
      cases found <;> exact reading_pure

theorem reading_findProperty {t : Token} {name : String} : Reading (findProperty t name) := by
  refine reading_entry.bind fun e => ?_
  split
  · exact reading_findEither
  · exact reading_pure

theorem reading_findField {t : Token} {name : String} : Reading (findField t name) := by
  refine reading_entry.bind fun e => ?_
  split
  · exact reading_findEither
  · exact reading_pure

theorem reading_findPlain {kind : EntryKind} {t : Token} {name : String} :
    Reading (findPlain kind t name) := by
  unfold findPlain
  extract_lets rest
  have reading_rest (method : Option Token) : Reading (rest method) := by
    cases method with
    | some found => exact reading_pure
    | none =>
      refine reading_findProperty.bind fun found => ?_
      cases found with
      | some found => exact reading_pure
      | none =>
        refine reading_findField.bind fun found => ?_
        cases found <;> exact reading_pure
  split
  · exact reading_findMethod.bind reading_rest
  · exact reading_pure.bind reading_rest

theorem reading_resolve {t : Token} {name : String} : Bridge.Reading (resolve t name) := by
  refine .region <| (Bridge.reading_lift reading_entry).bind fun e =>
    (Bridge.reading_lift reading_trace).bind fun _ => ?_
  split
  · refine (Bridge.reading_lift reading_findEnumValue).bind fun found => ?_
    cases found with
    | some number => exact Bridge.reading_pure
    | none => exact Bridge.reading_throw
  · refine (Bridge.reading_lift reading_findPlain).bind fun found => ?_
    cases found with
    | some found => exact Bridge.reading_pure
    | none =>
      dsimp only
      split
      · split
        · refine (Bridge.reading_lift reading_findSignal).bind fun found => ?_
          cases found with
          | some found => exact Bridge.reading_pure
          | none => exact Bridge.reading_throw
        · exact Bridge.reading_throw
      · exact Bridge.reading_throw

end Member

namespace Signature

open Descriptor

theorem reading_parameter {callable : Token} {index : Nat} :
    Bridge.Reading (parameter callable index) := by
  refine .region <| (Bridge.reading_lift reading_entry).bind fun e =>
    (Bridge.reading_lift reading_argument).bind fun found => ?_
  cases found with
  | none => exact Bridge.reading_throw
  | some argument =>
    refine (Bridge.reading_lift reading_declared).bind fun found => ?_
    cases found with
    | none => exact Bridge.reading_throw
    | some type => exact (Bridge.reading_lift reading_entry).bind fun _ => Bridge.reading_pure

theorem reading_ofCallable {callable : Token} : Bridge.Reading (ofCallable callable) :=
  .region <| (Bridge.reading_lift reading_entry).bind fun _ =>
    (Bridge.reading_each fun _ => reading_parameter).bind fun _ =>
      (Bridge.reading_lift reading_result).bind fun _ => Bridge.reading_pure

end Signature

namespace Listing

open Descriptor

theorem reading_readSection {t : Token} {group : MemberGroup} : Reading (readSection t group) :=
  reading_memberEntries.bind fun _ => reading_pure

theorem reading_parentName {t : Token} {kind : EntryKind} : Reading (parentName t kind) := by
  unfold parentName
  split
  · refine .region (reading_parent.bind fun parent => ?_)
    cases parent with
    | none => exact reading_pure
    | some parent => exact reading_qualifiedName.bind fun _ => reading_pure
  · exact reading_pure

theorem reading_describe {t : Token} : Reading (describe t) :=
  reading_entry.bind fun _ => (reading_each fun _ => reading_readSection).bind fun _ =>
    reading_qualifiedName.bind fun _ => reading_parentName.bind fun _ => reading_pure

end Listing
end ObjectBridge
