import ObjectBridge.Proofs.Backing
import ObjectBridge.Proofs.Deriving

/-!
# Views keep their owner

A handle that owns a reference to its instance, or the block that its instance is, and the handles
that are derived from it, directly or through each other, are a family.  A derived handle owns a
reference too, or it is kept by the one it was derived from; following the keepers leads to an
owner.  So the instance is there as long as any of the family is, whatever else happens and in
whatever order they are dropped, and each owner gives back what it owns once, when it ends.
-/

namespace ObjectBridge

open Program Bridge

namespace Store

variable {s : Store} {a : Address}

/-- The number of the live handles with an attachment. -/
def owners (s : Store) (x : Attachment) : Nat :=
  s.handles.rows.countP fun row => row.2.attachment = some x

/-- The number of references to an instance, or of blocks at its address. -/
def units (s : Store) (x : Attachment) : Nat :=
  match x.ownership with
  | .retained => s.references x.address
  | .block => s.blocks.count x.address
  | .borrowed => 0

/-- The number of these that direct calls took. -/
def taken (s : Store) (x : Attachment) : Int :=
  match x.ownership with
  | .retained => s.instanceBalance.get x.address
  | _ => 0

/-- The instance is not released, and its block is not freed. -/
def There (s : Store) (x : Attachment) : Prop :=
  match x.ownership with
  | .retained => s.isLive x.address = true
  | .block => x.address ∈ s.blocks
  | .borrowed => False

/-- Only temporaries and handles hold blocks. -/
theorem holders_block (s : Store) (a : Address) :
    s.holders (· == .block a) = s.held.count (.block a) + s.owners ⟨a, .block⟩ := by
  have closures : s.closures.weight (fun c => c.reaction.claims.countP (· == .block a)) = 0 := by
    refine Table.weight_eq_zero fun c => List.countP_eq_zero.mpr fun d member => ?_
    rcases Reaction.mem_claims member with ⟨t, rfl⟩ | ⟨h, rfl, _⟩ <;> exact Bool.false_ne_true
  have instances : s.instances.weight (fun i => i.claims.countP (· == .block a)) = 0 := by
    refine Table.weight_eq_zero fun i => List.countP_eq_zero.mpr fun d member => ?_
    obtain ⟨connection, _, rfl⟩ := List.mem_map.mp member
    exact Bool.false_ne_true
  have owned (r : HandleRecord) : r.claims.countP (· == .block a)
      = if decide (r.attachment = some ⟨a, .block⟩) then 1 else 0 := by
    obtain ⟨info, attachment, keeper, shares⟩ := r
    have typed : (entryClaims info).countP (· == .block a) = 0 := by
      cases info <;> simp [entryClaims]
    simp only [HandleRecord.claims, List.countP_append, typed]
    rcases attachment with _ | ⟨b, _ | _ | _⟩ <;> cases keeper <;> simp
  simp only [holders, countP_valueClaims (p := (· == .block a)) fun _ => rfl, closures, instances,
    owned, owners, Table.weight_ite, List.count]
  omega

theorem owners_pos {h : HandleId} {r : HandleRecord} {x : Attachment}
    (live : s.handles.get? h = some r) (attached : r.attachment = some x) : 0 < s.owners x :=
  List.countP_pos_iff.mpr ⟨_, Table.mem_of_get? live, decide_eq_true attached⟩

end Store

namespace World

variable {w w' : World} {a : Address} {x : Attachment} {h : HandleId} {r : HandleRecord}

/-- Direct calls gave back no more references than direct calls took. -/
def Balanced (w : World) : Prop := ∀ a, 0 ≤ w.store.instanceBalance.get a

/-- The references to an instance are those of direct calls and those of its owners. -/
theorem Orderly.references_owners (orderly : w.Orderly) (balanced : w.Balanced) (a : Address) :
    (w.store.references a : Int)
      = w.store.instanceBalance.get a + w.store.owners ⟨a, .retained⟩ := by
  cases found : w.store.instances.get? a with
  | some i =>
    rw [Store.references, found]
    exact orderly.references_eq found
  | none =>
    have count := orderly.books.counted (.reference a)
    have balance := balanced a
    have same : w.store.retainers a = w.store.owners ⟨a, .retained⟩ := rfl
    rw [orderly.reference_holders, same] at count
    simp only [Store.counts, found, List.count_nil] at count
    rw [Store.references, found]
    dsimp only
    omega

/-- A block is held by temporaries and by its owners. -/
theorem Orderly.blocks_owners (orderly : w.Orderly) (a : Address) :
    w.store.blocks.count a = w.store.held.count (.block a) + w.store.owners ⟨a, .block⟩ := by
  have count := orderly.books.counted (.block a)
  rw [Store.holders_block] at count
  simpa only [Store.counts, List.count_nil, Nat.add_zero] using count

theorem Orderly.live_iff (orderly : w.Orderly) (a : Address) :
    w.store.isLive a = true ↔ 0 < w.store.references a := by
  rw [Store.isLive, Table.contains, Store.references]
  cases found : w.store.instances.get? a with
  | none => simp
  | some i => simpa using (orderly.books.instances a i found).1

/-- What an owner owns is there. -/
theorem Orderly.there (orderly : w.Orderly) (balanced : w.Balanced)
    (live : w.store.handles.get? h = some r) (attached : r.attachment = some x)
    (owns : x.ownership ≠ .borrowed) : w.store.There x := by
  have some_owner := Store.owners_pos live attached
  obtain ⟨a, ownership⟩ := x
  cases ownership with
  | retained => exact orderly.retained_live balanced live attached
  | block =>
    have counted : 0 < w.store.blocks.count a := by
      rw [orderly.blocks_owners a]
      exact Nat.add_pos_right _ some_owner
    exact List.count_pos_iff.mp counted
  | borrowed => exact absurd rfl owns

end World

namespace Handle

/-- The handles that are derived from an owner, and the world after each of them was made and after
whatever else happened since. -/
inductive Family (depth : Nat) (w₀ : World) (owner : HandleId) : List HandleId → World → Prop
  /-- First there is the owner. -/
  | owner : Family depth w₀ owner [owner] w₀
  /-- A live handle of the family is cast. -/
  | cast {family : List HandleId} {w w' : World} {source h : HandleId} {info : Token}
    (before : Family depth w₀ owner family w) (member : source ∈ family)
    (live : w.store.handles.contains source = true)
    (made : (Handle.cast info source).run (Session.calls depth) w = (.done h, w')) :
    Family depth w₀ owner (h :: family) w'
  /-- A method that takes an instance is extracted from a live handle of the family. -/
  | method {family : List HandleId} {w w' : World} {source h : HandleId} {m : Token} {e : Entry}
    (before : Family depth w₀ owner family w) (member : source ∈ family)
    (live : w.store.handles.contains source = true) (known : w.database.entry? m = some e)
    (flagged : e.callableFlags.contains CallableFlag.method = true)
    (made : (bindMethod source (w.store.handle source) m).run (Session.calls depth) w
      = (.done h, w')) : Family depth w₀ owner (h :: family) w'
  /-- A program runs that names nothing that was not made. -/
  | run {family : List HandleId} {w w' : World} {α : Type} {p : Program α}
    {gives : Horizon → α → Prop} {outcome : Outcome α} (before : Family depth w₀ owner family w)
    (tame : p.Tame w.horizon gives) (ran : p.run (Session.calls depth) w = (outcome, w'))
    (balanced : w.Balanced → w'.Balanced) : Family depth w₀ owner family w'
  /-- The session takes a step. -/
  | step {family : List HandleId} {w : World} (before : Family depth w₀ owner family w)
    (step : Script.Step)
    (balanced : w.Balanced → (Session.advance depth step w).2.Balanced) :
    Family depth w₀ owner family (Session.advance depth step w).2

variable {depth : Nat} {w₀ w w' : World} {owner source h : HandleId} {x : Attachment}
  {family : List HandleId} {info : Token} {retains : Bool}

/-- What holds of a family from one moment to the next. -/
structure Kindred (w : World) (x : Attachment) (family : List HandleId) : Prop where
  /-- The books are in order. -/
  orderly : w.Orderly
  /-- Instances and blocks stand in storage of their own. -/
  placed : w.Placed
  /-- Direct calls gave back no more than they took. -/
  balanced : w.Balanced
  /-- The family owns something. -/
  owns : x.ownership ≠ .borrowed
  /-- There is an instance. -/
  present : x.address ≠ 0
  /-- Where it is a block, it is no instance of the runtime, and never will be. -/
  apart : x.ownership = .block → x.address < w.memory.next ∧ w.store.isLive x.address = false
  /-- The handles were made. -/
  known : ∀ h ∈ family, h < w.store.nextHandle
  /-- A handle that is live is an owner, or another one that is live keeps it. -/
  stands : ∀ h ∈ family, ∀ r, w.store.handles.get? h = some r →
    r.attachment = some x ∨ (r.attachment = some ⟨x.address, .borrowed⟩
      ∧ ∃ k ∈ family, r.keeper = some k ∧ w.store.handles.contains k = true)

/-- What is derived from a live handle of a family belongs to the family. -/
theorem Kindred.derive (later : Kindred w' x family) (member : source ∈ family)
    (live : w.store.handles.contains source = true)
    (derives : Derives w w' source h info x.address retains) : Kindred w' x (h :: family) :=
  { later with
    known := fun k inside => by
      rcases List.mem_cons.mp inside with rfl | old
      · exact (later.orderly.books.handles k _ derives.made).2.1
      · exact later.known k old
    stands := fun k inside r found => by
      have wider {q : HandleRecord} (stands : q.attachment = some x
          ∨ (q.attachment = some ⟨x.address, .borrowed⟩
            ∧ ∃ k ∈ family, q.keeper = some k ∧ w'.store.handles.contains k = true)) :
          q.attachment = some x ∨ (q.attachment = some ⟨x.address, .borrowed⟩
            ∧ ∃ j ∈ h :: family, q.keeper = some j ∧ w'.store.handles.contains j = true) :=
        stands.imp_right fun ⟨borrowed, j, old, kept⟩ =>
          ⟨borrowed, j, List.mem_cons_of_mem h old, kept⟩
      rcases List.mem_cons.mp inside with rfl | old
      · rw [derives.made] at found
        cases found
        cases retains with
        | false =>
          exact wider (.inr ⟨rfl, source, member, rfl, derives.source live⟩)
        | true =>
          refine .inl (congrArg some ?_)
          have alive := derives.live rfl
          obtain ⟨a, ownership⟩ := x
          cases ownership with
          | retained => rfl
          | block => exact absurd alive (Bool.eq_false_iff.mp (later.apart rfl).2)
          | borrowed => exact absurd rfl later.owns
      · exact wider (later.stands k old r found) }

namespace Kindred

variable (kindred : Kindred w x family)
include kindred

/-- Whatever runs, a family stays what it is. -/
theorem later (orderly : w'.Orderly) (balanced : w.Balanced → w'.Balanced)
    (anchors : w.Anchors w') (places : w.Places w') (backs : w.Backs w') :
    Kindred w' x family where
  orderly := orderly
  placed := places kindred.placed
  balanced := balanced kindred.balanced
  owns := kindred.owns
  present := kindred.present
  apart block := by
    obtain ⟨below, free⟩ := kindred.apart block
    refine ⟨Nat.lt_of_lt_of_le below anchors.next, Bool.eq_false_iff.mpr fun live => ?_⟩
    rcases anchors.instances x.address live with before | ⟨above, _⟩
    · exact Bool.eq_false_iff.mp free before
    · exact Nat.not_le.mpr below above
  known h member := Nat.lt_of_lt_of_le (kindred.known h member) anchors.number
  stands h member r' live := by
    have old := kindred.known h member
    obtain ⟨r, before, attachment, keeper⟩ := backs.endures.handles h old r' live
    rw [attachment]
    refine (kindred.stands h member r before).imp_right fun ⟨borrowed, k, inside, kept, alive⟩ => ?_
    obtain ⟨q, found⟩ := Option.isSome_iff_exists.mp alive
    exact ⟨borrowed, k, inside, keeper.trans kept, backs.keeper (kindred.known k inside)
      (kindred.orderly.books.backed found) old live (keeper.trans kept)⟩

/-- A live handle of a family is on the instance. -/
theorem address {r : HandleRecord} (member : h ∈ family)
    (live : w.store.handles.get? h = some r) : r.address = x.address := by
  rw [HandleRecord.address]
  rcases kindred.stands h member r live with owns | ⟨borrowed, _⟩
  · rw [owns]
  · rw [borrowed]

/-- As long as a handle of a family is live, an owner of the family is: following the keepers leads
there. -/
theorem live_owner (member : h ∈ family) (live : w.store.handles.contains h = true) :
    ∃ k ∈ family, ∃ r, w.store.handles.get? k = some r ∧ r.attachment = some x := by
  induction h using Nat.strong_induction_on with
  | _ h ih =>
    obtain ⟨r, found⟩ := Option.isSome_iff_exists.mp live
    rcases kindred.stands h member r found with owns | ⟨_, k, inside, kept, alive⟩
    · exact ⟨h, member, r, found, owns⟩
    · exact ih k ((kindred.orderly.books.handles h r found).2.2 k kept) inside alive

/-- As long as a handle of a family is live, the instance is there. -/
theorem there (member : h ∈ family) (live : w.store.handles.contains h = true) :
    w.store.There x := by
  obtain ⟨k, _, r, found, attached⟩ := kindred.live_owner member live
  exact kindred.orderly.there kindred.balanced found attached kindred.owns

/-- A run of a program that names nothing that was not made. -/
theorem run {α : Type} {p : Program α} {gives : Horizon → α → Prop} {outcome : Outcome α}
    (tame : p.Tame w.horizon gives) (ran : p.run (Session.calls depth) w = (outcome, w'))
    (balanced : w.Balanced → w'.Balanced) : Kindred w' x family := by
  have kept := tame (Session.stage depth) (Session.stage_tame depth) w kindred.orderly le_rfl
  have orderly := kept.onward.orderly
  rw [Session.stage_calls, ran] at orderly
  have anchors := World.kept_anchors.run (World.kept_anchors.session depth) p w
  have places := World.kept_places.run (World.kept_places.session depth) p w
  have backs := World.kept_backs.run (World.kept_backs.session depth) p w
  rw [ran] at anchors places backs
  exact kindred.later orderly balanced anchors places backs

/-- A step of the session. -/
theorem step (step : Script.Step)
    (balanced : w.Balanced → (Session.advance depth step w).2.Balanced) :
    Kindred (Session.advance depth step w).2 x family :=
  kindred.later (Session.advance_orderly depth step kindred.orderly) balanced
    (World.kept_anchors.advance
      (fun _ => World.anchors_of_store_eq rfl (Nat.le_refl _)) depth step w)
    (World.kept_places.advance
      (fun _ => World.places_of_eq (Nat.le_refl _) rfl rfl) depth step w)
    (World.kept_backs.advance
      (fun _ => ⟨World.endures_of_eq rfl rfl, fun _ _ backed => .inl backed⟩) depth step w)

/-- A program that derives a handle from a live handle of the family. -/
theorem derive_run {p : Program HandleId} {gives : Horizon → HandleId → Prop}
    (tame : source < w.horizon.1 → p.Tame w.horizon gives)
    (ran : p.run (Session.calls depth) w = (.done h, w')) (member : source ∈ family)
    (live : w.store.handles.contains source = true)
    (derives : (w.store.handle source).isBound = true →
      (w.store.handle source).address ≠ 0 →
      ∃ retains, Derives w w' source h info (w.store.handle source).address retains) :
    Kindred w' x (h :: family) := by
  obtain ⟨r, found⟩ := Option.isSome_iff_exists.mp live
  have record : w.store.handle source = r := by
    rw [Store.handle, found]
    rfl
  have address := kindred.address member found
  rw [record, address] at derives
  have bound : r.isBound = true := by
    rcases kindred.stands source member r found with owns | ⟨borrowed, _⟩
    · exact congrArg Option.isSome owns
    · exact congrArg Option.isSome borrowed
  obtain ⟨retains, derives⟩ := derives bound kindred.present
  have later := kindred.run (tame (kindred.known source member)) ran fun balanced a => by
    rw [derives.balance]
    exact balanced a
  exact later.derive member live derives

end Kindred

/-- A family stays one, whatever it is derived from and whatever runs. -/
theorem Family.kindred (members : Family depth w₀ owner family w)
    (start : Kindred w₀ x [owner]) : Kindred w x family := by
  induction members with
  | owner => exact start
  | cast before member live made ih =>
    exact ih.derive_run tame_cast made member live fun _ present => derives_cast present made
  | method before member live known flagged made ih =>
    exact ih.derive_run tame_bindMethod made member live fun bound present =>
      derives_bindMethod known flagged bound present made
  | run before tame ran balanced ih => exact ih.run tame ran balanced
  | step before step balanced ih => exact ih.step step balanced

/-- Temporaries are given back. -/
theorem Family.settle {mark : Nat} {kept : List Claim} (members : Family depth w₀ owner family w)
    (settled : w.settle mark kept = (.done (), w')) : Family depth w₀ owner family w' := by
  have goes : (request (.settle mark kept)).run (Session.calls depth) w = w.settle mark kept :=
    run_request
  have same := w.answer_instanceBalance (Session.calls depth) (r := .settle mark kept) rfl
  have after : w'.store.instanceBalance = w.store.instanceBalance :=
    (congrArg (fun result => result.2.store.instanceBalance) settled).symm.trans same
  refine members.run (tame_request (r := .settle mark kept) trivial) (goes.trans settled)
    fun balanced a => ?_
  rw [after]
  exact balanced a

/-- Evaluating a type with a handle of the family casts the handle. -/
theorem Family.eval {target : HandleId} {e : Entry} (members : Family depth w₀ owner family w)
    (member : source ∈ family) (live : w.store.handles.contains source = true)
    (on : OnTarget w target info e)
    (made : Succeeds (Session.calls depth) (Handle.eval target [.value (.handle source)]) w
      (.handle h) w') : Family depth w₀ owner (h :: family) w' := by
  rw [Succeeds, run_eval_cast on] at made
  obtain ⟨u, ran, settled⟩ := close_done.mp made
  obtain ⟨k, _, cast, last⟩ := run_bind_done.mp ran
  cases last
  exact (members.cast member live cast).settle settled

/-- Extracting what is a method binds it to the handle. -/
theorem Family.extract {name : String} {m : Token} {e f : Entry}
    (members : Family depth w₀ owner family w) (member : source ∈ family)
    (live : w.store.handles.contains source = true)
    (typed : (w.store.handle source).info = some info) (known : w.database.entry? info = some e)
    (single : ListCursor.isListType e = false)
    (resolves : Member.Resolves (Session.calls depth) w info name (.method m))
    (method : w.database.entry? m = some f)
    (flagged : f.callableFlags.contains CallableFlag.method = true)
    (made : Succeeds (Session.calls depth) (Handle.extract source name) w (.handle h) w') :
    Family depth w₀ owner (h :: family) w' := by
  obtain ⟨u, resolved⟩ : ∃ u, (Member.resolve info name).run.run (Session.calls depth) w
      = (.done (.ok (.method m)), u) := ⟨_, Prod.ext resolves rfl⟩
  rw [Succeeds, run_extract typed known single resolves, resolved] at made
  have took := Member.leaves_resolve (Session.calls depth) w w _ u (.refl w) resolved
  have store := took.reading.store
  have looked : Family depth w₀ owner family u :=
    members.run Member.reading_resolve.tame resolved fun balanced a => by
      rw [store]
      exact balanced a
  obtain ⟨u', ran, settled⟩ := close_done.mp made
  obtain ⟨k, _, bound, last⟩ := succeeds_bind.mp ran
  cases last
  have record : u.store.handle source = w.store.handle source := by
    rw [store]
    rfl
  rw [← record] at bound
  refine (looked.method member ?_ ?_ flagged (succeeds_lift.mp bound)).settle settled
  · rw [store]
    exact live
  · rw [took.rest]
    exact method

/-! ### Dropping -/

end Handle

/-- Dropping a root is the answer to a request. -/
theorem World.Kept.dropRoots {R : World → World → Prop} (kept : World.Kept R) (w : World)
    (roots : List Root) : R w (w.dropRoots roots).2 := by
  have along := kept.session 0
  have one (w : World) (root : Root) : R w (w.dropRoot root).2 := by
    cases root with
    | binding name => exact kept.answer along w (.unbind name)
    | setting name => exact kept.answer along w (.dropGlobal name)
    | temporary h =>
      have answered : (w.answer (Session.calls 0) (.letGo (.handle h))).2
          = (w.dropRoot (.temporary h)).2 := rfl
      exact answered ▸ kept.answer along w (.letGo (.handle h))
  induction roots generalizing w with
  | nil => exact kept.refl w
  | cons root rest ih => exact kept.trans (one w root) (ih (w.dropRoot root).2)

namespace Store

variable {s : Store} {k : HandleId}

/-- What a root holds is not held by the others. -/
theorem holders_uproot_le (s : Store) (root : Root) (p : Claim → Bool) :
    (s.uproot root).holders p + (s.rooted root).countP p ≤ s.holders p := by
  cases root with
  | binding name =>
    have forgotten := countP_forget_le name p s.bindings
    simp only [uproot, rooted, holders]
    omega
  | setting name =>
    have forgotten := countP_forget_le name p s.globals
    simp only [uproot, rooted, holders]
    omega
  | temporary h =>
    simp only [uproot, rooted, dropHeld, holders]
    split
    · next held =>
      have order := (List.perm_cons_erase (List.contains_iff_mem.mp held)).countP_eq p
      simp only [List.countP_cons, List.countP_nil] at order ⊢
      omega
    · have erased := (List.erase_sublist (a := .handle h) (l := s.held)).countP_le (p := p)
      rw [List.countP_nil]
      omega

/-- Dropping a root ends a handle only if nothing holds it any more. -/
theorem backed_drop (root : Root)
    (before : s.Backed [] k ∨ s.holders (· == .handle k) = 0) :
    (s.drop root).Backed [] k ∨ (s.drop root).holders (· == .handle k) = 0 := by
  have units := holders_uproot_le s root (· == .handle k)
  rcases before with backed | none
  · refine Backed.release (backed.moved ?_ units)
    cases root <;> rfl
  · have fewer := holders_release_le (s.rooted root) (s.uproot root) (· == .handle k)
    exact .inr (Nat.le_zero.mp (Nat.le_trans fewer (Nat.le_trans units (Nat.le_of_eq none))))

/-- Dropping a root lets go of handles. -/
theorem drop_held_block (root : Root) (s : Store) (a : Address) :
    (s.drop root).held.count (.block a) = s.held.count (.block a) := by
  rw [drop, release_held]
  cases root with
  | binding name | setting name => rfl
  | temporary h => exact List.count_erase_of_ne fun same => by cases same

end Store

namespace World

variable {w : World} {k : HandleId} {a : Address}

theorem backed_dropRoots (roots : List Root)
    (before : w.store.Backed [] k ∨ w.store.holders (· == .handle k) = 0) :
    (w.dropRoots roots).2.store.Backed [] k
      ∨ (w.dropRoots roots).2.store.holders (· == .handle k) = 0 := by
  induction roots generalizing w with
  | nil => exact before
  | cons root rest ih =>
    have dropped : (w.dropRoot root).2.store = w.store.drop root := by rw [dropRoot_eq]
    exact ih (w := (w.dropRoot root).2) (dropped ▸ Store.backed_drop root before)

theorem dropRoots_held_block (roots : List Root) (w : World) (a : Address) :
    (w.dropRoots roots).2.store.held.count (.block a) = w.store.held.count (.block a) := by
  induction roots generalizing w with
  | nil => rfl
  | cons root rest ih =>
    refine (ih (w.dropRoot root).2).trans ?_
    rw [dropRoot_eq]
    exact Store.drop_held_block root w.store a

/-- Dropping roots keeps a world orderly, and direct calls have no part in it. -/
theorem Orderly.after_dropRoots (orderly : w.Orderly) (balanced : w.Balanced) (roots : List Root) :
    (w.dropRoots roots).2.Orderly
      ∧ (w.dropRoots roots).2.store.instanceBalance = w.store.instanceBalance := by
  induction roots generalizing w with
  | nil => exact ⟨orderly, rfl⟩
  | cons root rest ih =>
    obtain ⟨_, after, same⟩ := orderly.dropRoot balanced root
    have balanced' : (w.dropRoot root).2.Balanced := fun a => by
      rw [same]
      exact balanced a
    obtain ⟨last, balance⟩ := ih after balanced'
    exact ⟨last, balance.trans same⟩

end World

namespace Handle

variable {depth : Nat} {w₀ w : World} {owner : HandleId} {x : Attachment} {family : List HandleId}

/-- A family and its instance. -/
structure Viewed (w : World) (x : Attachment) (family : List HandleId) : Prop where
  /-- The live handles of the family are on the instance. -/
  address : ∀ h ∈ family, ∀ r, w.store.handles.get? h = some r → r.address = x.address
  /-- As long as one of them is live, the instance is neither released nor freed. -/
  there : ∀ h ∈ family, w.store.handles.contains h = true → w.store.There x
  /-- Each live owner has a reference or a block of its own, and so had direct calls. -/
  counted : (∃ h ∈ family, w.store.handles.contains h = true) →
    (w.store.units x : Int) = w.store.taken x + w.store.owners x
  /-- There is at most one block to free. -/
  single : x.ownership = .block → w.store.units x ≤ 1

/-- What dropping roots does to a family and its instance. -/
structure Dropped (w w' : World) (x : Attachment) (family : List HandleId) : Prop
    extends Viewed w' x family where
  /-- A handle ends exactly when nothing holds it any more. -/
  held : ∀ h ∈ family, w.store.handles.contains h = true →
    (w'.store.handles.contains h = true ↔ 0 < w'.store.holders (· == .handle h))
  /-- As many references or blocks were given back as owners ended. -/
  once : w.store.units x + w'.store.owners x = w'.store.units x + w.store.owners x
  /-- The instance ends exactly when there is no owner any more, and nothing that direct calls
  took. -/
  last : (∃ h ∈ family, w.store.handles.contains h = true) →
    (w'.store.There x ↔ 0 < w'.store.taken x + w'.store.owners x)

/-- While a handle of a family is live, its block is held by no temporary. -/
theorem Kindred.unheld_block {a : Address} (kindred : Kindred w ⟨a, .block⟩ family)
    (live : ∃ h ∈ family, w.store.handles.contains h = true) :
    w.store.held.count (.block a) = 0 := by
  obtain ⟨h, member, alive⟩ := live
  obtain ⟨k, _, r, found, attached⟩ := kindred.live_owner member alive
  have some_owner := Store.owners_pos found attached
  have count := kindred.orderly.blocks_owners a
  have single := List.nodup_iff_count_le_one.mp kindred.placed.once a
  omega

theorem Kindred.viewed (kindred : Kindred w x family) : Viewed w x family where
  address _ member _ := kindred.address member
  there _ := kindred.there
  counted live := by
    have owns := kindred.owns
    obtain ⟨a, ownership⟩ := x
    cases ownership with
    | retained => exact kindred.orderly.references_owners kindred.balanced a
    | block =>
      have count := kindred.orderly.blocks_owners a
      rw [kindred.unheld_block live, Nat.zero_add] at count
      simp only [Store.units, Store.taken, count, Int.zero_add]
    | borrowed => exact absurd rfl owns
  single block := by
    obtain ⟨a, ownership⟩ := x
    cases block
    exact List.nodup_iff_count_le_one.mp kindred.placed.once a

/-- Dropping roots leaves a family what it is. -/
theorem Kindred.dropRoots (kindred : Kindred w x family) (roots : List Root) :
    Kindred (w.dropRoots roots).2 x family := by
  obtain ⟨orderly, balance⟩ := kindred.orderly.after_dropRoots kindred.balanced roots
  exact kindred.later orderly (fun balanced a => by rw [balance]; exact balanced a)
    (World.kept_anchors.dropRoots w roots) (World.kept_places.dropRoots w roots)
    (World.kept_backs.dropRoots w roots)

theorem Kindred.dropped (kindred : Kindred w x family) (roots : List Root) :
    Dropped w (w.dropRoots roots).2 x family := by
  have after := kindred.dropRoots roots
  obtain ⟨_, balance⟩ := kindred.orderly.after_dropRoots kindred.balanced roots
  refine
    { after.viewed with
      held := fun h member live => ⟨fun alive => ?_, fun holder => ?_⟩
      once := ?_
      last := fun live => ?_ }
  · obtain ⟨r, found⟩ := Option.isSome_iff_exists.mp alive
    have count := after.orderly.books.counted (.handle h)
    have shares := (after.orderly.books.handles h r found).1
    simp only [Store.counts, found, List.count_nil, Nat.add_zero] at count
    exact count ▸ shares
  · obtain ⟨r, found⟩ := Option.isSome_iff_exists.mp live
    have before := kindred.orderly.books.backed found
    rcases World.backed_dropRoots roots (.inl before) with backed | none
    · exact backed.live
    · exact absurd none (Nat.ne_of_gt holder)
  · have owns := kindred.owns
    obtain ⟨a, ownership⟩ := x
    cases ownership with
    | retained =>
      have before := kindred.orderly.references_owners kindred.balanced a
      have later := after.orderly.references_owners after.balanced a
      rw [balance] at later
      simp only [Store.units]
      omega
    | block =>
      have before := kindred.orderly.blocks_owners a
      have later := after.orderly.blocks_owners a
      rw [World.dropRoots_held_block] at later
      simp only [Store.units]
      omega
    | borrowed => exact absurd rfl owns
  · have owns := kindred.owns
    obtain ⟨a, ownership⟩ := x
    cases ownership with
    | retained =>
      have later := after.orderly.references_owners after.balanced a
      refine (after.orderly.live_iff a).trans ?_
      simp only [Store.taken]
      omega
    | block =>
      have later := after.orderly.blocks_owners a
      rw [World.dropRoots_held_block, kindred.unheld_block live] at later
      refine List.count_pos_iff.symm.trans ?_
      simp only [Store.taken]
      omega
    | borrowed => exact absurd rfl owns

end Handle
end ObjectBridge
