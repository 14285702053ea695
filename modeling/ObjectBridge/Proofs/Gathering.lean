import ObjectBridge.Proofs.Deeds
import ObjectBridge.Proofs.Lasting

/-!
# Gathering the arguments of a call

Before the host is called, its arguments are gathered as handles and values.  What this does to a
world is that it makes handles, each on top of the temporaries, and that it takes a reference for
each handle that retains its instance; nothing else that is counted changes except references to
entries, and all that was there stays as it was.
-/

namespace ObjectBridge

theorem Table.get?_insert_self {α : Type} (t : Table α) (key : Nat) (x : α) :
    (t.insert key x).get? key = some x := by
  by_cases known : key ∈ t.rows.map Prod.fst
  · have present : t.get? key ≠ none := fun absent =>
      (find_eq_none_iff key t.rows).mp absent known
    obtain ⟨y, found⟩ := Option.ne_none_iff_exists'.mp present
    rw [insert, dif_pos known, get?_set, if_pos rfl, found, Option.map_some]
  · rw [get?_insert t ((find_eq_none_iff key t.rows).mpr known), if_pos rfl]

/-- The instance that a claim is a reference to. -/
def Claim.instance? : Claim → Option Address
  | .reference a => some a
  | _ => none

/-- What is kept is on top of what is given back. -/
theorem Store.part_append (kept others : List Claim) :
    Store.part (kept ++ others) kept = (kept, others) := by
  induction kept with
  | nil => exact Store.part_nil others
  | cons c rest ih => simp [Store.part, ih]

namespace World

variable {w w₁ w₂ w' : World} {top newer older : List Claim} {taken earlier later : List Address}

/-- What gathering arguments does to a world: there are claims on top of the temporaries, a
reference was taken to each of some instances, and warnings may have been sent. -/
structure Gathers (w w' : World) (top : List Claim) (taken : List Address) : Prop where
  /-- The rest of the session is the same. -/
  frame : w' = { w with store := w'.store, memory := w'.memory, events := w'.events }
  /-- The claims are on top of the temporaries. -/
  held : w'.store.held = top ++ w.store.held
  /-- The connection records are the same. -/
  closures : w'.store.closures = w.store.closures
  /-- An instance only has more references. -/
  instances : ∀ a, w'.store.instances.get? a
    = (w.store.instances.get? a).map fun i => { i with references := i.references + taken.count a }
  /-- A handle only has more shares. -/
  handles : ∀ h < w.store.nextHandle, ∀ r, w.store.handles.get? h = some r →
    ∃ n, w'.store.handles.get? h = some { r with shares := n }
  /-- No number of a handle is given out again. -/
  fresh : w.store.nextHandle ≤ w'.store.nextHandle
  /-- The session itself took no reference to an instance. -/
  balance : w'.store.instanceBalance = w.store.instanceBalance

theorem Gathers.database (gathers : w.Gathers w' top taken) : w'.database = w.database := by
  rw [gathers.frame]

/-- A change that touches no instance and no handle. -/
theorem gathers_of_eq
    (frame : w' = { w with store := w'.store, memory := w'.memory, events := w'.events })
    (held : w'.store.held = top ++ w.store.held) (closures : w'.store.closures = w.store.closures)
    (instances : w'.store.instances = w.store.instances)
    (handles : w'.store.handles = w.store.handles)
    (fresh : w'.store.nextHandle = w.store.nextHandle)
    (balance : w'.store.instanceBalance = w.store.instanceBalance) : w.Gathers w' top [] where
  frame := frame
  held := held
  closures := closures
  instances a := by simp [instances]
  handles _ _ r live := ⟨r.shares, handles ▸ live⟩
  fresh := Nat.le_of_eq fresh.symm
  balance := balance

theorem Gathers.refl (w : World) : w.Gathers w [] [] := gathers_of_eq rfl rfl rfl rfl rfl rfl rfl

theorem Gathers.trans (first : w.Gathers w₁ older earlier) (second : w₁.Gathers w₂ newer later) :
    w.Gathers w₂ (newer ++ older) (earlier ++ later) where
  frame := by rw [second.frame, first.frame]
  held := by rw [second.held, first.held, List.append_assoc]
  closures := second.closures.trans first.closures
  instances a := by
    rw [second.instances, first.instances, Option.map_map]
    simp only [Function.comp_def, List.count_append, Nat.add_assoc]
  handles h below r live := by
    obtain ⟨n, between⟩ := first.handles h below r live
    obtain ⟨m, after⟩ := second.handles h (Nat.lt_of_lt_of_le below first.fresh) _ between
    exact ⟨m, after⟩
  fresh := Nat.le_trans first.fresh second.fresh
  balance := second.balance.trans first.balance

theorem Gathers.isLive (gathers : w.Gathers w' top taken) (a : Address) :
    w'.store.isLive a = w.store.isLive a := by
  rw [Store.isLive, Store.isLive, Table.contains, Table.contains, gathers.instances,
    Option.isSome_map]

theorem Gathers.references (gathers : w.Gathers w' top taken) {a : Address}
    (live : w.store.isLive a = true) :
    w'.store.references a = w.store.references a + taken.count a := by
  obtain ⟨i, found⟩ := Option.isSome_iff_exists.mp live
  rw [Store.references, Store.references, gathers.instances, found, Option.map_some]

/-- A handle stands for an instance and is typed by an entry. -/
def Stands (w : World) (h : HandleId) (info : Option Token) (attachment : Option Attachment) :
    Prop :=
  h < w.store.nextHandle
    ∧ ∃ n, w.store.handles.get? h = some { info := info, attachment := attachment, shares := n }

/-- What a handle stands for stays the same. -/
theorem Gathers.stands (gathers : w.Gathers w' top taken) {h : HandleId} {info : Option Token}
    {attachment : Option Attachment} (stands : w.Stands h info attachment) :
    w'.Stands h info attachment := by
  obtain ⟨below, _, live⟩ := stands
  obtain ⟨m, after⟩ := gathers.handles h below _ live
  exact ⟨Nat.lt_of_lt_of_le below gathers.fresh, m, after⟩

/-- Looking something up gathers entries. -/
theorem Looked.gathers (looked : w.Looked w') :
    ∃ top, (∀ c ∈ top, c.isEntry = true) ∧ w.Gathers w' top [] := by
  obtain ⟨top, reading⟩ := looked.reading
  refine ⟨top, reading.entries, gathers_of_eq ?_ reading.held ?_ ?_ ?_ ?_ ?_⟩
  · rw [looked.frame]
  all_goals rw [reading.store]

/-- Sending a warning. -/
theorem gathers_note (w : World) (event : Event) :
    w.Gathers { w with events := event :: w.events } [] [] :=
  gathers_of_eq rfl rfl rfl rfl rfl rfl rfl

/-- Giving back those of the temporaries that are entries. -/
theorem Gathers.settle (gathers : w.Gathers w' top taken) (kept : List Claim)
    (entries : ∀ c ∈ (Store.part top kept).2, c.isEntry = true) :
    (w'.settle w.store.held.length kept).1 = .done ()
      ∧ w.Gathers (w'.settle w.store.held.length kept).2 (Store.part top kept).1 taken
      ∧ ∀ h info attachment, w'.Stands h info attachment →
        (w'.settle w.store.held.length kept).2.Stands h info attachment := by
  have newer : w'.store.held.take (w'.store.held.length - w.store.held.length) = top := by
    rw [gathers.held, List.length_append, Nat.add_sub_cancel, List.take_left]
  have older : w'.store.held.drop (w'.store.held.length - w.store.held.length) = w.store.held := by
    rw [gathers.held, List.length_append, Nat.add_sub_cancel, List.drop_left]
  obtain ⟨ledger, released, _, _⟩ := release_entries entries
    { w'.store with held := (Store.part top kept).1 ++ w.store.held }
  have settled : w'.settle w.store.held.length kept
      = (.done (), { w' with store :=
          { w'.store with
            ledger := ledger
            held := (Store.part top kept).1 ++ w.store.held } }) := by
    simp only [World.settle, newer, older, World.withStore, World.release, released,
      Outcome.ofFaults]
  rw [settled]
  refine ⟨rfl, ⟨?_, rfl, gathers.closures, gathers.instances, gathers.handles, gathers.fresh,
    gathers.balance⟩, fun _ _ _ stands => stands⟩
  rw [gathers.frame]

/-- Taking a share of a handle. -/
theorem gathers_hold (w : World) (h : HandleId) :
    w.Gathers (w.withStore (w.store.hold (.handle h))) [.handle h] [] := by
  cases live : w.store.handles.get? h with
  | none =>
    have held : w.store.hold (.handle h) = { w.store with held := .handle h :: w.store.held } := by
      simp only [Store.hold, Store.claim, live]
    rw [held]
    exact gathers_of_eq rfl rfl rfl rfl rfl rfl rfl
  | some r =>
    have held : w.store.hold (.handle h) =
        { w.store with
          handles := w.store.handles.set h { r with shares := r.shares + 1 }
          held := .handle h :: w.store.held } := by
      simp only [Store.hold, Store.claim, live]
    rw [held]
    refine ⟨rfl, rfl, rfl, fun a => by simp [withStore], fun k _ q found => ?_, Nat.le_refl _, rfl⟩
    by_cases same : k = h
    · subst same
      rw [live] at found
      cases found
      exact ⟨r.shares + 1, by simp [withStore, Table.get?_set, live]⟩
    · exact ⟨q.shares, by simp [withStore, Table.get?_set, same, found]⟩

/-- Claiming an entry or a reference to an instance, whether it is live or not. -/
theorem gathers_claim (w : World) {c : Claim} (kind : c.isEntry = true ∨ ∃ a, c = .reference a) :
    w.Gathers (w.withStore (w.store.claim c)) [] c.instance?.toList := by
  cases c with
  | entry t => exact gathers_of_eq rfl rfl rfl rfl rfl rfl rfl
  | reference a =>
    cases live : w.store.instances.get? a with
    | none =>
      have claimed : w.store.claim (.reference a) = w.store := by simp only [Store.claim, live]
      rw [claimed]
      refine { Gathers.refl w with instances := fun b => ?_ }
      by_cases same : b = a
      · simp [withStore, same, live]
      · simp [withStore, Claim.instance?, Ne.symm same]
    | some i =>
      have claimed : w.store.claim (.reference a)
          = w.store.setInstance a { i with references := i.references + 1 } := by
        simp only [Store.claim, live, Store.setInstance]
      rw [claimed]
      refine ⟨rfl, rfl, rfl, fun b => ?_, fun _ _ r found => ⟨r.shares, found⟩, Nat.le_refl _, rfl⟩
      by_cases same : b = a
      · subst same
        simp [withStore, Store.setInstance, Table.get?_set, live, Claim.instance?]
      · simp [withStore, Store.setInstance, Table.get?_set, same, Claim.instance?, Ne.symm same]
  | _ => simp [Claim.isEntry] at kind

theorem gathers_claimAll {claims : List Claim}
    (kinds : ∀ c ∈ claims, c.isEntry = true ∨ ∃ a, c = .reference a) (w : World) :
    w.Gathers (w.withStore (w.store.claimAll claims)) [] (claims.filterMap Claim.instance?) := by
  induction claims generalizing w with
  | nil => exact .refl w
  | cons c rest ih =>
    have first := w.gathers_claim (kinds c List.mem_cons_self)
    have others := first.trans
      (ih (fun d member => kinds d (List.mem_cons_of_mem c member)) (w.withStore (w.store.claim c)))
    have counted : (c :: rest).filterMap Claim.instance?
        = c.instance?.toList ++ rest.filterMap Claim.instance? := by
      cases found : c.instance? <;> simp [found]
    rwa [counted]

/-- The instances to which a handle takes a reference. -/
def takenBy : Option Attachment → List Address
  | some ⟨a, .retained⟩ => [a]
  | _ => []

theorem filterMap_claims (info : Option Token) (attachment : Option Attachment) :
    (HandleRecord.claims { info := info, attachment := attachment }).filterMap Claim.instance?
      = takenBy attachment := by
  rcases attachment with _ | ⟨a, _ | _ | _⟩ <;> cases info <;> rfl

/-- Adding a handle that is not kept by another one and owns no block. -/
theorem gathers_addHandle (w : World) (info : Option Token) {attachment : Option Attachment}
    (unblocked : ∀ a, attachment ≠ some ⟨a, .block⟩) :
    let w' := w.withStore (w.store.addHandle { info := info, attachment := attachment }).2
    w.Gathers w' [.handle w.store.nextHandle] (takenBy attachment)
      ∧ w'.Stands w.store.nextHandle info attachment := by
  intro w'
  let r : HandleRecord := { info := info, attachment := attachment }
  have kinds : ∀ c ∈ r.claims, c.isEntry = true ∨ ∃ a, c = .reference a := by
    intro c member
    rcases HandleRecord.mem_claims member with
      ⟨a, rfl, _⟩ | ⟨a, _, block⟩ | ⟨t, rfl, _⟩ | ⟨k, _, keeper⟩
    · exact .inr ⟨a, rfl⟩
    · exact absurd block (unblocked a)
    · exact .inl rfl
    · cases keeper
  have claimed := gathers_claimAll kinds w
  rw [filterMap_claims info attachment] at claimed
  let between := w.withStore (w.store.claimAll r.claims)
  have made : w'.store.handles = between.store.handles.insert w.store.nextHandle r := rfl
  have number : between.store.nextHandle = w.store.nextHandle :=
    Store.claimAll_nextHandle r.claims w.store
  have added : between.Gathers w' [.handle w.store.nextHandle] [] := by
    refine ⟨rfl, rfl, rfl, fun a => by simp [w', withStore, between, Store.addHandle, r],
      fun h below q found => ⟨q.shares, ?_⟩, ?_, rfl⟩
    · rw [made, Table.get?_insert_of_ne (Nat.ne_of_lt (number ▸ below)), found]
    · rw [number]
      exact Nat.le_succ _
  have both := claimed.trans added
  rw [List.append_nil, List.append_nil] at both
  exact ⟨both, Nat.lt_succ_self _, 1, by rw [made, Table.get?_insert_self]⟩

/-- Making a handle on an instance that is live, if the handle retains it. -/
theorem gathers_openHandle (w : World) (info : Option Token) {attachment : Option Attachment}
    (unblocked : ∀ a, attachment ≠ some ⟨a, .block⟩)
    (live : ∀ a ∈ takenBy attachment, w.store.isLive a = true) :
    ∃ h w', w.openHandle info attachment none = (.done h, w')
      ∧ w.Gathers w' [.handle h] (takenBy attachment) ∧ w'.Stands h info attachment := by
  have added := w.gathers_addHandle info unblocked
  refine ⟨_, _, ?_, added⟩
  match attachment with
  | none | some ⟨a, .borrowed⟩ => rfl
  | some ⟨a, .retained⟩ => exact if_pos (live a (List.mem_singleton_self a))
  | some ⟨a, .block⟩ => exact absurd rfl (unblocked a)

end World

namespace Program

variable {α β : Type} {calls : Calls} {w w₁ w₂ w' : World} {p : Program α} {f : α → Program β}
  {x : α} {y : β} {warnings more : List Event} {top older newer : List Claim}
  {taken earlier later : List Address}

/-- A run that gathers, and whose only deeds are warnings. -/
structure Collects (calls : Calls) (p : Program α) (w : World) (warnings : List Event) (x : α)
    (w' : World) (top : List Claim) (taken : List Address) : Prop where
  /-- The run ends with the value. -/
  run : p.run calls w = (.done x, w')
  /-- The warnings are its deeds. -/
  deeds : (p.deeds calls w).map Prod.snd = warnings.map .note
  /-- It gathers. -/
  gathers : w.Gathers w' top taken

theorem collects_pure (calls : Calls) (w : World) (x : α) :
    (pure x : Program α).Collects calls w [] x w [] [] :=
  ⟨rfl, rfl, .refl w⟩

/-- Sending a warning. -/
theorem collects_note (calls : Calls) (w : World) (event : Event) :
    (request (.note event) : Program Unit).Collects calls w [event] ()
      { w with events := event :: w.events } [] [] where
  run := rfl
  deeds := rfl
  gathers := w.gathers_note event

theorem Collects.bind (first : p.Collects calls w warnings x w₁ older earlier)
    (rest : (f x).Collects calls w₁ more y w₂ newer later) :
    (p >>= f).Collects calls w (warnings ++ more) y w₂ (newer ++ older) (earlier ++ later) where
  run := by
    rw [run_bind, first.run]
    exact rest.run
  deeds := by
    rw [deeds_bind, first.run, List.map_append, first.deeds, rest.deeds, List.map_append]
  gathers := first.gathers.trans rest.gathers

theorem Collects.map (collects : p.Collects calls w warnings x w' top taken) (g : α → β) :
    (p >>= fun x => pure (g x)).Collects calls w warnings (g x) w' top taken := by
  have both := collects.bind (f := fun x => pure (g x)) (collects_pure calls w' (g x))
  rwa [List.append_nil warnings, List.append_nil taken] at both

theorem Passes.collects (passes : p.Passes calls w x w') (gathers : w.Gathers w' top taken) :
    p.Collects calls w [] x w' top taken :=
  ⟨passes.run, by rw [passes.quiet.deeds]; rfl, gathers⟩

/-- What is found is collected with references to entries on top of the temporaries. -/
theorem Finds.collects {post : α → Prop} (finds : p.Finds w post) (calls : Calls) :
    ∃ x w' top, p.Collects calls w [] x w' top [] ∧ (∀ c ∈ top, c.isEntry = true) ∧ post x := by
  obtain ⟨x, w', passes, looked, holds⟩ := finds calls w (.refl w)
  obtain ⟨top, entries, gathers⟩ := looked.gathers
  exact ⟨x, w', top, passes.collects gathers, entries, holds⟩

/-- From one world on, a program goes on as another one does from a later world, and until then it
has only sent warnings. -/
structure Warns (calls : Calls) (p : Program α) (w : World) (warnings : List Event) (q : Program α)
    (w' : World) : Prop where
  /-- Both end alike. -/
  run : p.run calls w = q.run calls w'
  /-- The warnings come before what the other one does. -/
  deeds : ∃ noted : List (World × Request),
    noted.map Prod.snd = warnings.map .note ∧ p.deeds calls w = noted ++ q.deeds calls w'

theorem Warns.trans {q q' : Program α} (first : p.Warns calls w warnings q w₁)
    (second : q.Warns calls w₁ more q' w₂) : p.Warns calls w (warnings ++ more) q' w₂ where
  run := first.run.trans second.run
  deeds := by
    obtain ⟨noted, same, before⟩ := first.deeds
    obtain ⟨noted', same', after⟩ := second.deeds
    exact ⟨noted ++ noted', by rw [List.map_append, List.map_append, same, same'],
      by rw [before, after, List.append_assoc]⟩

/-- What a run does after its warnings. -/
theorem Warns.does {q : Program α} (warns : p.Warns calls w warnings q w₁) :
    ∃ noted : List (World × Request), noted.map Prod.snd = warnings.map .note
      ∧ ∀ done outcome w₂, q.Does calls w₁ done outcome w₂ →
        p.Does calls w (noted ++ done) outcome w₂ := by
  obtain ⟨noted, same, before⟩ := warns.deeds
  exact ⟨noted, same, fun done outcome w₂ does =>
    ⟨warns.run.trans does.run, by rw [before, does.deeds]⟩⟩

theorem Collects.warns (collects : p.Collects calls w warnings x w' top taken) :
    (p >>= f).Warns calls w warnings (f x) w' where
  run := by rw [run_bind, collects.run]
  deeds := ⟨_, collects.deeds, by rw [deeds_bind, collects.run]⟩

/-- Giving the temporaries back that are references to entries. -/
theorem Collects.region (collects : p.Collects calls w warnings x w' top taken)
    (keep : α → List Claim) (entries : ∀ c ∈ (Store.part top (keep x)).2, c.isEntry = true) :
    ∃ w'', (region keep p).Collects calls w warnings x w'' (Store.part top (keep x)).1 taken
      ∧ ∀ h info attachment, w'.Stands h info attachment → w''.Stands h info attachment := by
  obtain ⟨settled, gathers, stands⟩ := collects.gathers.settle (keep x) entries
  refine ⟨_, ⟨?_, ?_, gathers⟩, stands⟩
  · rw [run_region, collects.run, close, settled, Outcome.map]
  · rw [deeds_region, collects.deeds]

/-- A region whose program first finds something and then gathers what its value keeps. -/
theorem Collects.region_bind (keep : β → List Claim) (first : p.Collects calls w [] x w₁ older [])
    (olderEntries : ∀ c ∈ older, c.isEntry = true)
    (rest : (f x).Collects calls w₁ warnings y w₂ (keep y ++ newer) taken)
    (newerEntries : ∀ c ∈ newer, c.isEntry = true) :
    ∃ w', (Program.region keep (p >>= f)).Collects calls w warnings y w' (keep y) taken
      ∧ ∀ h info attachment, w₂.Stands h info attachment → w'.Stands h info attachment := by
  have both := first.bind rest
  rw [List.append_assoc] at both
  have parted := Store.part_append (keep y) (newer ++ older)
  obtain ⟨w', settled, stands⟩ := both.region keep fun c member => by
    rw [parted] at member
    exact (List.mem_append.mp member).elim (newerEntries c) (olderEntries c)
  rw [parted] at settled
  exact ⟨w', settled, stands⟩

/-- A run that gathers what its value keeps, with references to entries below it, and that takes
references to some instances. -/
def Yields (calls : Calls) (p : Program α) (w : World) (keep : α → List Claim)
    (taken : List Address) (post : α → World → Prop) : Prop :=
  ∃ x w' entries, p.Collects calls w [] x w' (keep x ++ entries) taken
    ∧ (∀ c ∈ entries, c.isEntry = true) ∧ post x w'

variable {keep : α → List Claim} {post : α → World → Prop}

theorem yields_pure (calls : Calls) (w : World) (bare : keep x = []) (holds : post x w) :
    (pure x : Program α).Yields calls w keep [] post :=
  ⟨x, w, [], by rw [bare]; exact collects_pure calls w x, by simp, holds⟩

theorem Yields.weaken {post' : α → World → Prop} (yields : p.Yields calls w keep taken post)
    (holds : ∀ x w', post x w' → post' x w') : p.Yields calls w keep taken post' := by
  obtain ⟨x, w', entries, collects, only, given⟩ := yields
  exact ⟨x, w', entries, collects, only, holds x w' given⟩

/-- What follows a run that looks something up. -/
theorem Passes.yields {q : Program β} {g : β → Program α} {y : β}
    (passes : q.Passes calls w y w₁) (looked : w.Looked w₁)
    (rest : (g y).Yields calls w₁ keep taken post) : (q >>= g).Yields calls w keep taken post := by
  obtain ⟨older, olderEntries, gathers⟩ := looked.gathers
  obtain ⟨x, w₂, newer, collects, newerEntries, given⟩ := rest
  have both := (passes.collects gathers).bind collects
  rw [List.append_assoc] at both
  refine ⟨x, w₂, newer ++ older, both, fun c member => ?_, given⟩
  exact (List.mem_append.mp member).elim (newerEntries c) (olderEntries c)

/-- What follows something that is found. -/
theorem Finds.yields {q : Program β} {g : β → Program α} {found : β → Prop}
    (finds : q.Finds w found)
    (rest : ∀ y w₁, w.Looked w₁ → found y → (g y).Yields calls w₁ keep taken post) :
    (q >>= g).Yields calls w keep taken post := by
  obtain ⟨y, w₁, passes, looked, holds⟩ := finds calls w (.refl w)
  exact passes.yields looked (rest y w₁ looked holds)

/-- A region gives back what its value does not keep. -/
theorem Yields.region (yields : p.Yields calls w keep taken post)
    (stable : ∀ x w₁ w₂, (∀ h info attachment, World.Stands w₁ h info attachment →
      World.Stands w₂ h info attachment) → post x w₁ → post x w₂) :
    (region keep p).Yields calls w keep taken post := by
  obtain ⟨x, w₁, entries, collects, only, holds⟩ := yields
  have parted := Store.part_append (keep x) entries
  obtain ⟨w₂, settled, stands⟩ := collects.region keep (by rwa [parted])
  rw [parted] at settled
  exact ⟨x, w₂, [], by rwa [List.append_nil], by simp, stable x w₁ w₂ stands holds⟩

/-- Making a handle gives a value. -/
theorem yields_handle (calls : Calls) (w : World) (info : Option Token)
    (attachment : Option Attachment) (unblocked : ∀ a, attachment ≠ some ⟨a, .block⟩)
    (live : ∀ a ∈ World.takenBy attachment, w.store.isLive a = true) :
    ((request (.openHandle info attachment none) : Program HandleId) >>=
        fun h => pure (.handle h) : Program Value).Yields calls w Value.claims
      (World.takenBy attachment) fun v w' => ∃ h, v = .handle h ∧ w'.Stands h info attachment := by
  obtain ⟨h, w', opened, gathers, stands⟩ := w.gathers_openHandle info unblocked live
  have opens : (request (.openHandle info attachment none) : Program HandleId).Passes calls w h
      w' := passes_request rfl opened
  have value : (pure (.handle h) : Program Value).Passes calls w' (.handle h) w' := passes_pure
  exact ⟨.handle h, w', [], (opens.bind value).collects gathers, by simp, h, rfl, stands⟩

end Program

end ObjectBridge
