import ObjectBridge.Proofs.GroundedWorlds
import ObjectBridge.Proofs.Resolving
import ObjectBridge.Proofs.Trails

/-!
# The entry table

However a database was assembled, its entries link to earlier entries.  So every walk from entry to
entry ends, later calls take nothing away from the entries that there are, and a session that is
given names of entries never asks for anything else: neither in its own steps nor, at any depth, in
the functions that they run.
-/

namespace ObjectBridge

/-- What is asked while a program of a session runs in a world: by the program itself, by a function
that it calls, or by a step that it performs.  Next to the request stand the depth and the world in
which it is answered. -/
inductive Program.Asks : {α : Type} → Nat → Program α → World → Nat → Request → World → Prop
  /-- The program asks first. -/
  | here {α : Type} {depth : Nat} {r : Request} {next : r.Reply → Program α} {w : World} :
      Asks depth (.ask r next) w depth r w
  /-- The program asks after a reply. -/
  | later {α : Type} {depth d : Nat} {r q : Request} {next : r.Reply → Program α} {w u v : World}
      {reply : r.Reply} (answered : w.answer (Session.calls depth) r = (.done reply, u))
      (rest : Asks depth (next reply) u d q v) : Asks depth (.ask r next) w d q v
  /-- A native function asks. -/
  | native {α : Type} {depth d : Nat} {callable : Token} {inputs outputs : List Slot} {q : Request}
      {next : NativeReply → Program α} {w v : World}
      (inside : Asks depth (Session.callNative callable inputs outputs) w.entering d q v) :
      Asks (depth + 1) (.ask (.invoke callable inputs outputs) next) w d q v
  /-- A host function asks. -/
  | host {α : Type} {depth d : Nat} {target : Script.Target} {arguments : List Value} {q : Request}
      {next : Except String Value → Program α} {w v : World}
      (inside : Asks depth (Session.callHost target arguments) w d q v) :
      Asks (depth + 1) (.ask (.callHost target arguments) next) w d q v
  /-- The host asks as it sets a global. -/
  | assign {α : Type} {depth d : Nat} {name : String} {value : Value} {q : Request}
      {next : Unit → Program α} {w v : World}
      (inside : Asks depth (Session.assignGlobal name value) w d q v) :
      Asks (depth + 1) (.ask (.assignGlobal name value) next) w d q v
  /-- A nested step asks. -/
  | step {α : Type} {depth d : Nat} {step : Script.Step} {q : Request} {next : Unit → Program α}
      {w v : World} (inside : Asks depth (Session.respond step).run w d q v) :
      Asks (depth + 1) (.ask (.perform step) next) w d q v

/-- What is asked while the steps of a session run, one after the other. -/
inductive Session.Asks (depth : Nat) :
    List Script.Step → World → Nat → Request → World → Prop
  /-- The first step asks. -/
  | now {step : Script.Step} {rest : List Script.Step} {w v : World} {d : Nat} {q : Request}
      (inside : (respond step).run.Asks depth { w with events := [] } d q v) :
      Asks depth (step :: rest) w d q v
  /-- A later step asks. -/
  | later {step : Script.Step} {rest : List Script.Step} {w v : World} {d : Nat} {q : Request}
      (behind : Asks depth rest (advance depth step w).2 d q v) :
      Asks depth (step :: rest) w d q v

/-- A request in a world of a session that started over a database: it names entries, and its answer
is not the panic of an unknown token. -/
structure Request.Safe (db : Database) (depth : Nat) (r : Request) (w : World) : Prop where
  /-- The database of the world is a later one. -/
  edited : db.Edited w.database
  /-- What the world names are entries. -/
  grounded : w.Grounded
  /-- So are the tokens of the request. -/
  tokens : ∀ t ∈ r.tokens, w.database.Has t
  /-- The answer is not the panic of an unknown token. -/
  answers : ∀ t, (w.answer (Session.calls depth) r).1 ≠ .stopped (.unknownEntry t)

theorem Request.Grounded.tokens {db : Database} {r : Request} (grounded : r.Grounded db) :
    ∀ t ∈ r.tokens, db.Has t := by
  cases r with
  | setDatabase later | stop why => exact List.forall_mem_nil _
  | _ => exact grounded

theorem Request.Safe.since {db later : Database} {depth : Nat} {r : Request} {w : World}
    (safe : r.Safe later depth w) (edited : db.Edited later) : r.Safe db depth w :=
  { safe with edited := edited.trans safe.edited }

/-- Whatever is asked while a grounded program runs is safe. -/
theorem Program.Asks.safe {α : Type} {p : Program α} {depth d : Nat} {q : Request} {w v : World}
    (asks : p.Asks depth w d q v) {gives : Database → α → Prop}
    (program : p.Grounded gives w.database) (grounded : w.Grounded) : q.Safe w.database d v := by
  induction asks with
  | here =>
    exact
      { edited := .refl _
        grounded := grounded
        tokens := program.1.tokens
        answers := (grounded.answer (Session.calls_grounded _) program.1).stops }
  | @later _ depth _ _ _ _ _ _ _ _ answered _ ih =>
    have first := grounded.answer (Session.calls_grounded depth) program.1
    rw [answered] at first
    obtain ⟨leads, given⟩ := first.gives _ rfl
    exact (ih (program.2 _ _ leads given) first.grounded).since first.edited
  | @native _ _ _ callable _ _ _ _ w _ _ ih =>
    have known : w.entering.database.Has callable :=
      w.entering_database.symm ▸ program.1 callable List.mem_cons_self
    rw [← w.entering_database]
    exact ih (Session.grounded_callNative grounded.entering.sound known) grounded.entering
  | host _ ih => exact ih (Session.grounded_callHost grounded.sound.toLinked) grounded
  | assign _ ih => exact ih (Session.grounded_assignGlobal grounded.sound.toLinked) grounded
  | step _ ih => exact ih (Session.grounded_respond grounded.sound) grounded

/-- Whatever is asked in a session that starts grounded is safe. -/
theorem Session.Asks.safe {depth d : Nat} {steps : List Script.Step} {q : Request} {w v : World}
    (asks : Session.Asks depth steps w d q v) (grounded : w.Grounded) : q.Safe w.database d v := by
  induction asks with
  | now inside => exact inside.safe (grounded_respond grounded.sound) grounded.cleared
  | later _ ih =>
    obtain ⟨edited, after⟩ := grounded_advance depth _ grounded
    exact (ih after).since edited

/-- A session that never asks for anything but entries, and leaves a world of which this is true
again. -/
structure Session.Safe (depth : Nat) (steps : List Script.Step) (w : World) : Prop where
  /-- What is asked is safe. -/
  requests : ∀ d q v, Session.Asks depth steps w d q v → q.Safe w.database d v
  /-- The database is a later one. -/
  edited : w.database.Edited (advanceAll depth steps w).2.database
  /-- What the world names are entries of it. -/
  grounded : (advanceAll depth steps w).2.Grounded

theorem Session.safe (depth : Nat) (steps : List Script.Step) {w : World} (grounded : w.Grounded) :
    Session.Safe depth steps w := by
  induction steps generalizing w with
  | nil => exact ⟨fun _ _ _ asks => asks.safe grounded, .refl _, grounded⟩
  | cons step rest ih =>
    obtain ⟨edited, after⟩ := grounded_advance depth step grounded
    have last := ih after
    exact ⟨fun _ _ _ asks => asks.safe grounded, edited.trans last.edited, last.grounded⟩

namespace Database

variable {db later : Database} {t : Nat} {path : List Token}

/-- Everything that the table refers to is an entry, and what an entry links to is an earlier
one. -/
structure Whole (db : Database) : Prop where
  /-- The parent, the target and the types of an entry. -/
  links : ∀ (t : Nat) e, db.entry? t = some e → ∀ u ∈ e.links, db.Has u ∧ u < t
  /-- The members. -/
  members : ∀ (t : Nat) e, db.entry? t = some e → ∀ m ∈ e.members, db.Has m.2
  /-- The entries that type numbers stand for. -/
  registered : ∀ n t, db.registered? n = some t → db.Has t

/-- A walk from an entry comes to entries only, to none of them twice, and to no more of them than
its token says. -/
structure Ends (db : Database) (next : Token → Option Token) (t : Token) (path : List Token) :
    Prop where
  /-- The walk follows the path. -/
  trail : Trail next t path
  /-- It comes to entries only. -/
  entries : ∀ u ∈ path, db.Has u
  /-- It comes to no entry twice. -/
  nodup : path.Nodup
  /-- It ends in time. -/
  short : path.length ≤ t

/-- The walks of the bridge and of the runtime from an entry up through its parents. -/
structure Climbs (db : Database) (t : Token) (path : List Token) : Prop
    extends db.Ends db.parentOf? t path where
  /-- The search of the runtime, however far it may go beyond. -/
  ancestry : ∀ limit, t ≤ limit → db.ancestry limit (some t) = path
  /-- The chain of a type number. -/
  chain : ∀ n, db.registered? n = some t → db.chain n = path
  /-- The walk of the bridge, however far it may go beyond, if asking takes nothing away. -/
  walk : ∀ {α : Type} (keep : α → List Claim) (probe : Token → Program (Option α)) calls,
    (∀ u ∈ path, ∀ w : World, db.Persists w.database →
      db.Persists ((probe u).run calls w).2.database) →
    ∀ limit, t ≤ limit → ∀ w : World, db.Persists w.database →
      (Descriptor.walkWithin keep probe limit t).run calls w
        = (Descriptor.visit keep probe path).run calls w

/-- The readings of the name of an entry. -/
structure Spells (db : Database) (t : Token) (path : List Token) : Prop
    extends db.Ends db.targetOf? t path where
  /-- The name is read along the path, however far the reading may go beyond. -/
  reading : ∀ limit, t ≤ limit → ∀ calls (w : World), w.database = db →
    (Descriptor.qualifiedNameWithin limit t).run calls w = (Descriptor.nameAlong path).run calls w
  /-- What is read is the name of the last entry there. -/
  name : ∀ calls (w : World), w.database = db → ∃ u ∈ path.getLast?, ∃ e, db.entry? u = some e
    ∧ ∃ w', (Descriptor.qualifiedName t).run calls w = (.done e.ownName, w') ∧ w'.database = db
  /-- Tracing the name reads it in the same way. -/
  traced : World.namePath db t t = path.tail

theorem Sound.whole (sound : db.Sound) : db.Whole where
  links _ _ found _ member := ⟨sound.has_link found member, (sound.links found member).2⟩
  members := sound.members
  registered _ _ taken := sound.has_registered taken

/-- A walk that leads to earlier entries ends. -/
theorem Has.ends {next : Token → Option Token} (known : db.Has t)
    (below : ∀ t u : Nat, next t = some u → 0 < u ∧ u < t) : ∃ path, db.Ends next t path := by
  obtain ⟨path, trail⟩ := Trail.exists_of_below below t
  exact ⟨path, trail, has_of_trail below trail known, trail.nodup below,
    trail.length_le below known.1⟩

theorem Has.climbs (known : db.Has t) (linked : db.Linked) : ∃ path, db.Climbs t path := by
  obtain ⟨path, ends⟩ := known.ends linked.parentOf_below
  have ancestry (limit : Nat) (far : t ≤ limit) : db.ancestry limit (some t) = path :=
    ancestry_of_trail ends.trail (Nat.le_trans ends.short far)
  refine ⟨path, ends, ancestry, ?_, ?_⟩
  · intro n registered
    rw [Database.chain, registered]
    exact ancestry _ known.2
  · intro α keep probe calls steady limit far w
    exact Descriptor.run_walkWithin ends.trail ends.entries steady (Nat.le_trans ends.short far) w

theorem Has.spells (known : db.Has t) (linked : db.Linked) : ∃ path, db.Spells t path := by
  obtain ⟨path, ends⟩ := known.ends linked.targetOf_below
  have reading {limit : Nat} (far : t ≤ limit) (calls : Calls) (w : World)
      (same : w.database = db) :
      (Descriptor.qualifiedNameWithin limit t).run calls w
        = (Descriptor.nameAlong path).run calls w :=
    Descriptor.run_qualifiedNameWithin ends.trail (Nat.le_trans ends.short far) w same
  refine ⟨path, ends, fun _ => reading, fun calls w same => ?_, ?_⟩
  · obtain ⟨name, w', passes, looked, u, last, e, found, rfl⟩ :=
      Descriptor.finds_nameAlong ends.trail (same.symm ▸ ends.entries) calls w (.refl w)
    refine ⟨u, last, e, same ▸ found, w', ?_, looked.database.trans same⟩
    exact (reading (Nat.le_succ t) calls w same).trans passes.run
  · exact namePath_of_trail ends.trail (Nat.le_succ_of_le ends.short)

/-- A walk starts at an entry. -/
theorem Ends.has {next : Token → Option Token} (ends : db.Ends next t path) : db.Has t := by
  obtain ⟨_, rest⟩ := ends.trail.head
  exact ends.entries t (rest ▸ List.mem_cons_self)

/-- Walks go later as they went. -/
theorem Ends.lasts {f : Entry → Option Token}
    (ends : db.Ends (fun t => (db.entry? t).bind f) t path) (persists : db.Persists later)
    (lasting : Entry.Lasting f) : Trail (fun t => (later.entry? t).bind f) t path :=
  ends.trail.congr fun u member => persists.lasts lasting (ends.entries u member)

theorem Climbs.lasts (climbs : db.Climbs t path) (persists : db.Persists later)
    (linked : later.Linked) : later.Climbs t path := by
  obtain ⟨path', climbs'⟩ := (persists.has climbs.has).climbs linked
  have same := climbs'.trail.unique (Ends.lasts climbs.toEnds persists Entry.lasting_parent)
  exact same ▸ climbs'

theorem Spells.lasts (spells : db.Spells t path) (persists : db.Persists later)
    (linked : later.Linked) : later.Spells t path := by
  obtain ⟨path', spells'⟩ := (persists.has spells.has).spells linked
  have same := spells'.trail.unique (Ends.lasts spells.toEnds persists Entry.lasting_target)
  exact same ▸ spells'

/-- A later database in which the entries mean what they meant. -/
structure Preserves (db later : Database) : Prop extends db.Persists later where
  /-- The walks up from an entry are the same. -/
  climbs : ∀ t path, db.Climbs t path → later.Climbs t path
  /-- So are the readings of its name. -/
  spells : ∀ t path, db.Spells t path → later.Spells t path

theorem Edited.preserves (edited : db.Edited later) (sound : db.Sound) : db.Preserves later := by
  have persists := edited.persists sound
  have linked := (edited.sound sound).toLinked
  constructor
  · exact persists
  · exact fun t path climbs => climbs.lasts persists linked
  · exact fun t path spells => spells.lasts persists linked

/-- In every database that calls assemble the entry table is whole: walks from an entry end, entries
keep their meaning under later calls, and no session that is given names of entries ever meets an
unknown token. -/
theorem Assembled.integrity (assembled : db.Assembled) :
    db.Whole
      ∧ (∀ t, db.Has t → (∃ path, db.Climbs t path) ∧ ∃ path, db.Spells t path)
      ∧ (∀ later, db.Edited later → db.Preserves later)
      ∧ ∀ options bench, bench.Grounded db → ∀ depth steps,
          Session.Safe depth steps (Session.opening options db bench) := by
  have sound := assembled.sound
  refine ⟨sound.whole, ?_, ?_, ?_⟩
  · intro t known
    exact ⟨known.climbs sound.toLinked, known.spells sound.toLinked⟩
  · intro later edited
    exact edited.preserves sound
  · intro options bench known depth steps
    exact Session.safe depth steps (Session.grounded_opening options sound known)

/-- A type whose instances start out floating, with a type that descends from it. -/
def sampleFloating : Database := Member.sampleDatabase.setFloating 1

theorem sampleFloating_assembled : sampleFloating.Assembled :=
  Member.sampleDatabase_built.assembled.trans (Edits.float (by decide +kernel)).edited

/-- Look whether an entry is named `Base`. -/
def sampleProbe (t : Token) : Program (Option Token) := do
  let e ← Program.entry t
  return if e.name = some "Base" then some t else none

theorem sampleProbe_still (calls : Calls) (t : Token) (w : World) :
    ((sampleProbe t).run calls w).2 = w := by
  have looked : (Program.entry t).run calls w = w.answer calls (.entry t) := Program.run_request
  rw [sampleProbe, Program.run_bind, looked, World.answer]
  cases w.database.entry? t with
  | some e => rfl
  | none => rfl

theorem integrity_sample :
    (Descriptor.walk Descriptor.claims sampleProbe 2).run (Session.calls 0)
        { database := sampleFloating }
      = (Descriptor.visit Descriptor.claims sampleProbe [2, 1]).run (Session.calls 0)
          { database := sampleFloating }
    ∧ sampleFloating.Preserves (sampleFloating.addVfunc 1 "paint").2
    ∧ Request.Safe sampleFloating 0 (.entry 2)
        (Session.opening {} sampleFloating { identifiers := [("child", 2)] }) := by
  obtain ⟨_, walks, preserves, sessions⟩ := sampleFloating_assembled.integrity
  refine ⟨?_, ?_, ?_⟩
  · obtain ⟨path, climbs⟩ := (walks 2 (by decide +kernel)).1
    have ancestors : sampleFloating.ancestry 2 (some 2) = [2, 1] := by decide +kernel
    rw [climbs.ancestry 2 (Nat.le_refl 2)] at ancestors
    subst ancestors
    refine climbs.walk Descriptor.claims sampleProbe (Session.calls 0) (fun u _ w there => ?_) 3
      (by decide) _ (.refl _)
    rwa [sampleProbe_still]
  · exact preserves _ (Edits.build (.vfunc "paint" (by decide +kernel))).edited
  · have known : Bench.Grounded sampleFloating { identifiers := [("child", 2)] } := by
      intro row member
      rw [List.mem_singleton.mp member]
      decide +kernel
    have safe := sessions {} _ known 0 [.query (.existing "child") .kind]
    exact safe.requests 0 (.entry 2) _ (.now (.later rfl .here))

end Database
end ObjectBridge
