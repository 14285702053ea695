import ObjectBridge.Proofs.Converting
import ObjectBridge.Proofs.Sparing
import ObjectBridge.Proofs.Supporting

/-!
# What can be seen of a value

The number of a new handle depends on the handles that were made before it.  What can be seen of a
handle is the type and the instance that it stands for, and this much of a decoded value is
determined by the slot, the type database, memory and the types of the live instances.
-/

namespace ObjectBridge

/-- What can be seen of a value: of a handle its type and its instance, of anything else all. -/
inductive Shown where
  /-- A value that is no handle. -/
  | bare (v : Value)
  /-- A handle. -/
  | handle (info : Option Token) (attachment : Option Attachment)
  deriving DecidableEq

/-- The instances to which the handle that is seen has taken a reference. -/
def Shown.takes : Shown → List Address
  | .bare _ => []
  | .handle _ attachment => World.takenBy attachment

/-- What can be seen of a value. -/
def Value.shown (s : Store) : Value → Shown
  | .handle h => .handle (s.handle h).info (s.handle h).attachment
  | v => .bare v

/-- How a program ends, and what can be seen of its value. -/
def Bridge.shown (calls : Calls) (p : Bridge Value) (w : World) :
    Outcome (Except Failure Shown) :=
  (p.run.run calls w).1.map fun r => r.map (Value.shown (p.run.run calls w).2.store)

namespace World

variable {w w₁ w₂ : World}

/-- The type number of the live instance at an address. -/
def typeAt (w : World) (a : Address) : Option TypeNumber :=
  (w.store.instances.get? a).map Instance.number

/-- A world in which decoding a slot shows the same. -/
structure Resembles (w w' : World) : Prop where
  /-- The type database is the same. -/
  database : w'.database = w.database
  /-- Memory is the same. -/
  memory : w'.memory = w.memory
  /-- The live instances are the same, and of the same types. -/
  typeAt : w'.typeAt = w.typeAt

theorem Resembles.refl (w : World) : w.Resembles w := ⟨rfl, rfl, rfl⟩

theorem Resembles.trans (first : w.Resembles w₁) (second : w₁.Resembles w₂) : w.Resembles w₂ :=
  ⟨second.database.trans first.database, second.memory.trans first.memory,
    second.typeAt.trans first.typeAt⟩

theorem Looked.resembles (looked : w.Looked w₁) (memory : w₁.memory = w.memory) :
    w.Resembles w₁ :=
  ⟨looked.database, memory, funext fun a => by rw [World.typeAt, World.typeAt, looked.instances]⟩

theorem isLive_eq (w : World) (a : Address) : w.store.isLive a = (w.typeAt a).isSome := by
  rw [typeAt, Option.isSome_map, Store.isLive, Table.contains]

/-- A value is seen as something. -/
def Shows (w : World) (v : Value) : Shown → Prop
  | .bare u => v = u ∧ u.claims = []
  | .handle info attachment => ∃ h, v = .handle h ∧ w.Stands h info attachment

theorem Shows.shown {v : Value} {y : Shown} (shows : w.Shows v y) : v.shown w.store = y := by
  cases y with
  | bare u =>
    obtain ⟨rfl, bare⟩ := shows
    cases v with
    | handle h => cases bare
    | _ => rfl
  | handle info attachment =>
    obtain ⟨h, rfl, _, n, stood⟩ := shows
    rw [Value.shown, Store.handle, stood]
    rfl

theorem Shows.mono {v : Value} {y : Shown} (shows : w.Shows v y)
    (stands : ∀ h info attachment, w.Stands h info attachment → w₁.Stands h info attachment) :
    w₁.Shows v y := by
  cases y with
  | bare u => exact shows
  | handle info attachment =>
    obtain ⟨h, same, stood⟩ := shows
    exact ⟨h, same, stands h info attachment stood⟩

/-- A result is seen as something. -/
def ShowsResult (w : World) : Except Failure Value → Except Failure Shown → Prop
  | .ok v, .ok y => w.Shows v y
  | .error f, .error g => f = g
  | _, _ => False

theorem ShowsResult.shown {r : Except Failure Value} {y : Except Failure Shown}
    (shows : w.ShowsResult r y) : r.map (Value.shown w.store) = y := by
  match r, y with
  | .ok v, .ok y => exact congrArg Except.ok (Shows.shown shows)
  | .error f, .error g => exact congrArg Except.error shows

theorem ShowsResult.mono {r : Except Failure Value} {y : Except Failure Shown}
    (shows : w.ShowsResult r y)
    (stands : ∀ h info attachment, w.Stands h info attachment → w₁.Stands h info attachment) :
    w₁.ShowsResult r y := by
  match r, y with
  | .ok v, .ok y => exact Shows.mono shows stands
  | .error f, .error g => exact shows

end World

/-- How the values of a program are seen. -/
structure Sight (α β : Type) where
  /-- The claims that a value keeps. -/
  keep : α → List Claim
  /-- The instances to which it has taken a reference. -/
  takes : β → List Address
  /-- A value is seen as something. -/
  shows : World → α → β → Prop
  /-- What is seen depends on what the handles stand for. -/
  stable : ∀ x y w w', (∀ h info attachment, World.Stands w h info attachment →
    World.Stands w' h info attachment) → shows w x y → shows w' x y

/-- How values are seen. -/
def Value.sight : Sight Value Shown where
  keep := Value.claims
  takes := Shown.takes
  shows := World.Shows
  stable _ _ _ _ stands seen := World.Shows.mono seen stands

/-- How results are seen. -/
def Bridge.sight : Sight (Except Failure Value) (Except Failure Shown) where
  keep := Bridge.keepOk Value.claims
  takes
    | .ok y => y.takes
    | .error _ => []
  shows := World.ShowsResult
  stable _ _ _ _ stands seen := World.ShowsResult.mono seen stands

namespace Program

variable {α β γ : Type} {calls : Calls} {w w₁ : World} {sight : Sight α β} {o : Outcome β}

/-- A program ends as foreseen: it stops, or it ends with a value that is seen as foreseen and keeps
the only handle that was made. -/
def Foreseen (calls : Calls) (p : Program α) (w : World) (sight : Sight α β) : Outcome β → Prop
  | .done y => p.Yields calls w sight.keep (sight.takes y) fun x w' => sight.shows w' x y
  | .stopped why => ∃ w', p.run calls w = (.stopped why, w')

/-- A program ends as foreseen and leaves memory as it is. -/
structure Displays (calls : Calls) (p : Program α) (w : World) (sight : Sight α β)
    (o : Outcome β) : Prop where
  /-- It ends as foreseen. -/
  ends : p.Foreseen calls w sight o
  /-- Memory is left as it is. -/
  memory : (p.run calls w).2.memory = w.memory

theorem displays_pure {x : α} {y : β} (bare : sight.keep x = []) (free : sight.takes y = [])
    (seen : sight.shows w x y) : (pure x : Program α).Displays calls w sight (.done y) := by
  have yields : (pure x : Program α).Yields calls w sight.keep [] fun x w' => sight.shows w' x y :=
    yields_pure calls w bare seen
  rw [← free] at yields
  exact ⟨yields, rfl⟩

theorem Passes.displays {q : Program γ} {g : γ → Program α} {x : γ} (passes : q.Passes calls w x w₁)
    (looked : w.Looked w₁) (same : w₁.memory = w.memory)
    (rest : (g x).Displays calls w₁ sight o) : (q >>= g).Displays calls w sight o := by
  constructor
  · cases o with
    | done y => exact passes.yields looked rest.ends
    | stopped why =>
      obtain ⟨w', ran⟩ := rest.ends
      refine ⟨w', ?_⟩
      rw [run_bind, passes.run]
      exact ran
  · rw [run_bind, passes.run]
    exact rest.memory.trans same

/-- What follows something that is found by a program that leaves memory as it is. -/
theorem Finds.displays {q : Program γ} {g : γ → Program α} {found : γ → Prop}
    (finds : q.Finds w found) (spares : q.Spares)
    (rest : ∀ x w₁, w.Resembles w₁ → found x → (g x).Displays calls w₁ sight o) :
    (q >>= g).Displays calls w sight o := by
  obtain ⟨x, w₁, passes, looked, holds⟩ := finds calls w (.refl w)
  have memory := spares calls w
  rw [passes.run] at memory
  exact passes.displays looked memory (rest x w₁ (looked.resembles memory) holds)

/-- What follows a look at memory. -/
theorem displays_memory {g : Memory → Program α}
    (rest : (g w.memory).Displays calls w sight o) :
    (memory >>= g).Displays calls w sight o := by
  have looks : memory.Passes calls w w.memory w := passes_request rfl rfl
  exact looks.displays (.refl w) rfl rest

/-- Giving the temporaries back does not change what is seen. -/
theorem Displays.region {keep : α → List Claim} {p : Program α} (keeps : sight.keep = keep)
    (displays : p.Displays calls w sight o) : (region keep p).Displays calls w sight o := by
  subst keeps
  constructor
  · cases o with
    | done y => exact Yields.region displays.ends fun x => sight.stable x y
    | stopped why =>
      obtain ⟨w', ran⟩ := displays.ends
      exact ⟨w', by rw [run_region, ran, close]⟩
  · exact (memory_region _ p calls w).trans displays.memory

end Program

namespace Bridge

variable {calls : Calls} {w w₁ : World} {o : Outcome (Except Failure Shown)}

/-- A program that may fail ends as foreseen. -/
def Displays (calls : Calls) (p : Bridge Value) (w : World) :
    Outcome (Except Failure Shown) → Prop :=
  p.run.Displays calls w sight

theorem Displays.shown {p : Bridge Value} (displays : Displays calls p w o) :
    shown calls p w = o := by
  cases o with
  | done y =>
    obtain ⟨r, w', _, collects, _, seen⟩ := displays.ends
    rw [Bridge.shown, collects.run]
    exact congrArg Outcome.done (World.ShowsResult.shown seen)
  | stopped why =>
    obtain ⟨w', ran⟩ := displays.ends
    rw [Bridge.shown, ran]
    rfl

theorem displays_throw {f : Failure} :
    Displays calls (throw f : Bridge Value) w (.done (.error f)) :=
  Program.displays_pure rfl rfl rfl

theorem displays_pure {v : Value} (bare : v.claims = []) :
    Displays calls (pure v : Bridge Value) w (.done (.ok (.bare v))) :=
  Program.displays_pure bare rfl ⟨rfl, bare⟩

theorem displays_lift {p : Program Value} {o : Outcome Shown}
    (displays : p.Displays calls w Value.sight o) :
    Displays calls (liftM p : Bridge Value) w (o.map .ok) := by
  have lifted : (liftM p : Bridge Value).run = p >>= fun v => pure (.ok v) := rfl
  constructor
  · cases o with
    | done y =>
      obtain ⟨v, w', entries, collects, only, seen⟩ := displays.ends
      exact ⟨.ok v, w', entries,
        collects.map (Except.ok : Value → Except Failure Value), only, seen⟩
    | stopped why =>
      obtain ⟨w', ran⟩ := displays.ends
      exact ⟨w', by rw [lifted, Program.run_bind, ran]⟩
  · rw [lifted, Program.memory_bind_pure]
    exact displays.memory

theorem Displays.region {p : Bridge Value} (displays : Displays calls p w o) :
    Displays calls (region Value.claims p) w o := by
  rw [Displays, region_eq]
  exact Program.Displays.region rfl displays

/-- What follows something that is found without fail. -/
theorem displays_after {α : Type} {q : Program α} {g : α → Bridge Value} {found : α → Prop}
    (finds : q.Finds w found) (spares : q.Spares)
    (rest : ∀ x w₁, w.Resembles w₁ → found x → Displays calls (g x) w₁ o) :
    Displays calls (liftM q >>= g : Bridge Value) w o := by
  have lifted : (liftM q : Bridge α).run.Finds w fun r => ∃ x, r = .ok x ∧ found x :=
    finds.bind fun x holds => Program.finds_pure ⟨x, rfl, holds⟩
  refine Program.Finds.displays lifted (spares_lift spares) fun r w₁ resembles holds => ?_
  obtain ⟨x, rfl, holds⟩ := holds
  exact rest x w₁ resembles holds

/-- What follows a look at memory. -/
theorem displays_memory {g : Memory → Bridge Value} (rest : Displays calls (g w.memory) w o) :
    Displays calls (liftM Program.memory >>= g : Bridge Value) w o := by
  have looks : (liftM Program.memory : Bridge Memory).run.Passes calls w (.ok w.memory) w :=
    passes_lift (Program.passes_request rfl rfl)
  exact looks.displays (.refl w) rfl rest

/-- What follows a result that is found. -/
theorem Finds.displays {α : Type} {q : Bridge α} {g : α → Bridge Value} {x : α}
    (finds : Finds q w (· = .ok x)) (spares : Spares q)
    (rest : ∀ w₁, w.Resembles w₁ → Displays calls (g x) w₁ o) : Displays calls (q >>= g) w o := by
  refine Program.Finds.displays finds spares fun r w₁ resembles same => ?_
  cases same
  exact rest w₁ resembles

/-- A failure that is found is the end. -/
theorem Finds.displays_error {α : Type} {q : Bridge α} {g : α → Bridge Value} {f : Failure}
    (finds : Finds q w (· = .error f)) (spares : Spares q) :
    Displays calls (q >>= g) w (.done (.error f)) := by
  refine Program.Finds.displays finds spares fun r w₁ resembles same => ?_
  cases same
  exact displays_throw

end Bridge

open Program Descriptor

namespace World

variable {w w₁ : World} {a : Address} {declared t : Token} {slot : Slot}

/-- What is seen of a new handle on an address: only a live instance can be retained. -/
def handleShown (w : World) (info : Token) (a : Address) (retain : Bool) : Outcome Shown :=
  if retain then
    if (w.typeAt a).isSome then .done (.handle (some info) (some ⟨a, .retained⟩))
    else .stopped (.notLive a)
  else .done (.handle (some info) (some ⟨a, .borrowed⟩))

/-- What is seen of an instance: a live one has the type of its type number, if there is one. -/
def instanceShown (w : World) (a : Address) (declared : Token) (retain : Bool) : Outcome Shown :=
  if a = 0 then .done (.bare .nil)
  else w.handleShown (((w.typeAt a).bind w.database.typeOf?).getD declared) a retain

/-- What is seen of a record. -/
def recordShown (w : World) (a : Address) (declared : Token) : Outcome Shown :=
  if a = 0 then .done (.bare .nil)
  else
    let number? := (w.database.entry? declared).map Entry.number
    w.handleShown ((number?.bind w.database.typeOf?).getD declared) a (w.database.retains declared)

/-- What is seen of a slot in a shape of a type. -/
def shapeShown (w : World) (slot : Slot) (t : Token) : Codec.Shape → Outcome Shown
  | .void => .done (.bare .nil)
  | .boolean => .done (.bare (.int (if slot.toBool then 1 else 0)))
  | .scalar s => .done (.bare (Codec.decodeScalar s slot))
  | .enumeration format => .done (.bare (Codec.decodeScalar (.integer format) slot))
  | .text => .done (.bare (Codec.decodeText w.memory slot.address))
  | .array element zeroTerminated fixedSize =>
    .done (.bare (Codec.decodeArray w.memory slot.address (w.database.tagOf element)
      zeroTerminated fixedSize))
  | .object target => w.instanceShown slot.address target true
  | .interface target =>
    w.instanceShown slot.address target (slot.address ≠ 0 && (w.typeAt slot.address).isSome)
  | .record target _ => w.recordShown slot.address target
  | .callback => .done (.bare (if slot.address = 0 then .nil else .pointer slot.address))
  | .list =>
    .done (.handle (some t) (if slot.address = 0 then none else some ⟨slot.address, .borrowed⟩))

/-- What is seen of a slot under a type with an entry. -/
def decoding (w : World) (slot : Slot) (t : Token) (e : Entry) : Outcome (Except Failure Shown) :=
  match Codec.shapeFor w.database e with
  | .ok wanted => (w.shapeShown slot t wanted).map .ok
  | .error f => .done (.error f)

theorem Resembles.handleShown (resembles : w.Resembles w₁) :
    w₁.handleShown declared a = w.handleShown declared a := by
  funext retain
  simp only [World.handleShown, resembles.typeAt]

theorem Resembles.instanceShown (resembles : w.Resembles w₁) :
    w₁.instanceShown a declared = w.instanceShown a declared := by
  funext retain
  simp only [World.instanceShown, resembles.database, resembles.typeAt, resembles.handleShown]

theorem Resembles.recordShown (resembles : w.Resembles w₁) :
    w₁.recordShown a declared = w.recordShown a declared := by
  simp only [World.recordShown, resembles.database, resembles.handleShown]

theorem Resembles.shapeShown (resembles : w.Resembles w₁) (wanted : Codec.Shape) :
    w₁.shapeShown slot t wanted = w.shapeShown slot t wanted := by
  cases wanted <;>
    simp only [World.shapeShown, resembles.database, resembles.memory, resembles.typeAt,
      resembles.instanceShown, resembles.recordShown]

/-- In a world that resembles another one, the same is seen of a slot. -/
theorem Resembles.decoding (resembles : w.Resembles w₁) (e : Entry) :
    w₁.decoding slot t e = w.decoding slot t e := by
  unfold World.decoding
  rw [resembles.database]
  cases Codec.shapeFor w.database e with
  | ok wanted => exact congrArg (Outcome.map Except.ok) (resembles.shapeShown wanted)
  | error f => rfl

/-- Decoding only fails because a type is unsupported. -/
theorem unsupported_of_decoding {e : Entry} {f : Failure}
    (failed : w.decoding slot t e = .done (.error f)) : ∃ text, f = .unsupported text := by
  unfold World.decoding at failed
  cases shaped : Codec.shapeFor w.database e with
  | ok wanted =>
    rw [shaped] at failed
    dsimp only at failed
    cases seen : w.shapeShown slot t wanted <;> rw [seen] at failed <;> cases failed
  | error g =>
    rw [shaped] at failed
    cases failed
    exact Codec.unsupported_of_shapeFor shaped

end World

namespace Codec

variable {calls : Calls} {w : World} {a : Address} {t : Nat} {e : Entry} {slot : Slot}

/-- Making a handle with a reference of its own panics where there is no live instance. -/
theorem displays_retained {info : Token} (present : a ≠ 0) :
    (Handle.retained (some info) a >>= fun h => pure (.handle h) : Program Value).Displays calls w
      Value.sight (w.handleShown info a true) := by
  have opens : (Handle.retained (some info) a : Program HandleId)
      = request (.openHandle (some info) (some ⟨a, .retained⟩) none) := by
    rw [Handle.retained, if_neg present]
  refine ⟨?_, spares_handle calls w⟩
  rw [World.handleShown, if_pos rfl]
  cases live : (w.typeAt a).isSome with
  | true =>
    rw [opens]
    exact yields_handle calls w (some info) (some ⟨a, .retained⟩) (by simp) fun b member =>
      List.mem_singleton.mp member ▸ (w.isLive_eq a).trans live
  | false =>
    have dead : w.openHandle (some info) (some ⟨a, .retained⟩) none = (.stopped (.notLive a), w) :=
      if_neg (by rw [w.isLive_eq, live]; exact Bool.false_ne_true)
    have stops : (Handle.retained (some info) a : Program HandleId).run calls w
        = (.stopped (.notLive a), w) := by
      rw [opens]
      exact run_request.trans dead
    exact ⟨w, by rw [run_bind, stops]⟩

/-- Making a handle without a reference. -/
theorem displays_borrowed (calls : Calls) (w : World) (info : Token) (a : Address) :
    (Handle.borrowed (some info) a >>= fun h => pure (.handle h) : Program Value).Displays calls w
      Value.sight
      (.done (.handle (some info) (if a = 0 then none else some ⟨a, .borrowed⟩))) := by
  have free : World.takenBy (if a = 0 then none else some ⟨a, .borrowed⟩) = [] := by split <;> rfl
  have yields := yields_borrowed calls w (some info) a
  rw [← free] at yields
  exact ⟨yields, spares_handle calls w⟩

theorem displays_lent (calls : Calls) (w : World) (info : Token) (present : a ≠ 0) :
    (Handle.borrowed (some info) a >>= fun h => pure (.handle h) : Program Value).Displays calls w
      Value.sight (w.handleShown info a false) := by
  have bound := displays_borrowed calls w info a
  rwa [if_neg present] at bound

/-- The handle of an instance. -/
theorem displays_instance {retain : Bool} {declared : Token} :
    (wrapInstance a declared retain).Displays calls w Value.sight
      (w.instanceShown a declared retain) := by
  refine Displays.region rfl ?_
  unfold World.instanceShown
  by_cases null : a = 0
  · rw [if_pos null, if_pos null]
    exact displays_pure rfl rfl ⟨rfl, rfl⟩
  rw [if_neg null, if_neg null]
  refine finds_store.displays spares_store fun s w₁ resembles same => ?_
  have live : s.isLive a = (w₁.typeAt a).isSome := by
    rw [resembles.typeAt, ← w.isLive_eq, Store.isLive, same.1]
    rfl
  rw [← resembles.typeAt, ← resembles.database, ← resembles.handleShown]
  extract_lets give wrap
  have made (info : Token) {w₂ : World} (later : w₁.Resembles w₂) :
      (if retain then Handle.retained (some info) a >>= give
        else Handle.borrowed (some info) a >>= give).Displays calls w₂ Value.sight
        (w₁.handleShown info a retain) := by
    rw [← later.handleShown]
    cases retain with
    | true => exact displays_retained null
    | false => exact displays_lent calls w₂ info null
  have wrapped (actual? : Option Token) {w₂ : World} (later : w₁.Resembles w₂) :
      (wrap actual?).Displays calls w₂ Value.sight
        (w₁.handleShown (actual?.getD declared) a retain) := by
    cases actual? with
    | some actual =>
      exact finds_trace.displays spares_trace fun _ _ last _ => made actual (later.trans last)
    | none => exact made declared later
  rw [live]
  cases typed : w₁.typeAt a with
  | none => exact wrapped none (.refl w₁)
  | some number =>
    obtain ⟨i, found, rfl⟩ := Option.map_eq_some_iff.mp typed
    refine (finds_liveInstance found).displays (spares_request rfl) fun j w₂ next same => ?_
    cases same
    refine finds_registered.displays spares_registered fun actual? w₃ last registered => ?_
    have named : w₁.database.typeOf? i.number = actual? := by rw [registered, next.database]
    rw [Option.bind_some, named]
    exact wrapped actual? (next.trans last)

/-- The handle of a record. -/
theorem displays_record {declared : Token} (sound : w.database.Sound)
    (known : w.database.Has declared) :
    (wrapRecord a declared).Displays calls w Value.sight
      (w.recordShown a declared) := by
  obtain ⟨e, found⟩ := known.entry
  obtain ⟨f, info⟩ := (has_typeOf sound e.number known).entry
  have retains : w.database.retains declared = decide (f.kind = .object) := by
    simp only [Database.retains, found, info, Option.any_some]
  refine Displays.region rfl ?_
  unfold World.recordShown
  by_cases null : a = 0
  · rw [if_pos null, if_pos null]
    exact displays_pure rfl rfl ⟨rfl, rfl⟩
  rw [if_neg null, if_neg null, found, retains]
  refine (finds_entry found).displays spares_entry fun e' w₁ first same => ?_
  cases same
  refine finds_registered.displays spares_registered fun number? w₂ second registered => ?_
  have number : number? = w.database.typeOf? e.number := by rw [registered, first.database]
  have typed : w₂.database.entry? (number?.getD declared) = some f := by
    rw [number, second.database, first.database, info]
  refine (finds_entry typed).displays spares_entry fun f' w₃ third same => ?_
  cases same
  dsimp only [Option.map_some, Option.bind_some]
  rw [← number, ← ((first.trans second).trans third).handleShown]
  by_cases object : f.kind = .object
  · rw [if_pos object, decide_eq_true object]
    exact displays_retained null
  · rw [if_neg object, decide_eq_false object]
    exact displays_lent calls w₃ _ null

/-- The value of a slot in a shape. -/
theorem displays_shape (sound : w.database.Sound) (found : w.database.entry? t = some e)
    {wanted : Shape} (shaped : shapeFor w.database e = .ok wanted) :
    (decodeShape slot t wanted).Displays calls w Value.sight
      (w.shapeShown slot t wanted) := by
  have bare {v : Value} {w' : World} (none : v.claims = []) :
      (pure v : Program Value).Displays calls w' Value.sight (.done (.bare v)) :=
    displays_pure none rfl ⟨rfl, none⟩
  cases wanted with
  | text => exact displays_memory (bare (claims_decodeText w.memory slot.address))
  | array element zeroTerminated fixedSize =>
    obtain ⟨f, known⟩ := (has_of_reference sound.toLinked found
      (mem_references_of_part (mem_parts_of_shapeFor shaped))).entry
    refine displays_memory ((finds_entry known).displays spares_entry fun f' w₁ _ same => ?_)
    cases same
    rw [World.shapeShown, Database.tagOf, known]
    exact bare (claims_decodeArray w.memory _ _ _ _)
  | object target => exact displays_instance
  | interface target =>
    refine finds_store.displays spares_store fun s w₁ resembles same => ?_
    have live : s.isLive slot.address = (w.typeAt slot.address).isSome := by
      rw [← w.isLive_eq, Store.isLive, same.1]
      rfl
    rw [live, World.shapeShown, ← resembles.instanceShown]
    exact displays_instance
  | record target boxed =>
    obtain ⟨_, f, known, _⟩ := target_of_shapeFor shaped rfl
    exact displays_record sound (Database.has_of_entry known)
  | callback =>
    apply bare
    split <;> rfl
  | list => exact displays_borrowed calls w t slot.address
  | scalar s | enumeration format => exact bare (claims_decodeScalar _ slot)
  | void | boolean => exact bare rfl

/-- What is seen of a decoded slot. -/
theorem displays_decode (slot : Slot) (sound : w.database.Sound)
    (found : w.database.entry? t = some e) :
    Bridge.Displays calls (decode slot t) w (w.decoding slot t e) := by
  have shapes : Bridge.Finds (shape t) w (· = shapeFor w.database e) :=
    finds_shape sound.toLinked found
  apply Bridge.Displays.region
  unfold World.decoding
  cases shaped : shapeFor w.database e with
  | error f => exact Bridge.Finds.displays_error (shaped ▸ shapes) spares_shape
  | ok wanted =>
    refine Bridge.Finds.displays (shaped ▸ shapes) spares_shape fun w₁ first => ?_
    refine Bridge.displays_after finds_trace spares_trace fun _ w₂ second _ => ?_
    have resembles := first.trans second
    dsimp only
    rw [← resembles.shapeShown wanted]
    exact Bridge.displays_lift (displays_shape (resembles.database ▸ sound)
      (resembles.database ▸ found) (resembles.database ▸ shaped))

end Codec
end ObjectBridge
