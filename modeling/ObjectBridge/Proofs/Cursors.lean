import ObjectBridge.Proofs.Chains
import ObjectBridge.Proofs.Displaying

/-!
# Moving along a list

A handle on a node of a list is asked for its datum, its neighbours and the number of nodes behind
it.  What is seen of the answers is in the node, and following the next node some times leads to the
node that lies as many places further in the chain; on the way only handles are made.
-/

namespace ObjectBridge

open Program Bridge Descriptor

variable {calls : Calls} {w w₁ : World} {h : HandleId} {info : Token} {e : Entry}
  {a b : Address} {nodes : List Address} {o : Outcome (Except Failure Shown)}

namespace World

/-- The element type of a list type, with its entry. -/
def elementOf (w : World) (e : Entry) : Option (Token × Entry) :=
  e.parts[0]?.bind fun element => (w.database.entry? element).map (element, ·)

/-- What is seen of the datum of a node. -/
def datumShown (w : World) (e : Entry) (a : Address) : Outcome (Except Failure Shown) :=
  match w.elementOf e with
  | some (element, f) => w.decoding (.ofAddress a) element f
  | none => .done (.error (.unsupported "list without element type"))

theorem elementOf_eq (sound : w.database.Sound) (known : w.database.entry? info = some e)
    {element : Token} (listed : e.parts[0]? = some element) :
    ∃ f, w.database.entry? element = some f ∧ w.elementOf e = some (element, f) := by
  obtain ⟨f, found⟩ := (Codec.has_of_reference sound.toLinked known
    (Codec.mem_references_of_part (List.mem_of_getElem? listed))).entry
  exact ⟨f, found, by rw [elementOf, listed, Option.bind_some, found, Option.map_some]⟩

theorem Resembles.datumShown (resembles : w.Resembles w₁) :
    w₁.datumShown e a = w.datumShown e a := by
  simp only [World.datumShown, World.elementOf, resembles.database, resembles.decoding]

end World

namespace ListCursor

/-- What is seen of a cursor on a neighbour. -/
def neighbourShown (info : Token) (a : Address) : Shown :=
  if a = 0 then .bare .nil else .handle (some info) (some ⟨a, .borrowed⟩)

theorem displays_neighbour : (neighbour info a).Displays calls w Value.sight
    (.done (neighbourShown info a)) := by
  unfold neighbour neighbourShown
  split
  · exact Program.displays_pure rfl rfl ⟨rfl, rfl⟩
  · next present =>
    have bound := Codec.displays_borrowed calls w info a
    rwa [if_neg present] at bound

/-- What is seen of the datum of a node is what is seen of its decoding under the element type. -/
theorem displays_datum (sound : w.database.Sound) (known : w.database.entry? info = some e) :
    Bridge.Displays calls (decodeDatum info a) w (w.datumShown e a) := by
  apply Bridge.Displays.region
  have part : (Descriptor.part? info 0).Finds w (· = e.parts[0]?) :=
    (finds_entry known).next finds_take
  refine displays_after part spares_part fun element? w₁ resembles same => ?_
  cases same
  rw [World.datumShown]
  cases listed : e.parts[0]? with
  | none =>
    rw [World.elementOf, listed]
    exact displays_throw
  | some element =>
    obtain ⟨f, found, element_eq⟩ := World.elementOf_eq sound known listed
    rw [element_eq]
    dsimp only
    rw [← resembles.decoding]
    exact Codec.displays_decode _ (resembles.database ▸ sound) (resembles.database ▸ found)

/-- A part of a cursor, where memory and the entry of the list type are known. -/
def value (head : Address) (info : Token) (e : Entry) (m : Memory) : Part → Bridge Value
  | .size => do
    let found ← ListCursor.nodes m head
    return .int (Int64.ofInt found.length)
  | .data => if head = 0 then throw .emptyList else decodeDatum info (datum m head)
  | .next => if head = 0 then throw .emptyList else neighbour info (next m head)
  | .previous =>
    if head = 0 then throw .emptyList
    else if e.tag ≠ .glist then throw .noPrevious
    else neighbour info (previous m head)

/-- A handle on a node of a list; the null address stands for the empty list. -/
structure OnNode (w : World) (h : HandleId) (info : Token) (e : Entry) (a : Address) : Prop where
  /-- The entry that types the handle. -/
  typed : (w.store.handle h).info = some info
  /-- The address of the node. -/
  address : (w.store.handle h).address = a
  /-- The entry is known. -/
  known : w.database.entry? info = some e
  /-- It is a list type. -/
  list : isListType e = true

/-- A program that first looks at the handle and at its type. -/
theorem OnNode.displays (on : OnNode w h info e a)
    {g : HandleRecord → Token → Entry → Bridge Value}
    (rest : ∀ w₁, w.Resembles w₁ → Bridge.Displays calls (g (w.store.handle h) info e) w₁ o) :
    Bridge.Displays calls (do
      let r ← handleRecord h
      let info ← Handle.typed r
      let e ← entry info
      g r info e) w o := by
  refine displays_after finds_handleRecord spares_handleRecord fun r w₁ first same => ?_
  cases same
  have given : Bridge.Finds (Handle.typed (w.store.handle h)) w₁ (· = .ok info) := by
    rw [Handle.typed, on.typed]
    exact Bridge.finds_pure rfl
  refine given.displays Handle.spares_typed fun w₂ second => ?_
  have resembles := first.trans second
  have known : w₂.database.entry? info = some e := resembles.database ▸ on.known
  refine displays_after (finds_entry known) spares_entry fun e' w₃ third same => ?_
  cases same
  exact rest w₃ (resembles.trans third)

/-- What is seen of a part of a cursor. -/
theorem OnNode.displays_part (on : OnNode w h info e a) {name : String} (wanted : Part)
    (named : ListCursor.part? name = some wanted)
    (rest : ∀ w₁, w.Resembles w₁ →
      Bridge.Displays calls (value a info e w.memory wanted) w₁ o) :
    Bridge.Displays calls (Handle.extract h name) w o := by
  refine Bridge.Displays.region (on.displays fun w₁ first => ?_)
  rw [if_pos on.list, on.address, extract, named]
  have known : w₁.database.entry? info = some e := first.database ▸ on.known
  refine displays_after (finds_entry known) spares_entry fun e' w₂ second same => ?_
  cases same
  have resembles := first.trans second
  have goes := rest w₂ resembles
  rw [← resembles.memory] at goes
  refine Bridge.displays_memory ?_
  cases wanted <;> exact goes

/-- The size is the number of nodes of the chain. -/
theorem OnNode.displays_size (calls : Calls) (on : OnNode w h info e a)
    (chain : Chain w.memory a nodes) :
    Bridge.Displays calls (Handle.extract h "size") w
      (.done (.ok (.bare (.int (Int64.ofInt nodes.length))))) := by
  apply on.displays_part .size rfl
  intro w₁ _
  rw [value, ListCursor.nodes, chain.nodes? chain.length_le]
  exact Bridge.displays_pure rfl

theorem OnNode.displays_next (calls : Calls) (on : OnNode w h info e a) (present : a ≠ 0) :
    Bridge.Displays calls (Handle.extract h "next") w
      (.done (.ok (neighbourShown info (next w.memory a)))) := by
  apply on.displays_part .next rfl
  intro w₁ _
  rw [value, if_neg present]
  exact Bridge.displays_lift displays_neighbour

theorem OnNode.displays_previous (calls : Calls) (on : OnNode w h info e a) (present : a ≠ 0)
    (double : e.tag = .glist) :
    Bridge.Displays calls (Handle.extract h "prev") w
      (.done (.ok (neighbourShown info (previous w.memory a)))) := by
  apply on.displays_part .previous rfl
  intro w₁ _
  rw [value, if_neg present, if_neg (not_not.mpr double)]
  exact Bridge.displays_lift displays_neighbour

/-- A singly linked list has no previous nodes. -/
theorem OnNode.displays_no_previous (calls : Calls) (on : OnNode w h info e a) (present : a ≠ 0)
    (single : e.tag ≠ .glist) :
    Bridge.Displays calls (Handle.extract h "prev") w (.done (.error .noPrevious)) := by
  apply on.displays_part .previous rfl
  intro w₁ _
  rw [value, if_neg present, if_pos single]
  exact Bridge.displays_throw

theorem OnNode.displays_data (calls : Calls) (on : OnNode w h info e a) (present : a ≠ 0)
    (sound : w.database.Sound) :
    Bridge.Displays calls (Handle.extract h "data") w (w.datumShown e (datum w.memory a)) := by
  apply on.displays_part .data rfl
  intro w₁ resembles
  rw [value, if_neg present, ← resembles.datumShown]
  exact displays_datum (resembles.database ▸ sound) (resembles.database ▸ on.known)

/-- The empty list has no datum and no neighbours. -/
theorem OnNode.displays_empty (calls : Calls) (on : OnNode w h info e 0) {name : String}
    (wanted : Part) (named : ListCursor.part? name = some wanted) (part : wanted ≠ .size) :
    Bridge.Displays calls (Handle.extract h name) w (.done (.error .emptyList)) := by
  apply on.displays_part wanted named
  intro w₁ _
  cases wanted with
  | size => exact absurd rfl part
  | data | next | previous =>
    rw [value, if_pos rfl]
    exact Bridge.displays_throw

end ListCursor

namespace Handle

/-- Ask the handle that a value is for a member; another value has no members and stays. -/
def ask (name : String) : Value → Bridge Value
  | .handle h => extract h name
  | other => return other

/-- Follow a member some times. -/
def follow (name : String) : Nat → Value → Bridge Value
  | 0, v => return v
  | steps + 1, v => do
    let reached ← ask name v
    follow name steps reached

end Handle

/-- What is seen of the result of a program that leaves memory as it is, and all instances with all
their references. -/
def Bridge.Sees (calls : Calls) (p : Bridge Value) (w : World) (y : Except Failure Shown) : Prop :=
  ∃ r w', p.run.run calls w = (.done r, w') ∧ r.map (Value.shown w'.store) = y
    ∧ w'.memory = w.memory ∧ ∀ a, w'.store.instances.get? a = w.store.instances.get? a

theorem Bridge.Displays.sees {p : Bridge Value} {y : Except Failure Shown}
    (displays : Bridge.Displays calls p w (.done y)) (free : Bridge.sight.takes y = []) :
    Bridge.Sees calls p w y := by
  obtain ⟨r, w', entries, collects, _, seen⟩ := displays.ends
  have memory := displays.memory
  rw [collects.run] at memory
  refine ⟨r, w', collects.run, World.ShowsResult.shown seen, memory, fun a => ?_⟩
  rw [collects.gathers.instances, free]
  exact Option.map_id'

namespace ListCursor

open Handle

/-- What walking along a list does: a handle on a node is reached, memory is the same, and so are
the live instances with all their references. -/
structure Walks (calls : Calls) (p : Bridge Value) (w : World) (info : Token) (e : Entry)
    (b : Address) (h : HandleId) (w' : World) : Prop where
  /-- The walk ends with the handle. -/
  run : p.run.run calls w = (.done (.ok (.handle h)), w')
  /-- The handle is on the node. -/
  on : OnNode w' h info e b
  /-- Only handles were made. -/
  gathers : ∃ top, w.Gathers w' top []
  /-- Memory is the same. -/
  memory : w'.memory = w.memory

namespace Walks

variable {p : Bridge Value} {f : Value → Bridge Value} {h₁ h₂ : HandleId} {w₂ : World}
  {c : Address} {name : String} {k : Nat}

theorem resembles (walks : Walks calls p w info e b h₁ w₁) : w.Resembles w₁ := by
  obtain ⟨_, gathers⟩ := walks.gathers
  refine ⟨gathers.database, walks.memory, funext fun a => ?_⟩
  rw [World.typeAt, World.typeAt, gathers.instances, Option.map_map]
  rfl

/-- The live instances have all their references. -/
theorem instances (walks : Walks calls p w info e b h₁ w₁) (a : Address) :
    w₁.store.instances.get? a = w.store.instances.get? a := by
  obtain ⟨_, gathers⟩ := walks.gathers
  rw [gathers.instances]
  exact Option.map_id'

/-- What follows a walk goes on from the handle that was reached. -/
theorem run_bind (walks : Walks calls p w info e b h₁ w₁) :
    (p >>= f).run.run calls w = (f (.handle h₁)).run.run calls w₁ :=
  Bridge.Succeeds.run_bind walks.run

theorem bind (first : Walks calls p w info e b h₁ w₁)
    (rest : Walks calls (f (.handle h₁)) w₁ info e c h₂ w₂) :
    Walks calls (p >>= f) w info e c h₂ w₂ where
  run := first.run_bind.trans rest.run
  on := rest.on
  gathers := by
    obtain ⟨_, before⟩ := first.gathers
    obtain ⟨_, after⟩ := rest.gathers
    exact ⟨_, before.trans after⟩
  memory := rest.memory.trans first.memory

/-- What is seen after a walk is what is seen of the handle that was reached. -/
theorem shown_bind (walks : Walks calls p w info e b h₁ w₁) :
    Bridge.shown calls (p >>= f) w = Bridge.shown calls (f (.handle h₁)) w₁ := by
  rw [Bridge.shown, Bridge.shown, walks.run_bind]

theorem sees_bind {y : Except Failure Shown} (walks : Walks calls p w info e b h₁ w₁)
    (sees : Bridge.Sees calls (f (.handle h₁)) w₁ y) : Bridge.Sees calls (p >>= f) w y := by
  obtain ⟨r, w₂, ran, seen, memory, instances⟩ := sees
  refine ⟨r, w₂, ?_, seen, memory.trans walks.memory, fun a => ?_⟩
  · rw [walks.run_bind, ran]
  · rw [instances, walks.instances]

/-- A walk ends with a handle on the node. -/
theorem sees (walks : Walks calls p w info e b h₁ w₁) (present : b ≠ 0) :
    ∃ attachment : Attachment, attachment.address = b
      ∧ Bridge.Sees calls p w (.ok (.handle (some info) (some attachment))) := by
  have address := walks.on.address
  rw [HandleRecord.address] at address
  cases attached : (w₁.store.handle h₁).attachment with
  | none =>
    rw [attached] at address
    exact absurd address.symm present
  | some attachment =>
    rw [attached] at address
    refine ⟨attachment, address, _, w₁, walks.run, ?_, walks.memory, walks.instances⟩
    rw [Except.map, Value.shown, walks.on.typed, attached]

end Walks

/-- A walk of no steps. -/
theorem OnNode.walks (on : OnNode w h info e a) :
    Walks calls (pure (.handle h)) w info e a h w :=
  ⟨rfl, on, ⟨[], .refl w⟩, rfl⟩

/-- One step to a neighbour that is there. -/
theorem OnNode.step (on : OnNode w h info e a) {name : String} (present : b ≠ 0)
    (seen : Bridge.Displays calls (Handle.extract h name) w
      (.done (.ok (neighbourShown info b)))) :
    ∃ h' w', Walks calls (ask name (.handle h)) w info e b h' w' := by
  rw [neighbourShown, if_neg present] at seen
  obtain ⟨r, w', entries, collects, _, shows⟩ := seen.ends
  cases r with
  | error f => cases shows
  | ok v =>
    obtain ⟨h', rfl, _, n, stood⟩ := shows
    have record : w'.store.handle h'
        = { info := some info, attachment := some ⟨b, .borrowed⟩, shares := n } := by
      rw [Store.handle, stood]
      rfl
    have memory := seen.memory
    rw [collects.run] at memory
    refine ⟨h', w', collects.run, ⟨?_, ?_, ?_, on.list⟩, ⟨_, collects.gathers⟩, memory⟩
    · rw [record]
    · rw [record, HandleRecord.address]
    · rw [collects.gathers.database]
      exact on.known

/-- Following the next node leads to the node that lies as many places further. -/
theorem Chain.follow (calls : Calls) (chain : Chain w.memory a nodes)
    (on : OnNode w h info e a) {k : Nat} (within : k < nodes.length) :
    ∃ h' w', Walks calls (follow "next" k (.handle h)) w info e nodes[k] h' w' := by
  induction k generalizing w h a nodes with
  | zero =>
    cases nodes with
    | nil => cases within
    | cons node rest => exact ⟨h, w, chain.1 ▸ on.walks⟩
  | succ k ih =>
    cases nodes with
    | nil => cases within
    | cons node rest =>
      obtain ⟨rfl, present, onward⟩ := chain
      have further : k < rest.length := Nat.lt_of_succ_lt_succ within
      have there : ListCursor.next w.memory a ≠ 0 := by
        cases rest with
        | nil => cases further
        | cons second others => exact onward.1 ▸ onward.2.1
      obtain ⟨h₁, w₁, first⟩ := on.step there (on.displays_next calls present)
      have later : Chain w₁.memory (ListCursor.next w.memory a) rest := first.memory ▸ onward
      obtain ⟨h₂, w₂, rest⟩ := ih later first.on further
      exact ⟨h₂, w₂, first.bind rest⟩

/-- Following the previous node leads back. -/
theorem follow_back (calls : Calls)
    (linked : ∀ k (within : k + 1 < nodes.length), previous w.memory nodes[k + 1] = nodes[k])
    (double : e.tag = .glist) (present : ∀ node ∈ nodes, node ≠ 0) {k : Nat}
    (within : k < nodes.length) (on : OnNode w h info e nodes[k]) :
    ∃ h' w', Walks calls (follow "prev" k (.handle h)) w info e (nodes[0]) h' w' := by
  induction k generalizing w h with
  | zero => exact ⟨h, w, on.walks⟩
  | succ k ih =>
    have before : k < nodes.length := Nat.lt_of_succ_lt within
    have seen := on.displays_previous calls (present _ (List.getElem_mem within)) double
    rw [linked k within] at seen
    obtain ⟨h₁, w₁, first⟩ := on.step (present _ (List.getElem_mem before)) seen
    have later : ∀ k (within : k + 1 < nodes.length),
        previous w₁.memory nodes[k + 1] = nodes[k] := fun k within => first.memory ▸ linked k within
    obtain ⟨h₂, w₂, rest⟩ := ih later before first.on
    exact ⟨h₂, w₂, first.bind rest⟩

/-- What is seen of the datum after walking to a node. -/
theorem OnNode.shown_walk (calls : Calls) (on : OnNode w h info e a)
    (chain : Chain w.memory a nodes) (sound : w.database.Sound) {i : Nat} {node : Address}
    (listed : nodes[i]? = some node) :
    Bridge.shown calls (do
      let v ← Handle.follow "next" i (.handle h)
      Handle.ask "data" v) w = w.datumShown e (datum w.memory node) := by
  obtain ⟨within, rfl⟩ := List.getElem?_eq_some_iff.mp listed
  obtain ⟨h', w', walks⟩ := chain.follow calls on within
  have later := walks.resembles
  have seen := walks.on.displays_data calls (chain.ne_zero within) (later.database ▸ sound)
  rw [walks.shown_bind, ← later.datumShown, ← later.memory]
  exact seen.shown

end ListCursor
end ObjectBridge
