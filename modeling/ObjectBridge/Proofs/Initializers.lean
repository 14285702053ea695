import ObjectBridge.Proofs.Agreement
import ObjectBridge.Proofs.Creating

/-!
# Objects from initializers

An object type is evaluated with initializers, each of which gives the value of a property by a
keyword or by a name and a value.  How it is written makes no difference.
-/

namespace ObjectBridge
namespace Handle

open Program Bridge Descriptor

variable {calls : Calls} {w w₁ w' : World} {info : Token} {e : Entry} {name : String} {v : Value}
  {block block' : Codec.ArgumentBlock} {x : Item}

/-- An initializer, as it is written in the arguments of an evaluation. -/
inductive Initializer where
  /-- A keyword with its value. -/
  | keyword (name : String) (v : Value)
  /-- A name as a text, and the value. -/
  | text (name : String) (v : Value)
  /-- A name as a symbol, and the value. -/
  | symbol (name : String) (v : Value)

namespace Initializer

/-- The arguments that an initializer is written in. -/
def arguments : Initializer → List Argument
  | keyword name v => [.keyword name v]
  | text name v => [.value (.str name), .value v]
  | symbol name v => [.symbol name, .value v]

/-- The name and the value that an initializer gives. -/
def given : Initializer → String × Value
  | keyword name v | text name v | symbol name v => (name, v)

/-- An initializer is read as what it gives. -/
theorem initializer_arguments (x : Initializer) (rest : List Argument) :
    initializer (x.arguments ++ rest) = .ok (some (x.given.1, x.given.2, rest)) := by
  cases x <;> rfl

theorem arguments_pos (x : Initializer) : 0 < x.arguments.length := by
  cases x <;> exact Nat.succ_pos _

end Initializer

/-- The arguments that initializers are written in. -/
def written (initializers : List Initializer) : List Argument :=
  initializers.flatMap Initializer.arguments

/-- Encode the values of some names, in order. -/
def encodeGiven (info : Token) :
    List (String × Value) → Codec.ArgumentBlock → Bridge (List Item × Codec.ArgumentBlock)
  | [], block => return ([], block)
  | (name, v) :: rest, block => do
    let (item, block) ← encodeItem info name v block
    let (others, block) ← encodeGiven info rest block
    return (item :: others, block)

/-- Only what the initializers give matters. -/
theorem encodeItems_written {initializers : List Initializer} {limit : Nat}
    (enough : (written initializers).length ≤ limit) :
    encodeItems info limit (written initializers) block
      = encodeGiven info (initializers.map Initializer.given) block := by
  induction initializers generalizing limit block with
  | nil => cases limit <;> rfl
  | cons x rest ih =>
    have split : written (x :: rest) = x.arguments ++ written rest := rfl
    rw [split, List.length_append] at enough
    have positive := x.arguments_pos
    cases limit with
    | zero => omega
    | succ limit =>
      rw [split, encodeItems, x.initializer_arguments]
      change encodeItem info x.given.1 x.given.2 block >>= _ = _
      rw [List.map_cons, encodeGiven]
      refine congrArg _ (funext fun first => ?_)
      change encodeItems info limit (written rest) first.2 >>= _ = _
      rw [ih (by omega)]

theorem finds_encodeItem (linked : w.database.Linked) (known : w.database.entry? info = some e) :
    Bridge.Finds (encodeItem info name v block) w fun _ => True := by
  refine .region (.after (Member.finds_findProperty linked known) fun found same => ?_)
  cases found with
  | none => exact Bridge.finds_throw trivial
  | some named =>
    obtain ⟨property, spelling⟩ := named
    have own : Member.declared? w.database .property name info = some (property, spelling) := by
      split at same
      · exact same.symm
      · cases same
    obtain ⟨f, there, _⟩ := linked.named (Member.ownMember?_of_declared own)
    refine (finds_memberType linked there).bind (fun type typed => ?_) fun _ _ => trivial
    have has : w.database.Has type := by
      rcases typed with ⟨u, same, has⟩ | ⟨_, wrong⟩
      · cases same
        exact has
      · cases wrong
    exact (Codec.finds_encode linked has).bind (fun _ _ => Bridge.finds_pure trivial)
      fun _ _ => trivial

theorem finds_encodeGiven (linked : w.database.Linked) (known : w.database.entry? info = some e)
    {given : List (String × Value)} :
    Bridge.Finds (encodeGiven info given block) w fun _ => True := by
  induction given generalizing block with
  | nil => exact Bridge.finds_pure trivial
  | cons first rest ih =>
    refine (finds_encodeItem linked known).bind (fun _ _ => ?_) fun _ _ => trivial
    exact ih.bind (fun _ _ => Bridge.finds_pure trivial) fun _ _ => trivial

theorem silent_encodeGiven {given : List (String × Value)} :
    Bridge.Silent (encodeGiven info given block) := by
  induction given generalizing block with
  | nil => exact Bridge.silent_pure
  | cons first rest ih =>
    exact silent_encodeItem.bind fun _ => ih.bind fun _ => Bridge.silent_pure

theorem succeeds_memberType {member type : Token}
    (ran : Succeeds calls (memberType member name) w type w') :
    ∃ f, w.database.entry? member = some f ∧ f.declared? = some type := by
  obtain ⟨declared, w₁, looked, rest⟩ := succeeds_bind.mp ran
  obtain ⟨f, w₂, seen, taken⟩ := run_bind_done.mp (succeeds_lift.mp looked)
  obtain ⟨known, rfl⟩ := run_entry.mp seen
  have same : declared = f.declared? := finds_take.of_run (.refl w) taken
  refine ⟨f, known, ?_⟩
  rw [← same]
  cases declared with
  | some found =>
    obtain ⟨rfl, _⟩ := succeeds_pure.mp rest
    rfl
  | none => exact absurd rest not_succeeds_throw

/-- What a construction makes of a name and a value: the property that the name means on the type,
and the slot that the value has under the type of the property, in memory as it is afterwards. -/
structure Item.Encodes (calls : Calls) (w : World) (info : Token) (given : String × Value)
    (x : Item) (m : Memory) : Prop where
  /-- The property is declared by the type itself, under the name or with hyphens. -/
  found : ∃ property f, Member.declared? w.database .property given.1 info = some (property, x.name)
    ∧ w.database.entry? property = some f ∧ f.declared? = some x.type
  /-- The value is the given one. -/
  value : x.value = given.2
  /-- The slot is that of the value. -/
  slot : ∃ w₁ block block' w₂, w.Looked w₁
    ∧ Succeeds calls (Codec.encode x.value x.type block) w₁ (x.slot, block') w₂
    ∧ w₂.memory.Extends m

theorem Item.Encodes.mono {given : String × Value} {m m' : Memory}
    (encodes : x.Encodes calls w info given m) (grown : m.Extends m') :
    x.Encodes calls w info given m' where
  found := encodes.found
  value := encodes.value
  slot := by
    obtain ⟨w₁, block, block', w₂, looked, encoded, grows⟩ := encodes.slot
    exact ⟨w₁, block, block', w₂, looked, encoded, grows.trans grown⟩

theorem encodes_of_encodeItem (linked : w.database.Linked)
    (known : w.database.entry? info = some e) (looked : w.Looked w₁)
    (ran : Succeeds calls (encodeItem info name v block) w₁ (x, block') w') :
    x.Encodes calls w info (name, v) w'.memory := by
  obtain ⟨w₂, inside, rfl⟩ := ran.region
  obtain ⟨found, w₃, searched, rest⟩ := succeeds_bind.mp inside
  cases found with
  | none => exact absurd rest not_succeeds_throw
  | some named =>
    obtain ⟨property, spelling⟩ := named
    obtain ⟨type, w₄, declared, rest⟩ := succeeds_bind.mp rest
    obtain ⟨⟨slot, after⟩, w₅, encoded, last⟩ := succeeds_bind.mp rest
    obtain ⟨same, rfl⟩ := succeeds_pure.mp last
    cases same
    have finds : Program.Finds (Member.findProperty info name) w _ :=
      Member.finds_findProperty linked known
    have own := finds.of_run looked (succeeds_lift.mp searched)
    have first := looked.trans (searched.looked (silent_lift Member.silent_findProperty)
      (reading_lift Member.reading_findProperty))
    obtain ⟨f, there, type⟩ := succeeds_memberType declared
    have before := first.trans (declared.looked silent_memberType reading_memberType)
    refine ⟨⟨property, f, ?_, first.database ▸ there, type⟩, rfl,
      ⟨w₄, block, _, w₅, before, encoded, .refl _⟩⟩
    split at own
    · exact own.symm
    · cases own

theorem encodes_of_encodeGiven (linked : w.database.Linked)
    (known : w.database.entry? info = some e) {given : List (String × Value)} {items : List Item}
    (looked : w.Looked w₁)
    (ran : Succeeds calls (encodeGiven info given block) w₁ (items, block') w') :
    List.Forall₂ (fun g x => x.Encodes calls w info g w'.memory) given items := by
  induction given generalizing w₁ block items with
  | nil =>
    obtain ⟨same, _⟩ := succeeds_pure.mp ran
    cases same
    exact .nil
  | cons first rest ih =>
    obtain ⟨⟨item, middle⟩, w₂, encoded, rest⟩ := succeeds_bind.mp ran
    obtain ⟨⟨others, last⟩, w₃, later, done⟩ := succeeds_bind.mp rest
    obtain ⟨same, rfl⟩ := succeeds_pure.mp done
    cases same
    have before := looked.trans (encoded.looked silent_encodeItem reading_encodeItem)
    exact .cons ((encodes_of_encodeItem linked known looked encoded).mono
      (Program.Silent.extends silent_encodeGiven later)) (ih before later)

/-- What is stored of an initial value: the slot that it was encoded in, but of a text a copy of its
own, with the same text. -/
def Item.Stored (w : World) (m : Memory) (x : Item) (slot : Slot) : Prop :=
  if (w.database.tagOf x.type).isString then
    (x.value = .nil ∧ slot = .zero)
      ∨ ∃ text, x.value = .str text ∧ w.memory.next ≤ slot.address ∧ slot ≠ x.slot
        ∧ m.text slot.address = text
  else slot = x.slot

theorem stored_of_copied (linked : w.database.Linked) (reserved : 0 < w.memory.next)
    {given : String × Value} {m m' : Memory} {kept : Slot}
    (encodes : x.Encodes calls w info given m) (later : w.memory.next ≤ m.next)
    (copied : Runtime.Copied m m' (w.database.tagOf x.type) x.slot kept) :
    x.Stored w m' kept := by
  unfold Item.Stored
  split
  · next string =>
    obtain ⟨property, f, _, there, typed⟩ := encodes.found
    obtain ⟨t, known⟩ :=
      (Codec.has_of_reference linked there (mem_references_of_declared typed)).entry
    obtain ⟨w₁, block, block', w₂, looked, encoded, grown⟩ := encodes.slot
    have tagged : Codec.tag? w₁.database x.type = some (w.database.tagOf x.type) := by
      rw [looked.database, Codec.tag?, Database.tagOf, known]
      rfl
    rcases Codec.encoded_string (looked.database ▸ linked) tagged string encoded with
      ⟨absent, null⟩ | ⟨text, same, place, holds⟩
    · refine .inl ⟨absent, (copied.plain (.inr ?_)).trans null⟩
      rw [null]
      rfl
    · have positive : 0 < x.slot.address := place ▸ Nat.lt_of_lt_of_le reserved looked.next
      have there : x.slot.isNull = false := decide_eq_false (Nat.ne_of_gt positive)
      obtain ⟨fresh, copy⟩ := copied.string string there
      have source := holds.mono grown
      refine .inr ⟨text, same, Nat.le_trans later fresh, fun equal => ?_, (copy _ source).text⟩
      have below := source.reserved
      rw [← equal] at below
      exact absurd fresh (Nat.not_le.mpr (Nat.lt_of_lt_of_le (Nat.lt_add_of_pos_right
        (Nat.succ_pos _)) below))
  · next other => exact copied.plain (.inl (Bool.eq_false_of_not_eq_true other))

/-- A registered type is the first one that the object runtime searches. -/
theorem chainMember?_of_own {db : Database} {number : TypeNumber} {group : MemberGroup}
    {property : Token} (registered : db.registered? number = some info)
    (known : db.entry? info = some e) (own : db.ownMember? group name info = some property) :
    db.chainMember? number group name = some property := by
  have bound : 0 < db.entries.size :=
    Nat.lt_of_lt_of_le (Database.has_of_entry known).1 (Database.has_of_entry known).2
  obtain ⟨limit, size⟩ : ∃ limit, db.entries.size = limit + 1 :=
    ⟨_, (Nat.succ_pred_eq_of_pos bound).symm⟩
  rw [Database.chainMember?, Database.chain, registered, size, Database.ancestry,
    List.findSome?_cons, own]

/-- The runtime finds the property that the bridge found. -/
theorem Item.Encodes.chainMember {given : String × Value} {m : Memory}
    (encodes : x.Encodes calls w info given m)
    (registered : w.database.registered? e.number = some info)
    (known : w.database.entry? info = some e) :
    ∃ property, w.database.chainMember? e.number .property x.name = some property
      ∧ w.database.declaredTag property = w.database.tagOf x.type := by
  obtain ⟨property, f, own, there, typed⟩ := encodes.found
  refine ⟨property, chainMember?_of_own registered known (Member.ownMember?_of_declared own), ?_⟩
  rw [Database.declaredTag, there, Option.bind_some, typed]

/-- What is stored of initial values, in their order. -/
def StoredAll (w : World) (m : Memory) (items : List Item) (rows : List (String × Slot)) : Prop :=
  List.Forall₂ (fun x row => row.1 = x.name ∧ x.Stored w m row.2) items rows

theorem storedAll_of_found {found : List (Token × Runtime.Initial)} {items : List Item}
    {rows : List (String × Slot)} {m m' : Memory}
    (stored : List.Forall₂ (Runtime.StoredAs w.database m m') found rows)
    (same : found.map Prod.snd = items.map Item.initial)
    (copies : ∀ row ∈ found, ∀ x ∈ items, row.2 = x.initial → ∀ kept,
      Runtime.Copied m m' (w.database.declaredTag row.1) x.slot kept → x.Stored w m' kept) :
    StoredAll w m' items rows := by
  induction stored generalizing items with
  | nil =>
    cases items with
    | nil => exact .nil
    | cons x rest => cases same
  | @cons row kept found rows first _ ih =>
    cases items with
    | nil => cases same
    | cons x rest =>
      rw [List.map_cons, List.map_cons, List.cons.injEq] at same
      refine .cons ⟨first.name.trans (congrArg Runtime.Initial.name same.1), ?_⟩
        (ih same.2 fun r inside y member => copies r (List.mem_cons_of_mem _ inside) y
          (List.mem_cons_of_mem _ member))
      have copied := first.slot
      rw [same.1] at copied
      exact copies row List.mem_cons_self x List.mem_cons_self same.1 _ copied

/-- A name has what is stored of its last initial value, and no other name has anything. -/
theorem StoredAll.lookup {m : Memory} {items : List Item} {rows : List (String × Slot)}
    (stored : StoredAll w m items rows) (name : String) :
    Option.Rel (Item.Stored w m) (items.reverse.find? fun x => x.name = name)
      ((assignAll rows []).lookup name) := by
  rw [lookup_assignAll, List.lookup_nil, Option.or_none]
  have backwards : StoredAll w m items.reverse rows.reverse := List.rel_reverse stored
  revert backwards
  generalize items.reverse = items
  generalize rows.reverse = rows
  intro backwards
  induction backwards with
  | nil => exact .none
  | @cons x row items rows first _ ih =>
    obtain ⟨same, holds⟩ := first
    rw [List.find?_cons, List.lookup_cons, beq_eq_decide]
    by_cases here : x.name = name
    · have named : name = row.1 := by rw [same, here]
      simp only [here, named, decide_true]
      exact .some holds
    · have other : name ≠ row.1 := fun equal => here (by rw [equal, same])
      simp only [here, other, decide_false]
      exact ih

/-- A handle without an instance, typed by an object type that its type number is registered to. -/
structure OnType (w : World) (h : HandleId) (info : Token) (e : Entry) : Prop where
  /-- There is no instance. -/
  unbound : (w.store.handle h).isBound = false
  /-- The entry that types the handle. -/
  typed : (w.store.handle h).info = some info
  /-- The entry is known. -/
  known : w.database.entry? info = some e
  /-- The entry describes an object type. -/
  object : e.kind = .object
  /-- The type number of the entry is its own. -/
  registered : w.database.registered? e.number = some info

/-- Encode the given values, and build an instance from them. -/
def make (info : Token) (given : List (String × Value)) : Bridge HandleId :=
  encodeGiven info given [] >>= fun r => build info (r.1.map Item.initial)

theorem constructObject_written (initializers : List Initializer) :
    constructObject info (written initializers)
      = region claims (make info (initializers.map Initializer.given)) := by
  rw [constructObject_eq, encodeItems_written (Nat.le_refl _), make]

/-- Evaluating an object type with initializers constructs an instance from what they give. -/
theorem run_eval_type {h : HandleId} (on : OnType w h info e) (initializers : List Initializer) :
    (eval h (written initializers)).run.run calls w
      = close w.store.held.length (keepOk Value.claims)
        ((region claims (make info (initializers.map Initializer.given)) >>= fun made =>
          pure (.handle made) : Bridge Value).run.run calls w) := by
  have record : (handleRecord h).Passes calls w (w.store.handle h) w :=
    ⟨rfl, silent_handleRecord calls w⟩
  have known : (entry info).Passes calls w e w :=
    ⟨run_entry.mpr ⟨on.known, rfl⟩, silent_entry calls w⟩
  have list : ListCursor.isListType e = false := by simp [ListCursor.isListType, on.object]
  have callable : e.kind.isCallable = false := by simp [on.object, EntryKind.isCallable]
  rw [eval, region_eq, run_region]
  congr 1
  rw [(leads_bind (passes_lift record)).run, typed, on.typed, pure_bind,
    (leads_bind (passes_lift known)).run, list, callable]
  simp only [Bool.false_eq_true, if_false, on.object, decide_true, Bool.true_or, if_true,
    evalInstance, on.unbound]
  rw [← constructObject_written]
  cases initializers with
  | nil => rfl
  | cons x rest => cases x <;> rfl

/-- Building an instance from initial properties that the type has. -/
theorem succeeds_build (calls : Calls) {initial : List Runtime.Initial}
    {found : List (Token × Runtime.Initial)}
    (known : w.database.entry? info = some e) (object : e.kind = .object)
    (registered : w.database.registered? e.number = some info) (reserved : 0 < w.memory.next)
    (bounded : ∀ b, w.memory.next ≤ b → w.store.instances.get? b = none)
    (finds : Runtime.findInitial w.database e.number e.shownName initial = .ok found) :
    ∃ w₁ m rows, w.Looked w₁ ∧ w.memory.Extends w₁.memory ∧ w₁.memory.Extends m
      ∧ Succeeds calls (build info initial) w w₁.store.nextHandle
        (adopted (Runtime.constructed w₁ m e rows) info w₁.memory.next (Runtime.made e rows))
      ∧ List.Forall₂ (Runtime.StoredAs w.database w₁.memory m) found rows := by
  have other : e.kind ≠ .type := by simp [object]
  have traces : Program.Finds (trace [info]) w fun _ => True := finds_trace
  obtain ⟨_, w₁, traced, looked, _⟩ := traces calls w (.refl w)
  obtain ⟨_, w₂, named, seen, rfl⟩ := Signature.finds_qualifiedName known other calls w₁ looked
  have before := looked.trans seen
  have fresh : w₂.store.instances.get? w₂.memory.next = none := by
    rw [before.instances]
    exact bounded _ before.next
  rw [← before.database] at known registered finds
  obtain ⟨rows, m, ran, grown, stored⟩ :=
    Runtime.run_construct calls registered known object fresh finds
  refine ⟨w₂, m, rows, before, traced.extends.trans named.extends, grown, ?_,
    before.database ▸ stored⟩
  have live : (Runtime.constructed w₂ m e rows).store.instances.get? w₂.memory.next
      = some (Runtime.made e rows) := by
    change (w₂.store.instances.insert w₂.memory.next _).get? _ = _
    rw [Table.get?_insert _ fresh, if_pos rfl]
  have looks : (entry info).run calls w₁ = (.done e, w₁) :=
    run_entry.mpr ⟨seen.database ▸ known, rfl⟩
  refine succeeds_bind.mpr ⟨(), w₁, succeeds_lift.mpr traced.run, ?_⟩
  refine succeeds_bind.mpr ⟨e, w₁, succeeds_lift.mpr looks, ?_⟩
  refine succeeds_bind.mpr ⟨_, w₂, succeeds_lift.mpr named.run, ?_⟩
  refine succeeds_bind.mpr ⟨_, _, succeeds_ofRuntime.mpr ran, ?_⟩
  exact run_adopt live (Nat.lt_of_lt_of_le reserved before.next)

theorem exists_of_mem_right {α β : Type} {R : α → β → Prop} {left : List α} {right : List β}
    (related : List.Forall₂ R left right) {y : β} (member : y ∈ right) : ∃ x, R x y := by
  induction related with
  | nil => cases member
  | cons first _ ih =>
    rcases List.mem_cons.mp member with rfl | later
    · exact ⟨_, first⟩
    · exact ih later

/-- Making an instance only looked at things and failed, or it is done and only its temporaries are
left to be given back. -/
theorem make_cases (calls : Calls) (linked : w.database.Linked) (reserved : 0 < w.memory.next)
    (bounded : ∀ b, w.memory.next ≤ b → w.store.instances.get? b = none) {h : HandleId}
    (on : OnType w h info e) (given : List (String × Value)) :
    (∃ f w₁, (make info given).run.run calls w = (.done (.error f), w₁) ∧ w.Looked w₁)
      ∨ ∃ w₁ m rows items, w.Looked w₁ ∧ w₁.memory.Extends m
        ∧ Succeeds calls (make info given) w w₁.store.nextHandle
          (adopted (Runtime.constructed w₁ m e rows) info w₁.memory.next (Runtime.made e rows))
        ∧ List.Forall₂ (fun g x => x.Encodes calls w info g m) given items
        ∧ StoredAll w m items rows := by
  have encodes : Bridge.Finds (encodeGiven info given []) w fun _ => True :=
    finds_encodeGiven linked on.known
  obtain ⟨r, w₁, passes, looked, _⟩ := encodes calls w (.refl w)
  cases r with
  | error f => exact .inl ⟨f, w₁, fails_bind.mpr (.inl passes.run), looked⟩
  | ok r =>
    obtain ⟨items, block⟩ := r
    refine .inr ?_
    have all := encodes_of_encodeGiven linked on.known (.refl w) passes.run
    have finding : ∀ x ∈ items, ∃ property,
        w.database.chainMember? e.number .property x.name = some property
          ∧ w.database.declaredTag property = w.database.tagOf x.type := fun x inside => by
      obtain ⟨g, encoded⟩ := exists_of_mem_right all inside
      exact encoded.chainMember on.registered on.known
    have declared : ∀ p ∈ items.map Item.initial,
        (w₁.database.chainMember? e.number .property p.name).isSome := by
      intro p member
      obtain ⟨x, inside, rfl⟩ := List.mem_map.mp member
      obtain ⟨property, chained, _⟩ := finding x inside
      rw [looked.database, Item.initial, chained]
      rfl
    obtain ⟨found, finds, same⟩ := Runtime.findInitial_ok declared
    obtain ⟨w₂, m, rows, seen, grew, grown, built, stored⟩ := succeeds_build calls
      (looked.database ▸ on.known) on.object (looked.database ▸ on.registered)
      (Nat.lt_of_lt_of_le reserved looked.next)
      (fun b above => looked.instances ▸ bounded b (Nat.le_trans looked.next above)) finds
    refine ⟨w₂, m, rows, items, looked.trans seen, grown,
      succeeds_bind.mpr ⟨(items, block), w₁, passes.run, built⟩,
      all.imp fun _ _ encoded => encoded.mono (grew.trans grown), ?_⟩
    rw [looked.database] at stored finds
    refine storedAll_of_found stored same fun row member x inside equal kept copied => ?_
    obtain ⟨property, chained, tagged⟩ := finding x inside
    have known := (Runtime.mem_findInitial finds row member).2
    rw [equal, Item.initial, chained] at known
    rw [← Option.some.inj known, tagged] at copied
    obtain ⟨g, encoded⟩ := exists_of_mem_right all inside
    exact stored_of_copied linked reserved (encoded.mono grew) (looked.trans seen).next copied

/-- The stored properties of a new instance: every name has what is stored of the last value that was
given for it, and no other name has anything. -/
structure Initialized (calls : Calls) (w : World) (info : Token) (given : List (String × Value))
    (m : Memory) (properties : List (String × Slot)) : Prop where
  /-- No name is stored twice. -/
  distinct : (properties.map Prod.fst).Nodup
  /-- The values are encoded under the types of the properties, and the last one counts. -/
  stored : ∃ items, List.Forall₂ (fun g x => x.Encodes calls w info g m) given items
    ∧ ∀ name, Option.Rel (Item.Stored w m) (items.reverse.find? fun x => x.name = name)
      (properties.lookup name)

/-- The region around making an instance: it failed and left the world untouched, or an instance was
constructed. -/
theorem region_make (calls : Calls) (orderly : w.Orderly) (built : w.database.Built) {h : HandleId}
    (on : OnType w h info e) (given : List (String × Value)) :
    (∃ f w', Fails calls (region claims (make info given)) w f w' ∧ w.Untouched w'
      ∧ w'.store.held = w.store.held)
    ∨ ∃ properties a w',
      Succeeds calls (region claims (make info given)) w w.store.nextHandle w'
        ∧ Constructed w w' info e properties a
        ∧ Initialized calls w info given w'.memory properties := by
  have bounded : ∀ b, w.memory.next ≤ b → w.store.instances.get? b = none := fun b =>
    orderly.books.unreserved
  rcases make_cases calls built.sound.toLinked orderly.reserved bounded on given with
    ⟨f, w₁, failed, looked⟩ | ⟨w₁, m, rows, items, looked, grown, made, encodes, stored⟩
  · obtain ⟨steady, top, reading⟩ := looked
    obtain ⟨settled, after⟩ := reading.settle []
    rw [Store.part_nil] at after
    refine .inl ⟨f, _, ?_, after.untouched (steady.trans (w₁.steady_settle _ _)), after.held⟩
    rw [Fails, region_eq, run_region]
    exact close_done.mpr ⟨w₁, failed, Prod.ext settled rfl⟩
  · obtain ⟨steady, top, reading⟩ := looked
    have fresh := bounded w₁.memory.next reading.next
    obtain ⟨w', settled, constructed, memory⟩ :=
      settle_constructed info e rows reading steady fresh orderly.books.handle_fresh grown
    have same : w₁.store.nextHandle = w.store.nextHandle := by rw [reading.store]
    refine .inr ⟨_, _, w', ?_, constructed, ?_⟩
    · rw [same] at made
      rw [Succeeds, region_eq, run_region]
      exact close_done.mpr ⟨_, made, settled⟩
    · rw [memory]
      exact ⟨nodup_assignAll List.nodup_nil, items, encodes, stored.lookup⟩

/-- Evaluating an object type with initializers ends.  It fails and leaves the world untouched, or
it gives a handle that owns the only reference to a new instance, which does not float even where
instances of the type start that way.  The instance has exactly the initial properties under the
names that the type declares, each with its last value, and every other instance is as it was.  How
the initializers are written makes no difference. -/
theorem eval_constructs (calls : Calls) (w : World) (orderly : w.Orderly)
    (built : w.database.Built) (h : HandleId) (info : Token) (e : Entry) (on : OnType w h info e)
    (initializers : List Initializer) :
    ((∃ f w', (eval h (written initializers)).run.run calls w = (.done (.error f), w')
        ∧ w.Untouched w')
      ∨ ∃ properties a w', (eval h (written initializers)).run.run calls w
          = (.done (.ok (.handle w.store.nextHandle)), w')
        ∧ Constructed w w' info e properties a
        ∧ Initialized calls w info (initializers.map Initializer.given) w'.memory properties)
    ∧ ∀ others : List Initializer,
        others.map Initializer.given = initializers.map Initializer.given →
        (eval h (written others)).run.run calls w
          = (eval h (written initializers)).run.run calls w := by
  refine ⟨?_, fun others same => by rw [run_eval_type on, run_eval_type on, same]⟩
  rw [run_eval_type on]
  rcases region_make calls orderly built on (initializers.map Initializer.given) with
    ⟨f, w', failed, untouched, held⟩ | ⟨properties, a, w', made, constructed, initialized⟩
  · refine .inl ⟨f, w', close_done.mpr ⟨w', fails_bind.mpr (.inl failed), ?_⟩, untouched⟩
    rw [← held]
    exact w'.settle_none _
  · refine .inr ⟨properties, a, w', close_done.mpr ⟨w', ?_, ?_⟩, constructed, initialized⟩
    · exact succeeds_bind.mpr ⟨_, w', made, succeeds_pure.mpr ⟨rfl, rfl⟩⟩
    · have held : w'.store.held = .handle w.store.nextHandle :: w.store.held := by
        rw [constructed.store]
      exact World.settle_kept held

/-- An object type whose instances start floating, with a property of integers and one of texts. -/
def sampleTypes : Database :=
  let node := (({} : Database).addObject "Demo" "Node" none true).2
  let numbers := (node.addType (.plain .int32)).2
  let texts := (numbers.addType (.plain .utf8)).2
  let wide := (texts.addProperty 1 "line-width" 2 PropertyFlag.readable).2
  (wide.addProperty 1 "label" 3 PropertyFlag.readable).2

theorem sampleTypes_built : sampleTypes.Built := by
  refine .next (.next (.next (.next (.next .empty (.object "Demo" "Node" true ?_)) (.type ?_))
    (.type ?_)) (.property "line-width" _ ?_ ?_)) (.property "label" _ ?_ ?_)
  all_goals decide

/-- A world with a handle on the type. -/
def sampleNodes : World :=
  (Session.advanceAll 1 [.classHandle "Node" (some "nodes")]
    { database := sampleTypes, bench := { identifiers := [("Node", 1)] } }).2

/-- One property is given twice, in two spellings, and the other one once. -/
def sampleInitializers : List Initializer :=
  [.keyword "line_width" (.int 3), .text "label" (.str "é"), .symbol "line-width" (.int 5)]

theorem sampleNodes_orderly : sampleNodes.Orderly := by
  let start : World := { database := sampleTypes, bench := { identifiers := [("Node", 1)] } }
  have orderly : start.Orderly :=
    ⟨Store.accounted_empty (by decide +kernel), fun _ member => absurd member List.not_mem_nil⟩
  exact Session.boundaries_orderly 1 _ orderly _ (Session.last_mem_boundaries 1 _ start)

theorem sampleNodes_onType : ∃ e, OnType sampleNodes 1 1 e := by
  have kind : (sampleNodes.database.entry? 1).map (fun e => (e.kind, e.number))
      = some (.object, 100) := by decide +kernel
  obtain ⟨e, known, same⟩ := Option.map_eq_some_iff.mp kind
  rw [Prod.mk.injEq] at same
  obtain ⟨object, number⟩ := same
  exact ⟨e, by decide +kernel, by decide +kernel, known, object, number ▸ by decide +kernel⟩

theorem eval_constructs_sample :
    let ran := (eval 1 (written sampleInitializers)).run.run (Session.calls 1) sampleNodes
    (∃ e properties a, Constructed sampleNodes ran.2 1 e properties a
      ∧ Initialized (Session.calls 1) sampleNodes 1
        [("line_width", .int 3), ("label", .str "é"), ("line-width", .int 5)] ran.2.memory
        properties)
    ∧ ran.1 = .done (.ok (.handle 2))
    ∧ (ran.2.store.instances.get? (ran.2.store.handle 2).address).map
        (fun i => (i.references, i.floating, i.properties.lookup "line-width",
          (i.properties.lookup "label").map fun slot => ran.2.memory.text slot.address))
      = some (1, false, some ⟨5⟩, some "é") := by
  intro ran
  have done : ran.1 = .done (.ok (.handle 2)) := by decide +kernel
  refine ⟨?_, done, by decide +kernel⟩
  have same : sampleNodes.database = sampleTypes := by decide +kernel
  obtain ⟨e, on⟩ := sampleNodes_onType
  obtain ⟨either, _⟩ := eval_constructs (Session.calls 1) sampleNodes sampleNodes_orderly
    (same ▸ sampleTypes_built) 1 1 e on sampleInitializers
  rcases either with ⟨f, w', failed, _⟩ | ⟨properties, a, w', made, constructed, initialized⟩
  · have wrong : ran.1 = .done (.error f) := congrArg Prod.fst failed
    rw [done] at wrong
    cases wrong
  · have last : ran.2 = w' := congrArg Prod.snd made
    rw [last]
    exact ⟨e, properties, a, constructed, initialized⟩

end Handle
end ObjectBridge
