import ObjectBridge.Codec.Encode
import ObjectBridge.Proofs.Resolving

/-!
# Which values a type refuses

The database determines the shape of a type or why it has none.  Whether a value has a slot in a
shape depends on nothing that encoding changes, so the failure of an argument is the same whatever
was encoded before it.
-/

namespace ObjectBridge

open Program Descriptor

/-- The failure of a result. -/
def failure? {ε α : Type} : Except ε α → Option ε
  | .error e => some e
  | .ok _ => none

variable {v : World} {t : Nat} {e : Entry}

namespace Codec

/-- The shape of a type that refers to an entry, as the database has it. -/
def shapeForTarget (db : Database) (target : Token) (e : Entry) : Except Failure Shape :=
  if e.kind.isEnumeration then
    match e.storage.integer? with
    | some format => .ok (.enumeration format)
    | none => .error (.unsupported ("enum storage " ++ e.storage.name))
  else if e.kind = .object then .ok (.object target)
  else if e.kind = .interface then .ok (.interface target)
  else if e.kind = .callback then .ok .callback
  else if e.kind.isRecord then .ok (.record target (db.isA e.number Database.valueBoxNumber))
  else .error (.unsupported ("interface kind " ++ e.kind.name))

/-- The shape of a type entry, as the database has it. -/
def shapeFor (db : Database) (e : Entry) : Except Failure Shape :=
  match e.tag with
  | .void => .ok .void
  | .boolean => .ok .boolean
  | .utf8 | .filename => .ok .text
  | .glist | .gslist => .ok .list
  | .array =>
    if e.arrayForm = .plain then
      match e.parts[0]? with
      | some element => .ok (.array element e.zeroTerminated e.fixedSize?)
      | none => .error (.unsupported "array without element type")
    else .error (.unsupported (e.arrayForm.name ++ " array"))
  | .interface =>
    match e.target? with
    | some target =>
      match db.entry? target with
      | some f => shapeForTarget db target f
      | none => .error (.unsupported "interface without target")
    | none => .error (.unsupported "interface without target")
  | other =>
    match other.scalar? with
    | some s => .ok (.scalar s)
    | none => .error (.unsupported other.name)

theorem finds_shapeOfTarget {target : Token} (found : v.database.entry? target = some e) :
    Bridge.Finds (shapeOfTarget target) v (· = shapeForTarget v.database target e) := by
  refine .next (finds_entry found) ?_
  unfold shapeForTarget
  split
  · cases e.storage.integer? with
    | some format => exact Bridge.finds_pure rfl
    | none => exact Bridge.finds_throw rfl
  · split
    · exact Bridge.finds_pure rfl
    · split
      · exact Bridge.finds_pure rfl
      · split
        · exact Bridge.finds_pure rfl
        · split
          · exact .next finds_database (Bridge.finds_pure rfl)
          · exact Bridge.finds_throw rfl

theorem finds_shapeOfArray (found : v.database.entry? t = some e) :
    Bridge.Finds (shapeOfArray t e) v fun r => r =
      if e.arrayForm = .plain then
        match e.parts[0]? with
        | some element => .ok (.array element e.zeroTerminated e.fixedSize?)
        | none => .error (.unsupported "array without element type")
      else .error (.unsupported (e.arrayForm.name ++ " array")) := by
  unfold shapeOfArray
  by_cases plain : e.arrayForm = .plain
  · simp only [plain, ne_eq, not_true_eq_false, if_false, if_true]
    refine .next ((finds_entry found).next finds_take) ?_
    cases e.parts[0]? with
    | some element => exact Bridge.finds_pure rfl
    | none => exact Bridge.finds_throw rfl
  · simp only [plain, ne_eq, not_false_eq_true, if_true, if_false]
    exact Bridge.finds_throw rfl

theorem mem_references_of_target {target : Token} (refers : e.target? = some target) :
    target ∈ e.content.references := by
  unfold Entry.target? at refers
  split at refers
  · next content =>
    cases refers
    rw [content]
    exact List.mem_singleton_self _
  · cases refers

theorem mem_references_of_part {element : Token} (part : element ∈ e.parts) :
    element ∈ e.content.references := by
  unfold Entry.parts at part
  split at part
  · next content => rwa [content]
  · next content => rwa [content]
  · simp at part

/-- What an entry refers to is there. -/
theorem has_of_reference (linked : v.database.Linked) (found : v.database.entry? t = some e)
    {u : Nat} (member : u ∈ e.content.references) : v.database.Has u := by
  have below := linked.references t e found u member
  exact ⟨below.1, Nat.le_trans (Nat.le_of_lt below.2) (Database.has_of_entry found).2⟩

theorem finds_shape (linked : v.database.Linked) (found : v.database.entry? t = some e) :
    Bridge.Finds (shape t) v (· = shapeFor v.database e) := by
  refine .next (finds_entry found) ?_
  unfold shapeFor
  cases e.tag with
  | array => exact finds_shapeOfArray found
  | interface =>
    refine .next ((finds_entry found).next finds_take) ?_
    cases refers : e.target? with
    | none => exact Bridge.finds_throw rfl
    | some target =>
      obtain ⟨f, known⟩ :=
        (has_of_reference linked found (mem_references_of_target refers)).entry
      simp only [known]
      exact finds_shapeOfTarget known
  | gtype | ghash | error | unichar => exact Bridge.finds_throw rfl
  | _ => exact Bridge.finds_pure rfl

/-- Why an array is refused as a native array of a type. -/
def refusalOfElements (elements : Elements) (element : Tag) : Option Failure :=
  if element.isString then
    match elements with
    | .string texts => failure? (texts.mapM stringBytes)
    | other => some (.mismatch "string array" (other.elementName ++ " array"))
  else
    match element.scalar? with
    | some _ =>
      match numbers? elements with
      | some _ => none
      | none => some (.mismatch "numeric array" "string array")
    | none =>
      if element = .void then some (.mismatch "nil" "array")
      else some (.unsupported ("array of " ++ element.name))

/-- Why a value is refused as a native array of a type. -/
def refusalOfArray (x : Value) (element : Tag) : Option Failure :=
  match x with
  | .nil => none
  | .pointer _ => none
  | .str text => refusalOfElements (.string [text]) element
  | .array elements => refusalOfElements elements element
  | other => some (.mismatch "array, string, pointer or nil" other.typeName)

/-- Why a value is refused as a generic value box. -/
def refusalOfBox (s : Store) (x : Value) : Option Failure :=
  if x.isNil then none
  else
    match addressOf s x with
    | .error f => some f
    | .ok a =>
      if a = 0 || !s.isLive a then some (.mismatch "object instance" x.typeName) else none

/-- Why a value is refused in a shape. -/
def refusalInShape (w : World) (x : Value) : Shape → Option Failure
  | .void => if x.isNil then none else some (.mismatch "nil" x.typeName)
  | .boolean => none
  | .scalar s => failure? (encodeScalar s x)
  | .enumeration format => failure? (encodeScalar (.integer format) x)
  | .text =>
    match x with
    | .nil => none
    | .str text => failure? (stringBytes text)
    | other => some (.mismatch "string" other.typeName)
  | .array element _ _ => refusalOfArray x (w.database.tagOf element)
  | .record _ true => refusalOfBox w.store x
  | .object _ | .interface _ | .record _ false | .callback | .list =>
    failure? (addressOf w.store x)

/-- Why a value is refused under a type. -/
def refusal (w : World) (x : Value) (t : Token) : Option Failure :=
  match w.database.entry? t with
  | none => none
  | some e =>
    match shapeFor w.database e with
    | .error f => some f
    | .ok wanted => refusalInShape w x wanted

variable {x : Value} {block : ArgumentBlock}

theorem addressOf_congr {s s' : Store} (same : s.handles = s'.handles) (x : Value) :
    addressOf s x = addressOf s' x := by
  cases x <;> simp only [addressOf, Store.handle, same]

theorem finds_holdText {text : String} :
    Bridge.Finds (holdText text block) v fun r => failure? r = failure? (stringBytes text) := by
  unfold holdText
  cases stringBytes text with
  | error f => exact Bridge.finds_throw rfl
  | ok bytes => exact .after finds_place fun _ _ => Bridge.finds_pure rfl

theorem finds_placeAll {strings : List (List UInt8)} : Finds (placeAll strings) v fun _ => True := by
  induction strings with
  | nil => exact finds_pure trivial
  | cons bytes rest ih =>
    exact finds_place.bind fun _ _ => ih.bind fun _ _ => finds_pure trivial

theorem finds_holdTexts {texts : List String} :
    Bridge.Finds (holdTexts texts block) v fun r =>
      failure? r = failure? (texts.mapM stringBytes) := by
  refine Bridge.Finds.bind Bridge.finds_mapM (fun strings same => ?_)
    (fun f same => by rw [← same]; rfl)
  rw [← same]
  exact .after finds_placeAll fun _ _ => .after finds_placeCells fun _ _ => Bridge.finds_pure rfl

theorem finds_holdNumbers {s : Scalar} {items : List Number} :
    Bridge.Finds (holdNumbers s items block) v fun r => failure? r = none := by
  unfold holdNumbers
  dsimp only
  split
  · exact Bridge.finds_pure rfl
  · exact .after finds_place fun _ _ => Bridge.finds_pure rfl

theorem finds_handOver {items : List Number} :
    Bridge.Finds (handOver items block) v fun r => failure? r = none :=
  .after finds_place fun _ _ => Bridge.finds_pure rfl

theorem finds_encodeElements {elements : Elements} {element : Tag} :
    Bridge.Finds (encodeElements elements element block) v fun r =>
      failure? r = refusalOfElements elements element := by
  unfold encodeElements refusalOfElements
  split
  · cases elements with
    | string texts => exact finds_holdTexts
    | _ => exact Bridge.finds_throw rfl
  · cases element.scalar? with
    | some s =>
      cases numbers? elements with
      | some items =>
        dsimp only
        split
        · exact finds_handOver
        · exact finds_holdNumbers
      | none => exact Bridge.finds_throw rfl
    | none =>
      dsimp only
      split <;> exact Bridge.finds_throw rfl

theorem finds_encodeArray {element : Token} (known : v.database.Has element) :
    Bridge.Finds (encodeArray x element block) v fun r =>
      failure? r = refusalOfArray x (v.database.tagOf element) := by
  obtain ⟨e, found⟩ := known.entry
  refine .next (finds_entry found) ?_
  rw [Database.tagOf, found]
  cases x with
  | nil => exact Bridge.finds_pure rfl
  | pointer a => exact Bridge.finds_pure rfl
  | str text => exact finds_encodeElements
  | array elements => exact finds_encodeElements
  | _ => exact Bridge.finds_throw rfl

theorem finds_encodeBox :
    Bridge.Finds (encodeBox x block) v fun r => failure? r = refusalOfBox v.store x := by
  unfold encodeBox refusalOfBox
  split
  · exact Bridge.finds_pure rfl
  · refine .after finds_store fun s same => ?_
    rw [addressOf_congr same.2]
    cases addressOf v.store x with
    | error f => exact Bridge.finds_throw rfl
    | ok a =>
      have isLive : s.isLive a = v.store.isLive a := by rw [Store.isLive, same.1]; rfl
      have given : Bridge.Finds (liftM (.ok a : Except Failure Address)) v (· = .ok a) :=
        Bridge.finds_except rfl
      refine given.bind (fun b equal => ?_) (fun f equal => by cases equal)
      cases equal
      simp only [isLive]
      split
      · exact Bridge.finds_throw rfl
      · next live =>
        obtain ⟨i, found⟩ : ∃ i, v.store.instances.get? a = some i := by
          simp only [Bool.or_eq_true, Bool.not_eq_true', not_or, Bool.not_eq_false] at live
          exact Option.isSome_iff_exists.mp live.2
        exact .next (finds_liveInstance found) <|
          .after finds_placeCells fun _ _ => Bridge.finds_pure rfl

theorem finds_encodeAddress :
    Bridge.Finds (do
      let s ← store
      let a ← addressOf s x
      return (Slot.ofAddress a, block) : Bridge (Slot × ArgumentBlock)) v fun r =>
      failure? r = failure? (addressOf v.store x) := by
  refine .after finds_store fun s same => ?_
  rw [addressOf_congr same.2]
  cases addressOf v.store x with
  | error f => exact Bridge.finds_throw rfl
  | ok a => exact Bridge.finds_pure rfl

theorem finds_encodeScalar {s : Scalar} :
    Bridge.Finds (do
      let slot ← encodeScalar s x
      return (slot, block) : Bridge (Slot × ArgumentBlock)) v fun r =>
      failure? r = failure? (encodeScalar s x) := by
  cases encodeScalar s x with
  | error f => exact Bridge.finds_throw rfl
  | ok slot => exact Bridge.finds_pure rfl

theorem finds_encodeShape {wanted : Shape}
    (known : ∀ element zero size, wanted = .array element zero size → v.database.Has element) :
    Bridge.Finds (encodeShape x wanted block) v fun r => failure? r = refusalInShape v x wanted := by
  cases wanted with
  | void =>
    simp only [encodeShape, refusalInShape]
    split
    · exact Bridge.finds_pure rfl
    · exact Bridge.finds_throw rfl
  | boolean => exact .after finds_store fun _ _ => Bridge.finds_pure rfl
  | scalar s => exact finds_encodeScalar
  | enumeration format => exact finds_encodeScalar
  | text =>
    cases x with
    | nil => exact Bridge.finds_pure rfl
    | str text => exact finds_holdText
    | _ => exact Bridge.finds_throw rfl
  | array element zero size => exact finds_encodeArray (known element zero size rfl)
  | record target boxed =>
    cases boxed with
    | true => exact finds_encodeBox
    | false => exact finds_encodeAddress
  | object | interface | callback | list => exact finds_encodeAddress

theorem shapeForTarget_ne_array (db : Database) (target : Token) (e : Entry) {element : Token}
    {zero : Bool} {size : Option Nat} :
    shapeForTarget db target e ≠ .ok (.array element zero size) := by
  unfold shapeForTarget
  intro shaped
  repeat' split at shaped
  all_goals cases shaped

/-- The element type of an array shape is a part of the type. -/
theorem mem_parts_of_shapeFor {db : Database} {element : Token} {zero : Bool} {size : Option Nat}
    (shaped : shapeFor db e = .ok (.array element zero size)) : element ∈ e.parts := by
  unfold shapeFor at shaped
  split at shaped
  case h_7 =>
    split at shaped
    · split at shaped
      · next part =>
        cases shaped
        exact List.mem_of_getElem? part
      · cases shaped
    · cases shaped
  case h_8 =>
    split at shaped
    · split at shaped
      · exact absurd shaped (shapeForTarget_ne_array _ _ _)
      · cases shaped
    · cases shaped
  case h_9 => split at shaped <;> cases shaped
  all_goals cases shaped

/-- Encoding ends, and it fails exactly if the value is refused. -/
theorem finds_encode (linked : v.database.Linked) (known : v.database.Has t) :
    Bridge.Finds (encode x t block) v fun r => failure? r = refusal v x t := by
  obtain ⟨e, found⟩ := known.entry
  refine .region <| Bridge.Finds.bind (finds_shape linked found) (fun wanted shaped => ?_)
    fun f shaped => ?_
  · have unfolded : refusal v x t = refusalInShape v x wanted := by
      simp only [refusal, found, ← shaped]
    rw [unfolded]
    exact .after finds_trace fun _ _ => finds_encodeShape fun element zero size same =>
      has_of_reference linked found
        (mem_references_of_part (mem_parts_of_shapeFor (same ▸ shaped.symm)))
  · simp only [refusal, found, ← shaped, failure?]

end Codec
end ObjectBridge
