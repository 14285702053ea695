import ObjectBridge.Proofs.Refusing

/-!
# Why types and values are refused

A type without a shape is unsupported, and its entry says why.  In a shape a value is refused because
it has another type than is wanted, or because the elements of an array have no encoding.
-/

namespace ObjectBridge

open Program

variable {w : World} {db : Database} {t : Nat} {e : Entry} {x : Value} {f : Failure}

/-- Whether a failure says that a value has another type than is wanted. -/
def Failure.isMismatch : Failure → Bool
  | mismatch _ _ => true
  | _ => false

/-- Whether the elements of native arrays of a tag have an encoding.  The tag of no value counts as
having one, since arrays of it are refused as a mismatch. -/
def Tag.isElement : Tag → Bool
  | boolean | gtype | array | interface | glist | gslist | ghash | error | unichar => false
  | _ => true

/-- Whether a value stands for a host array. -/
def Value.isArray : Value → Bool
  | str _ | array _ => true
  | _ => false

/-- The first failure along a list is that of one of its items. -/
theorem exists_of_failure_mapM {ε α β : Type} {g : α → Except ε β} {items : List α} {failed : ε}
    (ran : failure? (items.mapM g) = some failed) : ∃ y ∈ items, failure? (g y) = some failed := by
  induction items with
  | nil => cases ran
  | cons y rest ih =>
    rw [List.mapM_cons] at ran
    cases first : g y with
    | error e =>
      rw [first] at ran
      exact ⟨y, List.mem_cons_self, by rw [first]; exact ran⟩
    | ok z =>
      rw [first] at ran
      have later : failure? (rest.mapM g) = some failed := by
        cases others : rest.mapM g with
        | error e => rw [others] at ran; exact ran
        | ok zs => rw [others] at ran; cases ran
      obtain ⟨y', member, found⟩ := ih later
      exact ⟨y', List.mem_cons_of_mem y member, found⟩

namespace Codec

/-- Why a type is unsupported. -/
inductive Unsupported (db : Database) (e : Entry) : String → Prop
  /-- Its tag has no values here. -/
  | tag (foreign : e.tag = .gtype ∨ e.tag = .ghash ∨ e.tag = .error ∨ e.tag = .unichar) :
      Unsupported db e e.tag.name
  /-- It is an array that is not stored as its elements alone. -/
  | form (array : e.tag = .array) (other : e.arrayForm ≠ .plain) :
      Unsupported db e (e.arrayForm.name ++ " array")
  /-- It is an array without an element type. -/
  | bare (array : e.tag = .array) (plain : e.arrayForm = .plain) (none : e.parts = []) :
      Unsupported db e "array without element type"
  /-- It should refer to an entry and refers to none. -/
  | untargeted (interface : e.tag = .interface) (none : e.target? = none) :
      Unsupported db e "interface without target"
  /-- It refers to an enumeration that is not stored as integers. -/
  | storage {target : Token} {f : Entry} (refers : e.target? = some target)
      (found : db.entry? target = some f) (enumeration : f.kind = .enum ∨ f.kind = .flags)
      (other : f.storage.integer? = none) : Unsupported db e ("enum storage " ++ f.storage.name)
  /-- It refers to an entry of another kind. -/
  | kind {target : Token} {f : Entry} (refers : e.target? = some target)
      (found : db.entry? target = some f)
      (other : f.kind ∉ [EntryKind.object, .interface, .callback, .struct, .boxed, .union, .enum,
        .flags]) : Unsupported db e ("interface kind " ++ f.kind.name)

theorem tag_of_target {target : Token} (refers : e.target? = some target) : e.tag = .interface := by
  unfold Entry.target? at refers
  split at refers
  · next content => simp only [Entry.tag, content]
  · cases refers

/-- A type that refers to an entry has a shape, or the entry says why it has none. -/
theorem shapeForTarget_error_iff {target : Token} {g : Entry} :
    shapeForTarget db target g = .error f
      ↔ (g.kind = .enum ∨ g.kind = .flags) ∧ g.storage.integer? = none
          ∧ f = .unsupported ("enum storage " ++ g.storage.name)
        ∨ g.kind ∉ [EntryKind.object, .interface, .callback, .struct, .boxed, .union, .enum, .flags]
          ∧ f = .unsupported ("interface kind " ++ g.kind.name) := by
  unfold shapeForTarget
  cases kind : g.kind <;>
    simp [EntryKind.isEnumeration, EntryKind.isRecord, eq_comm (a := f)]
  all_goals cases g.storage.integer? <;> simp

/-- A type without a shape is unsupported, whatever the database. -/
theorem unsupported_of_shapeFor (failed : shapeFor db e = .error f) :
    ∃ text, f = .unsupported text := by
  unfold shapeFor shapeForTarget at failed
  repeat' split at failed
  all_goals first | exact ⟨_, (Except.error.inj failed).symm⟩ | cases failed

/-- A type has a shape, or its entry says why it has none. -/
theorem shapeFor_error_iff (linked : w.database.Linked) (found : w.database.entry? t = some e) :
    shapeFor w.database e = .error f
      ↔ ∃ text, f = .unsupported text ∧ Unsupported w.database e text := by
  constructor
  · intro failed
    unfold shapeFor at failed
    cases tagged : e.tag <;> rw [tagged] at failed
    case array =>
      dsimp only at failed
      split at failed
      · next plain =>
        cases parts : e.parts with
        | nil =>
          rw [parts] at failed
          cases failed
          exact ⟨_, rfl, .bare tagged plain parts⟩
        | cons element rest => rw [parts] at failed; cases failed
      · next other =>
        cases failed
        exact ⟨_, rfl, .form tagged other⟩
    case interface =>
      dsimp only at failed
      cases refers : e.target? with
      | none =>
        rw [refers] at failed
        cases failed
        exact ⟨_, rfl, .untargeted tagged refers⟩
      | some target =>
        obtain ⟨g, known⟩ := (has_of_reference linked found (mem_references_of_target refers)).entry
        simp only [refers, known] at failed
        rcases shapeForTarget_error_iff.mp failed with
          ⟨enumeration, other, rfl⟩ | ⟨other, rfl⟩
        · exact ⟨_, rfl, .storage refers known enumeration other⟩
        · exact ⟨_, rfl, .kind refers known other⟩
    case gtype | ghash | error | unichar =>
      cases failed
      exact ⟨_, rfl, tagged ▸ .tag (by simp [tagged])⟩
    all_goals cases failed
  · rintro ⟨text, rfl, unsupported⟩
    cases unsupported with
    | tag foreign =>
      unfold shapeFor
      rcases foreign with tagged | tagged | tagged | tagged <;> rw [tagged] <;> rfl
    | form array other => simp [shapeFor, array, other]
    | bare array plain none => simp [shapeFor, array, plain, none]
    | untargeted interface none => simp [shapeFor, interface, none]
    | storage refers known enumeration other =>
      simp only [shapeFor, tag_of_target refers, refers, known]
      exact shapeForTarget_error_iff.mpr (.inl ⟨enumeration, other, rfl⟩)
    | kind refers known other =>
      simp only [shapeFor, tag_of_target refers, refers, known]
      exact shapeForTarget_error_iff.mpr (.inr ⟨other, rfl⟩)

/-! ### Values -/

theorem isMismatch_encodeScalar {s : Scalar} (failed : failure? (encodeScalar s x) = some f) :
    f.isMismatch = true := by
  unfold encodeScalar at failed
  repeat' split at failed
  all_goals
    cases failed
    try rfl

theorem isMismatch_stringBytes {text : String} (failed : failure? (stringBytes text) = some f) :
    f.isMismatch = true := by
  unfold stringBytes at failed
  split at failed <;> cases failed
  rfl

theorem isMismatch_addressOf {s : Store} (failed : failure? (addressOf s x) = some f) :
    f.isMismatch = true := by
  cases x <;> cases failed <;> rfl

theorem isMismatch_mapM_stringBytes {texts : List String}
    (failed : failure? (texts.mapM stringBytes) = some f) : f.isMismatch = true := by
  obtain ⟨text, _, first⟩ := exists_of_failure_mapM failed
  exact isMismatch_stringBytes first

/-- An array is refused as a mismatch, or because its elements have no encoding. -/
theorem refusalOfElements_cases (elements : Elements) {element : Tag}
    (failed : refusalOfElements elements element = some f) :
    f.isMismatch = true
      ∨ element.isElement = false ∧ f = .unsupported ("array of " ++ element.name) := by
  unfold refusalOfElements at failed
  split at failed
  · split at failed
    · exact .inl (isMismatch_mapM_stringBytes failed)
    · cases failed
      exact .inl rfl
  · next string =>
    split at failed
    · split at failed <;> cases failed
      exact .inl rfl
    · next numeric =>
      split at failed <;> cases failed
      · exact .inl rfl
      · next other =>
        refine .inr ⟨?_, rfl⟩
        cases element <;>
          first | rfl | exact absurd rfl string | exact absurd rfl other | cases numeric

/-- An array whose elements have no encoding is refused. -/
theorem refusalOfElements_eq {element : Tag} (other : element.isElement = false)
    (elements : Elements) :
    refusalOfElements elements element = some (.unsupported ("array of " ++ element.name)) := by
  cases element <;> first | rfl | cases other

theorem refusalOfArray_cases {element : Tag} (failed : refusalOfArray x element = some f) :
    f.isMismatch = true ∨ x.isArray = true ∧ element.isElement = false
      ∧ f = .unsupported ("array of " ++ element.name) := by
  cases x with
  | str text =>
    exact (refusalOfElements_cases (.string [text]) failed).imp_right (⟨rfl, ·⟩)
  | array elements =>
    exact (refusalOfElements_cases elements failed).imp_right (⟨rfl, ·⟩)
  | nil | pointer => cases failed
  | _ =>
    cases failed
    exact .inl rfl

theorem isMismatch_refusalOfBox {s : Store} (failed : refusalOfBox s x = some f) :
    f.isMismatch = true := by
  unfold refusalOfBox at failed
  split at failed
  · cases failed
  · split at failed
    · next g wrong =>
      cases failed
      exact isMismatch_addressOf (s := s) (x := x) (by rw [wrong]; rfl)
    · split at failed <;> cases failed
      rfl

/-- In a shape a value is refused as a mismatch, or because the elements of an array have no
encoding. -/
theorem refusalInShape_cases {wanted : Shape} (failed : refusalInShape w x wanted = some f) :
    f.isMismatch = true ∨ ∃ element zero size, wanted = .array element zero size
      ∧ x.isArray = true ∧ (w.database.tagOf element).isElement = false
      ∧ f = .unsupported ("array of " ++ (w.database.tagOf element).name) := by
  cases wanted with
  | array element zero size =>
    refine (refusalOfArray_cases failed).imp_right ?_
    rintro ⟨array, other, rfl⟩
    exact ⟨element, zero, size, rfl, array, other, rfl⟩
  | void =>
    rw [refusalInShape] at failed
    split at failed <;> cases failed
    exact .inl rfl
  | boolean => cases failed
  | scalar s => exact .inl (isMismatch_encodeScalar failed)
  | enumeration format => exact .inl (isMismatch_encodeScalar failed)
  | text =>
    refine .inl ?_
    cases x with
    | nil => cases failed
    | str text => exact isMismatch_stringBytes failed
    | _ => cases failed; rfl
  | record target boxed =>
    cases boxed with
    | true => exact .inl (isMismatch_refusalOfBox failed)
    | false => exact .inl (isMismatch_addressOf failed)
  | object | interface | callback | list => exact .inl (isMismatch_addressOf failed)

end Codec
end ObjectBridge
