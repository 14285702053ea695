import ObjectBridge.Proofs.Cursors

/-!
# Indexing a list

A handle on a list is evaluated with an index, counted from one.  This gives what the node with that
index has as its datum, just as moving there by the next nodes does, and an index beyond the ends of
the list is out of range.  So is an index whose node has the null address or zero as its datum,
although such a datum is decoded where one has moved to the node.
-/

namespace ObjectBridge

open Program Bridge ListCursor

variable {calls : Calls} {w w₁ : World} {h : HandleId} {info : Token} {e : Entry} {a : Address}
  {nodes : List Address} {v : Value} {k : Int64} {index : Int} {m : Memory}

/-- What is seen of a slot is no failure of an index. -/
theorem World.decoding_ne_outOfRange (w : World) (slot : Slot) (t : Token) (e : Entry)
    (index : Int) : w.decoding slot t e ≠ .done (.error (.outOfRange index)) := by
  intro failed
  obtain ⟨_, other⟩ := World.unsupported_of_decoding failed
  cases other

theorem World.datumShown_ne_outOfRange (w : World) (e : Entry) (a : Address) (index : Int) :
    w.datumShown e a ≠ .done (.error (.outOfRange index)) := by
  unfold World.datumShown
  split
  · exact w.decoding_ne_outOfRange _ _ _ index
  · simp

namespace ListCursor

/-- Whether an index is refused: it is beyond the ends of the list, or its node has no datum. -/
def Refused (m : Memory) (nodes : List Address) (index : Int) : Prop :=
  index < 1 ∨ nodes.length < index
    ∨ (nodes[(index - 1).toNat]?.any fun node => datum m node = 0) = true

instance (m : Memory) (nodes : List Address) (index : Int) : Decidable (Refused m nodes index) :=
  inferInstanceAs (Decidable (_ ∨ _ ∨ _))

/-- What is seen of a list with an index. -/
def indexShown (w : World) (e : Entry) (nodes : List Address) (index : Int) :
    Outcome (Except Failure Shown) :=
  if index < 1 then .done (.error (.outOfRange index))
  else
    match nodes[(index - 1).toNat]? with
    | some node =>
      if datum w.memory node = 0 then .done (.error (.outOfRange index))
      else w.datumShown e (datum w.memory node)
    | none => .done (.error (.outOfRange index))

theorem indexShown_of_refused (refused : Refused w.memory nodes index) :
    indexShown w e nodes index = .done (.error (.outOfRange index)) := by
  unfold indexShown
  split
  · rfl
  · next positive =>
    rcases refused with below | above | null
    · exact absurd below positive
    · rw [List.getElem?_eq_none (by omega)]
    · obtain ⟨node, listed, zero⟩ := (Option.any_eq_true _ _).mp null
      rw [listed]
      exact if_pos (of_decide_eq_true zero)

theorem indexShown_of_not_refused (fine : ¬Refused w.memory nodes index) :
    ∃ node, nodes[(index - 1).toNat]? = some node
      ∧ indexShown w e nodes index = w.datumShown e (datum w.memory node) := by
  simp only [Refused, not_or, not_lt] at fine
  obtain ⟨positive, within, given⟩ := fine
  have inside : (index - 1).toNat < nodes.length := by omega
  have listed := List.getElem?_eq_getElem inside
  rw [listed, Option.any_some, decide_eq_true_iff] at given
  refine ⟨_, listed, ?_⟩
  rw [indexShown, if_neg (Int.not_lt.mpr positive), listed]
  exact if_neg given

/-- An index is refused exactly if the evaluation says that it is out of range. -/
theorem indexShown_iff :
    indexShown w e nodes index = .done (.error (.outOfRange index))
      ↔ Refused w.memory nodes index := by
  refine ⟨fun same => ?_, indexShown_of_refused⟩
  by_contra fine
  obtain ⟨node, _, shown⟩ := indexShown_of_not_refused fine
  exact w.datumShown_ne_outOfRange _ _ _ (shown.symm.trans same)

/-- Evaluating a cursor looks for the node with the index. -/
theorem displays_nth (calls : Calls) (chain : Chain w.memory a nodes) (present : a ≠ 0)
    (integer : v.toInt? = some k) (sound : w.database.Sound)
    (known : w.database.entry? info = some e) :
    Bridge.Displays calls (nth a info [.value v]) w (indexShown w e nodes k.toInt) := by
  have asked : Bridge.Finds (liftM (indexOf [.value v]) : Bridge Int) w (· = .ok k.toInt) := by
    rw [indexOf, integer]
    exact finds_except rfl
  refine asked.displays spares_except fun w₁ resembles => ?_
  rw [if_neg present, indexShown]
  split
  · exact displays_throw
  · refine Bridge.displays_memory ?_
    rw [resembles.memory, chain.nodeAfter]
    cases listed : nodes[(k.toInt - 1).toNat]? with
    | none => exact displays_throw
    | some node =>
      obtain ⟨inside, same⟩ := List.getElem?_eq_some_iff.mp listed
      rw [Option.getD_some, if_neg (same ▸ chain.ne_zero inside)]
      dsimp only
      split
      · exact displays_throw
      · rw [← resembles.datumShown]
        exact displays_datum (resembles.database ▸ sound) (resembles.database ▸ known)

theorem indexShown_congr (resembles : w.Resembles w₁) :
    indexShown w₁ e nodes index = indexShown w e nodes index := by
  simp only [indexShown, resembles.memory, resembles.datumShown]

/-- What is seen of a handle on a list that is evaluated with an index. -/
theorem OnNode.displays_index (calls : Calls) (on : OnNode w h info e a)
    (chain : Chain w.memory a nodes) (present : a ≠ 0) (integer : v.toInt? = some k)
    (sound : w.database.Sound) :
    Bridge.Displays calls (Handle.eval h [.value v]) w (indexShown w e nodes k.toInt) := by
  refine Bridge.Displays.region (on.displays fun w₁ resembles => ?_)
  rw [if_pos on.list, on.address, ← indexShown_congr resembles]
  exact displays_nth calls (resembles.memory ▸ chain) present integer (resembles.database ▸ sound)
    (resembles.database ▸ on.known)

/-- A chain that has a node starts there. -/
theorem Chain.present (chain : Chain m a nodes) (nonempty : nodes ≠ []) : a ≠ 0 := by
  cases nodes with
  | nil => exact absurd rfl nonempty
  | cons node rest => exact chain.1 ▸ chain.2.1

end ListCursor

namespace Handle

/-- A list that is evaluated with an index.  The index is out of range exactly if it is below one or
above the size, or if the node with that index has no datum; otherwise the datum is given that is
found by following the next nodes. -/
theorem eval_index (calls : Calls) (w : World) (built : w.database.Built) (h : HandleId)
    (info : Token) (e : Entry) (a : Address) (on : OnNode w h info e a) (nodes : List Address)
    (chain : Chain w.memory a nodes) (nonempty : nodes ≠ []) (v : Value) (k : Int64)
    (integer : v.toInt? = some k) :
    (∃ size : Int64,
      Bridge.shown calls (extract h "size") w = .done (.ok (.bare (.int size)))
        ∧ (nodes.length < 2 ^ 63 → size.toInt = nodes.length))
    ∧ (Bridge.shown calls (eval h [.value v]) w = .done (.error (.outOfRange k.toInt))
      ↔ Refused w.memory nodes k.toInt)
    ∧ (¬Refused w.memory nodes k.toInt →
      Bridge.shown calls (eval h [.value v]) w
        = Bridge.shown calls (do
            let node ← follow "next" (k.toInt - 1).toNat (.handle h)
            ask "data" node) w) := by
  have seen := (on.displays_index calls chain (chain.present nonempty) integer built.sound).shown
  rw [seen]
  refine ⟨⟨_, (on.displays_size calls chain).shown, fun small => ?_⟩, indexShown_iff,
    fun fine => ?_⟩
  · exact Int64.toInt_ofInt_of_le (by omega) (by omega)
  · obtain ⟨node, listed, shown⟩ := indexShown_of_not_refused fine
    rw [shown, on.shown_walk calls chain built.sound listed]

/-- A type of lists of integers. -/
def sampleListTypes : Database :=
  let numbers := (({} : Database).addType (.plain .int32)).2
  (numbers.addType (.list true 1)).2

/-- The integers one, zero and three. -/
def sampleListItems : List Script.SlotTerm := [1, 0, 3].map (.integer ⟨32, true⟩)

/-- The world in which the list is made. -/
def sampleListStart : World :=
  { database := sampleListTypes, bench := { identifiers := [("numbers", 2)] } }

/-- A world with a handle on the list of these integers. -/
def sampleList : World :=
  (Session.advanceAll 1
    [.nativeList "L" sampleListItems,
      .decode (.existing "numbers") (.address (some "L[0]")) (some "list")] sampleListStart).2

/-- The nodes of the list. -/
def sampleListNodes : List Address :=
  (nodes? sampleList.memory 3 (sampleList.store.handle 1).address).getD []

theorem sampleListTypes_built : sampleListTypes.Built := by
  apply Database.Built.next (.next .empty (.type ?_)) (.type ?_)
  all_goals decide

theorem sampleList_onNode :
    ∃ e, OnNode sampleList 1 2 e (sampleList.store.handle 1).address := by
  have list : (sampleList.database.entry? 2).map isListType = some true := by decide +kernel
  obtain ⟨e, known, list⟩ := Option.map_eq_some_iff.mp list
  exact ⟨e, by decide +kernel, rfl, known, list⟩

/-- The second number is zero: it is there, and yet its index is out of range. -/
theorem zero_datum_refused :
    Bridge.shown (Session.calls 1) (extract 1 "size") sampleList = .done (.ok (.bare (.int 3)))
      ∧ Bridge.shown (Session.calls 1) (eval 1 [.value (.int 2)]) sampleList
        = .done (.error (.outOfRange 2))
      ∧ Bridge.shown (Session.calls 1) (do
          let node ← follow "next" 1 (.handle 1)
          ask "data" node) sampleList = .done (.ok (.bare (.int 0))) := by
  decide +kernel

theorem eval_index_sample :
    Bridge.shown (Session.calls 1) (eval 1 [.value (.int 2)]) sampleList
        = .done (.error (.outOfRange 2))
      ∧ Bridge.shown (Session.calls 1) (eval 1 [.value (.int 3)]) sampleList
        = Bridge.shown (Session.calls 1) (do
            let node ← follow "next" 2 (.handle 1)
            ask "data" node) sampleList := by
  have same : sampleList.database = sampleListTypes := by decide +kernel
  have built : sampleList.database.Built := same ▸ sampleListTypes_built
  have chain : Chain sampleList.memory (sampleList.store.handle 1).address sampleListNodes := by
    decide +kernel
  have nonempty : sampleListNodes ≠ [] := by decide +kernel
  obtain ⟨e, on⟩ := sampleList_onNode
  obtain ⟨_, refusal, _⟩ := eval_index (Session.calls 1) sampleList built 1 2 e _ on
    sampleListNodes chain nonempty (.int 2) 2 rfl
  obtain ⟨_, _, agrees⟩ := eval_index (Session.calls 1) sampleList built 1 2 e _ on
    sampleListNodes chain nonempty (.int 3) 3 rfl
  exact ⟨refusal.mpr (by decide +kernel), agrees (by decide +kernel)⟩

end Handle
end ObjectBridge
