import ObjectBridge.Proofs.Indexing
import ObjectBridge.Session.Make

/-!
# Native lists

A session makes a native list by reserving its nodes, one far from the other, and then linking them:
each node gets its datum, the address of the next node and that of the previous one.  As long as
these cells stay as they are, the nodes are the chain from the head on, each with its datum, and the
previous node of each is the one before it.
-/

namespace ObjectBridge

open Program Script Session

variable {calls : Calls} {w : World} {m m' : Memory} {before : Address}
  {pairs : List (Address × Slot)} {nodes : List Address} {data : List Slot} {k : Nat}

namespace ListCursor

/-- Nodes hold their data and are linked to their neighbours, the first one to the node before. -/
def Linked (m : Memory) : Address → List (Address × Slot) → Prop
  | _, [] => True
  | before, (node, d) :: rest =>
    node ≠ 0 ∧ datum m node = d.word ∧ next m node = (rest.map Prod.fst).headD 0
      ∧ previous m node = before ∧ Linked m node rest

/-- Linked nodes are a chain. -/
theorem Linked.chain (linked : Linked m before pairs) :
    Chain m ((pairs.map Prod.fst).headD 0) (pairs.map Prod.fst) := by
  induction pairs generalizing before with
  | nil => rfl
  | cons pair rest ih =>
    obtain ⟨present, _, onward, _, others⟩ := linked
    exact ⟨rfl, present, onward ▸ ih others⟩

/-- The datum of a node, and the node before it. -/
theorem Linked.getElem (linked : Linked m before pairs) (within : k < pairs.length) :
    datum m pairs[k].1 = pairs[k].2.word
      ∧ previous m pairs[k].1 = (before :: pairs.map Prod.fst)[k]?.getD 0 := by
  induction k generalizing before pairs with
  | zero =>
    cases pairs with
    | nil => cases within
    | cons pair rest => exact ⟨linked.2.1, linked.2.2.2.1⟩
  | succ k ih =>
    cases pairs with
    | nil => cases within
    | cons pair rest => exact ih linked.2.2.2.2 (Nat.lt_of_succ_lt_succ within)

theorem Linked.node (linked : Linked m before (nodes.zip data)) (count : nodes.length = data.length)
    (within : k < nodes.length) (inside : k < data.length) :
    datum m nodes[k] = data[k].word ∧ previous m nodes[k] = (before :: nodes)[k]?.getD 0 := by
  have firsts : (nodes.zip data).map Prod.fst = nodes := List.map_fst_zip (Nat.le_of_eq count)
  have both : k < (nodes.zip data).length := by
    rw [List.length_zip]
    exact Nat.lt_min.mpr ⟨within, inside⟩
  have here := linked.getElem both
  rwa [firsts, List.getElem_zip] at here

/-- Nodes stay linked where their cells stay as they are. -/
theorem Linked.congr (linked : Linked m before pairs)
    (same : ∀ node ∈ pairs.map Prod.fst, ∀ i < nodeSize,
      m'.cell (node + i) = m.cell (node + i)) :
    Linked m' before pairs := by
  induction pairs generalizing before with
  | nil => trivial
  | cons pair rest ih =>
    obtain ⟨present, held, onward, back, others⟩ := linked
    have here := same pair.1 List.mem_cons_self
    have stored (offset : Nat) (inside : offset + 8 ≤ nodeSize) :
        m'.readAddress (pair.1 + offset) = m.readAddress (pair.1 + offset) :=
      Memory.readAddress_congr fun i small => by
        rw [Nat.add_assoc]
        exact here (offset + i) (Nat.lt_of_lt_of_le (Nat.add_lt_add_left small offset) inside)
    exact ⟨present, (stored 0 (by decide)).trans held, (stored 8 (by decide)).trans onward,
      (stored 16 (by decide)).trans back,
      ih others fun node member => same node (List.mem_cons_of_mem _ member)⟩

end ListCursor

namespace Session

open ListCursor

/-- New nodes lie above what was reserved, none reaching into another one, and nothing is
written. -/
structure Reserved (m : Memory) (nodes : List Address) (m' : Memory) : Prop where
  /-- The nodes are new. -/
  above : ∀ node ∈ nodes, m.next ≤ node
  /-- They do not overlap. -/
  apart : nodes.Pairwise fun a b => a + nodeSize ≤ b
  /-- What lies in memory stays. -/
  cells : ∀ a, m'.cell a = m.cell a

/-- Reserve a node. -/
def reserveNode : Program Address := request (.place [] nodeSize)

/-- Reserving nodes. -/
theorem run_reserve (calls : Calls) (data : List Slot) (w : World) :
    ∃ nodes m,
      (each (fun _ => reserveNode) data).run calls w = (.done nodes, { w with memory := m })
      ∧ nodes.length = data.length ∧ Reserved w.memory nodes m := by
  induction data generalizing w with
  | nil =>
    exact ⟨[], w.memory, rfl, rfl, fun _ member => absurd member List.not_mem_nil, .nil,
      fun _ => rfl⟩
  | cons d rest ih =>
    let m₁ := (w.memory.place [] nodeSize).2
    have room : w.memory.next + nodeSize ≤ m₁.next := by
      change w.memory.next + nodeSize
        ≤ w.memory.next + UInt64.size + 16 * (max nodeSize 0 / 16 + 1)
      rw [Nat.add_assoc]
      exact Nat.add_le_add_left (by decide) _
    obtain ⟨nodes, m, ran, count, reserved⟩ := ih { w with memory := m₁ }
    refine ⟨w.memory.next :: nodes, m, ?_, congrArg Nat.succ count, fun node member => ?_,
      List.pairwise_cons.mpr ⟨fun node member => ?_, reserved.apart⟩, fun a => ?_⟩
    · have first : reserveNode.run calls w = (.done w.memory.next, { w with memory := m₁ }) :=
        run_request
      rw [each, run_bind, first]
      dsimp only
      rw [run_bind, ran]
      rfl
    · rcases List.mem_cons.mp member with rfl | later
      · exact Nat.le_refl _
      · exact Nat.le_trans (Nat.le_trans (Nat.le_add_right _ _) room) (reserved.above node later)
    · exact Nat.le_trans room (reserved.above node member)
    · rw [reserved.cells]
      exact Memory.cell_write_apart _ (Nat.lt_or_ge a _)

/-- Linking nodes that do not overlap.  What lies elsewhere in memory stays. -/
theorem run_linkNodes (calls : Calls) (before : Address) (pairs : List (Address × Slot)) (w : World)
    (present : ∀ node ∈ pairs.map Prod.fst, node ≠ 0)
    (apart : (pairs.map Prod.fst).Pairwise fun a b => a + nodeSize ≤ b) :
    ∃ m, (linkNodes before pairs).run calls w = (.done (), { w with memory := m })
      ∧ Linked m before pairs
      ∧ ∀ a, (∀ node ∈ pairs.map Prod.fst, a < node ∨ node + nodeSize ≤ a) →
        m.cell a = w.memory.cell a := by
  induction pairs generalizing before w with
  | nil => exact ⟨w.memory, rfl, trivial, fun _ _ => rfl⟩
  | cons pair rest ih =>
    obtain ⟨node, d⟩ := pair
    obtain ⟨behind, apart⟩ := List.pairwise_cons.mp apart
    let following := (rest.map Prod.fst).headD 0
    let cells := Cell.ofSlot 8 d ++ Cell.ofAddress following ++ Cell.ofAddress before
    let m₁ := w.memory.write node cells
    obtain ⟨m, ran, linked, frame⟩ := ih node { w with memory := m₁ }
      (fun other member => present other (List.mem_cons_of_mem _ member)) apart
    have eight : Cell.ofSlot 8 d = Cell.ofAddress d.word := if_pos rfl
    have size : cells.length = nodeSize := by
      rw [List.length_append, List.length_append, eight]
      simp only [Cell.length_ofAddress]
      rfl
    have lies : m.Lies node cells := by
      intro i within
      rw [frame (node + i) fun other member => .inl ?_]
      · exact w.memory.lies_write node cells i within
      · exact Nat.lt_of_lt_of_le (Nat.add_lt_add_left (size ▸ within) node) (behind other member)
    refine ⟨m, ?_, ?_, fun a outside => ?_⟩
    · have goes : linkNodes before ((node, d) :: rest)
          = (request (.write node cells) : Program Unit) >>= fun _ => linkNodes node rest := by
        cases rest <;> rfl
      rw [goes]
      exact run_request_bind.trans ran
    · obtain ⟨⟨held, onward⟩, back⟩ := (Memory.lies_append.mp lies).imp_left Memory.lies_append.mp
      rw [eight] at held onward back
      rw [Cell.length_ofAddress] at onward
      rw [List.length_append, Cell.length_ofAddress, Cell.length_ofAddress] at back
      exact ⟨present node List.mem_cons_self, held.readAddress, onward.readAddress,
        back.readAddress, linked⟩
    · rw [frame a fun other member => outside other (List.mem_cons_of_mem _ member)]
      exact Memory.cell_write_apart _ (size ▸ outside node List.mem_cons_self)

/-- The labels of nodes from a position on. -/
def nodeLabels (label : String) : Nat → List Address → List (String × Address)
  | _, [] => []
  | index, node :: rest =>
    (label ++ "[" ++ toString index ++ "]", node) :: nodeLabels label (index + 1) rest

theorem run_labelNodes (calls : Calls) (label : String) (index : Nat) (nodes : List Address)
    (w : World) :
    (labelNodes label index nodes).run calls w
      = (.done (), { w with bench := { w.bench with
          book := w.bench.book ++ nodeLabels label index nodes } }) := by
  induction nodes generalizing index w with
  | nil =>
    rw [nodeLabels, List.append_nil]
    rfl
  | cons node rest ih =>
    let named := label ++ "[" ++ toString index ++ "]"
    have goes : labelNodes label index (node :: rest)
        = (request (.label named node) : Program Unit) >>= fun _ =>
          labelNodes label (index + 1) rest := rfl
    rw [goes]
    refine run_request_bind.trans ((ih (index + 1) _).trans ?_)
    rw [nodeLabels, List.append_assoc]
    rfl

/-- Making a native list.  Its nodes hold the data in order and are linked both ways, they are found
by their labels, and whatever was in memory stays. -/
theorem run_nativeList (calls : Calls) (label : String) {items : List SlotTerm} {w w₁ : World}
    (filled : (each slotOf items).run calls w = (.done data, w₁)) (reserved : 0 < w₁.memory.next) :
    ∃ report w₂ nodes, (nativeList label items).run calls w = (.done report, w₂)
      ∧ nodes.length = data.length ∧ Linked w₂.memory 0 (nodes.zip data)
      ∧ w₂.bench.book = w₁.bench.book ++ nodeLabels label 0 nodes
      ∧ ∀ a < w₁.memory.next, w₂.memory.cell a = w₁.memory.cell a := by
  obtain ⟨nodes, m, ran, count, fresh⟩ := run_reserve calls data w₁
  have firsts : (nodes.zip data).map Prod.fst = nodes := List.map_fst_zip (Nat.le_of_eq count)
  have present : ∀ node ∈ (nodes.zip data).map Prod.fst, node ≠ 0 := by
    rw [firsts]
    exact fun node member => Nat.ne_of_gt (Nat.lt_of_lt_of_le reserved (fresh.above node member))
  obtain ⟨m', joined, linked, frame⟩ := run_linkNodes calls 0 (nodes.zip data)
    { w₁ with memory := m } present (firsts.symm ▸ fresh.apart)
  have labelled := run_labelNodes calls label 0 nodes { w₁ with memory := m' }
  let w₂ : World := { w₁ with
    memory := m'
    bench := { w₁.bench with book := w₁.bench.book ++ nodeLabels label 0 nodes } }
  let report : Report := .record
    [("head", labelOf w₂.bench w₂.store (nodes.headD 0)), ("len", .nat nodes.length),
      ("empty", .bool nodes.isEmpty), ("past_end", .none)]
  refine ⟨report, w₂, nodes, ?_, count, linked, rfl, fun a below => ?_⟩
  · change (each slotOf items >>= fun data => each (fun _ => reserveNode) data >>= fun nodes =>
      linkNodes 0 (nodes.zip data) >>= fun _ => labelNodes label 0 nodes >>= fun _ =>
      showAddress (nodes.headD 0) >>= fun head => pure (Report.record
        [("head", head), ("len", .nat nodes.length), ("empty", .bool nodes.isEmpty),
          ("past_end", .none)])).run calls w = _
    rw [run_bind, filled]
    dsimp only
    rw [run_bind, ran]
    dsimp only
    rw [run_bind, joined]
    dsimp only
    rw [run_bind, labelled]
    rfl
  · rw [frame a fun node member => .inl ?_]
    · exact fresh.cells a
    · rw [firsts] at member
      exact Nat.lt_of_lt_of_le below (fresh.above node member)

end Session

namespace ListCursor

open Handle Bridge

variable {h : HandleId} {info : Token} {e : Entry}

/-- What is seen of a neighbour that may be absent. -/
def nodeShown (info : Token) : Option Address → Shown
  | some node => .handle (some info) (some ⟨node, .borrowed⟩)
  | none => .bare .nil

/-- What holds of a handle on the head of a list of nodes with their data. -/
structure CursorLaws (calls : Calls) (w : World) (h : HandleId) (info : Token) (e : Entry)
    (nodes : List Address) (data : List Slot) : Prop where
  /-- Following the next node some times leads to the node with that index. -/
  reached : ∀ k (within : k < nodes.length), ∃ attachment : Attachment,
    attachment.address = nodes[k]
      ∧ Sees calls (follow "next" k (.handle h)) w (.ok (.handle (some info) (some attachment)))
  /-- Its size is the number of nodes from there on. -/
  size : ∀ k < nodes.length, Sees calls (follow "next" k (.handle h) >>= ask "size") w
    (.ok (.bare (.int (Int64.ofInt (nodes.length - k : Nat)))))
  /-- Its datum is the decoded datum with the same index. -/
  data : ∀ k (within : k < data.length) (element : Token), e.parts[0]? = some element →
    Bridge.shown calls (follow "next" k (.handle h) >>= ask "data") w
      = Bridge.shown calls (Codec.decode data[k] element) w
  /-- The next node is the one with the next index, and absent behind the last one. -/
  next : ∀ k < nodes.length, Sees calls (follow "next" k (.handle h) >>= ask "next") w
    (.ok (nodeShown info nodes[k + 1]?))
  /-- In a doubly linked list, the previous node is the one with the index before, and absent before
  the head. -/
  previous : e.tag = .glist → ∀ k < nodes.length,
    Sees calls (follow "next" k (.handle h) >>= ask "prev") w
      (.ok (nodeShown info (if k = 0 then none else nodes[k - 1]?)))
  /-- There, following the previous node as often leads back to the head. -/
  back : e.tag = .glist → ∀ k < nodes.length, ∃ attachment : Attachment,
    attachment.address = nodes.headD 0
      ∧ Sees calls (follow "next" k (.handle h) >>= follow "prev" k) w
        (.ok (.handle (some info) (some attachment)))
  /-- In a singly linked list there is no previous node. -/
  single : e.tag = .gslist → ∀ k < nodes.length,
    Sees calls (follow "next" k (.handle h) >>= ask "prev") w (.error .noPrevious)
  /-- The empty list has the size zero, and neither a datum nor neighbours. -/
  empty : nodes = [] →
    Sees calls (Handle.extract h "size") w (.ok (.bare (.int 0)))
      ∧ ∀ name ∈ ["data", "next", "prev"], Sees calls (Handle.extract h name) w (.error .emptyList)

theorem neighbourShown_getD (chain : Chain m before nodes) (k : Nat) :
    neighbourShown info (nodes[k]?.getD 0) = nodeShown info nodes[k]? := by
  cases listed : nodes[k]? with
  | none => rfl
  | some node =>
    obtain ⟨within, same⟩ := List.getElem?_eq_some_iff.mp listed
    rw [Option.getD_some, neighbourShown, if_neg (same ▸ chain.ne_zero within), nodeShown]

/-- The laws hold of every list of linked nodes. -/
theorem cursorLaws (calls : Calls) (sound : w.database.Sound) (count : nodes.length = data.length)
    (linked : Linked w.memory 0 (nodes.zip data)) (on : OnNode w h info e (nodes.headD 0)) :
    CursorLaws calls w h info e nodes data := by
  have firsts : (nodes.zip data).map Prod.fst = nodes := List.map_fst_zip (Nat.le_of_eq count)
  have chain : Chain w.memory (nodes.headD 0) nodes := firsts ▸ linked.chain
  have reaches (k : Nat) (within : k < nodes.length) :
      ∃ h' w', Walks calls (follow "next" k (.handle h)) w info e nodes[k] h' w' :=
    chain.follow calls on within
  constructor
  case reached =>
    intro k within
    obtain ⟨h', w', walks⟩ := reaches k within
    exact walks.sees (chain.ne_zero within)
  case size =>
    intro k within
    obtain ⟨h', w', walks⟩ := reaches k within
    have later := chain.drop_getElem within
    rw [← walks.memory] at later
    have seen := walks.on.displays_size calls later
    rw [List.length_drop] at seen
    exact walks.sees_bind (seen.sees rfl)
  case data =>
    intro k within element listed
    have inside : k < nodes.length := count ▸ within
    obtain ⟨f, found, element_eq⟩ := World.elementOf_eq sound on.known listed
    rw [on.shown_walk calls chain sound (List.getElem?_eq_getElem inside),
      (linked.node count inside within).1, World.datumShown, element_eq]
    exact (Codec.displays_decode data[k] sound found).shown.symm
  case next =>
    intro k within
    obtain ⟨h', w', walks⟩ := reaches k within
    have seen := walks.on.displays_next calls (chain.ne_zero within)
    rw [walks.memory, chain.next within, neighbourShown_getD chain] at seen
    exact walks.sees_bind (seen.sees (by cases nodes[k + 1]? <;> rfl))
  case previous =>
    intro double k within
    obtain ⟨h', w', walks⟩ := reaches k within
    have seen := walks.on.displays_previous calls (chain.ne_zero within) double
    rw [walks.memory, (linked.node count within (count ▸ within)).2] at seen
    cases k with
    | zero => exact walks.sees_bind (seen.sees rfl)
    | succ j =>
      rw [List.getElem?_cons_succ, neighbourShown_getD chain] at seen
      exact walks.sees_bind (seen.sees (by cases nodes[j]? <;> rfl))
  case back =>
    intro double k within
    obtain ⟨h', w', walks⟩ := reaches k within
    have links : ∀ j (inside : j + 1 < nodes.length),
        previous w'.memory nodes[j + 1] = nodes[j] := by
      intro j inside
      rw [walks.memory, (linked.node count inside (count ▸ inside)).2, List.getElem?_cons_succ,
        List.getElem?_eq_getElem (Nat.lt_of_succ_lt inside), Option.getD_some]
    have present : ∀ node ∈ nodes, node ≠ 0 := fun node member => by
      obtain ⟨j, inside, rfl⟩ := List.getElem_of_mem member
      exact chain.ne_zero inside
    obtain ⟨h₂, w₂, back⟩ := follow_back calls links double present within walks.on
    have head : nodes.headD 0 = nodes[0] := by
      rw [List.headD_eq_head?_getD, List.head?_eq_getElem?, List.getElem?_eq_getElem (by omega),
        Option.getD_some]
    rw [head]
    exact (walks.bind back).sees (chain.ne_zero _)
  case single =>
    intro single k within
    obtain ⟨h', w', walks⟩ := reaches k within
    have other : e.tag ≠ .glist := by rw [single]; decide
    have seen := walks.on.displays_no_previous calls (chain.ne_zero within) other
    exact walks.sees_bind (seen.sees rfl)
  case empty =>
    rintro rfl
    refine ⟨(on.displays_size calls chain).sees rfl, fun name member => ?_⟩
    simp only [List.mem_cons, List.not_mem_nil, or_false] at member
    rcases member with rfl | rfl | rfl
    · exact (on.displays_empty calls .data rfl (by decide)).sees rfl
    · exact (on.displays_empty calls .next rfl (by decide)).sees rfl
    · exact (on.displays_empty calls .previous rfl (by decide)).sees rfl

end ListCursor

namespace Session

open ListCursor Handle

theorem length_each {α β : Type} {f : α → Program β} {items : List α} {found : List β}
    {w w' : World} (ran : (each f items).run calls w = (.done found, w')) :
    found.length = items.length := by
  induction items generalizing w found with
  | nil =>
    cases ran
    rfl
  | cons x rest ih =>
    obtain ⟨y, w₁, _, others⟩ := run_bind_done.mp ran
    obtain ⟨ys, w₂, later, last⟩ := run_bind_done.mp others
    cases last
    rw [List.length_cons, List.length_cons, ih later]

theorem map_snd_nodeLabels (label : String) (index : Nat) (nodes : List Address) :
    (nodeLabels label index nodes).map Prod.snd = nodes := by
  induction nodes generalizing index with
  | nil => rfl
  | cons node rest ih => rw [nodeLabels, List.map_cons, ih]

/-- A native list is made of nodes, one for each item in order, which are found by their labels.
Whenever these nodes are as they were made, the laws of cursors hold of every handle on the head
that is typed by a list type. -/
theorem native_list_cursors (calls : Calls) (w w₁ : World) (label : String)
    (items : List SlotTerm) (data : List Slot)
    (filled : (each slotOf items).run calls w = (.done data, w₁)) (reserved : 0 < w₁.memory.next) :
    ∃ report w₂ nodes, (nativeList label items).run calls w = (.done report, w₂)
      ∧ data.length = items.length ∧ nodes.length = items.length
      ∧ w₂.bench.book = w₁.bench.book ++ nodeLabels label 0 nodes
      ∧ (∀ a < w₁.memory.next, w₂.memory.cell a = w₁.memory.cell a)
      ∧ ∀ (calls' : Calls) (w' : World), w'.database.Built →
        (∀ node ∈ nodes, ∀ i < nodeSize, w'.memory.cell (node + i) = w₂.memory.cell (node + i)) →
        ∀ h info e, OnNode w' h info e (nodes.headD 0) →
          CursorLaws calls' w' h info e nodes data := by
  obtain ⟨report, w₂, nodes, made, count, linked, book, frame⟩ :=
    run_nativeList calls label filled reserved
  have number := length_each filled
  refine ⟨report, w₂, nodes, made, number, count.trans number, book, frame, ?_⟩
  intro calls' w' built intact h info e on
  have firsts : (nodes.zip data).map Prod.fst = nodes := List.map_fst_zip (Nat.le_of_eq count)
  exact cursorLaws calls' built.sound count (linked.congr (firsts.symm ▸ intact)) on

theorem native_list_cursors_sample :
    ∃ e, CursorLaws (Session.calls 1) sampleList 1 2 e sampleListNodes [⟨1⟩, ⟨0⟩, ⟨3⟩] := by
  let ran := (nativeList "L" sampleListItems).run (Session.calls 1) sampleListStart
  obtain ⟨report, w₂, nodes, made, _, _, book, _, laws⟩ :=
    native_list_cursors (Session.calls 1) sampleListStart sampleListStart "L" sampleListItems
      [⟨1⟩, ⟨0⟩, ⟨3⟩] rfl (by decide +kernel)
  have last : ran.2 = w₂ := congrArg Prod.snd made
  have named : nodes = sampleListNodes := by
    have listed := map_snd_nodeLabels "L" 0 nodes
    rw [← List.nil_append (nodeLabels "L" 0 nodes)] at listed
    have booked : ran.2.bench.book.map Prod.snd = sampleListNodes := by decide +kernel
    rw [← listed, ← booked, last, book]
    rfl
  have memory : sampleList.memory = w₂.memory := by
    rw [← last]
    decide +kernel
  have types : sampleList.database = sampleListTypes := by decide +kernel
  have head : (sampleList.store.handle 1).address = sampleListNodes.headD 0 := by decide +kernel
  obtain ⟨e, on⟩ := sampleList_onNode
  subst named
  exact ⟨e, laws (Session.calls 1) sampleList (types ▸ sampleListTypes_built)
    (fun _ _ _ _ => by rw [memory]) 1 2 e (head ▸ on)⟩

end Session
end ObjectBridge
