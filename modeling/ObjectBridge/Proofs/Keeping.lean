import ObjectBridge.Proofs.Initializing
import ObjectBridge.Proofs.Sending

/-!
# Where argument blocks end

An evaluation comes to one of four things: the datum of a list, a call, a construction, or setting
and getting the members of a handle one after the other.  Each call, each construction and each
member that is set has an argument block of its own, which is freed when it is done.
-/

namespace ObjectBridge

open Program Bridge Descriptor

variable {calls : Calls} {w w₁ w' : World} {a : Address} {v : Value}

/-- What a handle stands for is what it stood for. -/
theorem World.Anchors.mentions (anchors : w.Anchors w') {h : HandleId}
    (known : h < w.store.nextHandle) (mentions : (Value.handle h).Mentions w'.store a) :
    (Value.handle h).Mentions w.store a := by
  obtain ⟨ownership, attached⟩ := mentions
  cases found : w'.store.handles.get? h with
  | none =>
    rw [Store.handle, found] at attached
    cases attached
  | some r' =>
    rw [Store.handle, found] at attached
    obtain ⟨r, before, attachment⟩ := anchors.handles h known r' found
    exact ⟨ownership, by rw [Store.handle, before]; exact attachment ▸ attached⟩

/-- Things stay in their places while a program runs. -/
theorem Bridge.Succeeds.anchors {ε α : Type} {p : ExceptT ε Program α} {x : α}
    (ran : Succeeds calls p w x w') (along : calls.Along World.Anchors) : w.Anchors w' := by
  have after := World.kept_anchors.run along p.run w
  rwa [ran] at after

namespace Handle

variable {h : HandleId} {arguments : List Argument}

/-- What an evaluation comes to. -/
inductive Plan where
  /-- The datum of a list with an index. -/
  | datum (head : Address) (info : Token) (arguments : List Argument)
  /-- The call of a native function. -/
  | call (callable : Token) (receiver : Address) (arguments : List Value)
  /-- Setting and getting members of a handle, which is the value. -/
  | visit (target : HandleId) (arguments : List Argument)
  /-- The construction of an instance. -/
  | construct (info : Token) (arguments : List Argument)

/-- What the evaluation of a handle comes to that has no instance and is given none. -/
def planFresh (info : Token) (kind : EntryKind) (arguments : List Argument) : Bridge Plan := do
  if kind = .object then
    return .construct info (if isLoneNil arguments then [] else arguments)
  else if kind.isRecord then
    let made ← constructRecord info
    return .visit made arguments
  else
    let name ← qualifiedName info
    throw (.notCallable name)

/-- What the evaluation of a handle comes to that is typed by an object, interface or record
type. -/
def planInstance (h : HandleId) (r : HandleRecord) (info : Token) (kind : EntryKind)
    (arguments : List Argument) : Bridge Plan := do
  if r.isBound then
    hold (.handle h)
    return .visit h arguments
  else
    match arguments with
    | .value (.handle source) :: rest => do
      let target ← cast info source
      return .visit target rest
    | _ => planFresh info kind arguments

/-- What the evaluation of a handle comes to. -/
def plan (h : HandleId) (arguments : List Argument) : Bridge Plan := do
  let r ← handleRecord h
  let info ← typed r
  let e ← entry info
  if ListCursor.isListType e then return .datum r.address info arguments
  else if e.kind.isCallable then
    let values ← positional arguments
    return .call info r.address values
  else if e.kind = .object || e.kind = .interface || e.kind.isRecord then
    planInstance h r info e.kind arguments
  else
    let name ← qualifiedName info
    throw (.notCallable name)

/-- Carry a plan out. -/
def Plan.carryOut : Plan → Bridge Value
  | .datum head info arguments => ListCursor.nth head info arguments
  | .call callable receiver arguments => Call.invoke callable receiver arguments
  | .visit target arguments => finish target arguments
  | .construct info arguments => do
    let made ← constructObject info arguments
    return .handle made

theorem planInstance_of_other {r : HandleRecord} {info : Token} {kind : EntryKind}
    (free : ¬r.isBound = true)
    (other : ∀ source rest, arguments = .value (.handle source) :: rest → False) :
    planInstance h r info kind arguments = planFresh info kind arguments := by
  unfold planInstance
  rw [if_neg free]
  split
  · exact (other _ _ rfl).elim
  · rfl

theorem evalInstance_eq {r : HandleRecord} {info : Token} {kind : EntryKind} :
    evalInstance h r info kind arguments
      = planInstance h r info kind arguments >>= Plan.carryOut := by
  unfold evalInstance
  split
  · next bound =>
    unfold planInstance
    simp only [if_pos bound, bind_assoc, pure_bind]
    rfl
  · next free =>
    split
    · unfold planInstance
      simp only [if_neg free, bind_assoc, pure_bind]
      rfl
    · next other =>
      rw [planInstance_of_other free other]
      unfold planFresh
      split
      · rfl
      · split
        · simp only [bind_assoc, pure_bind]
          rfl
        · simp only [bind_assoc]
          rfl

theorem eval_eq : eval h arguments = region Value.claims (plan h arguments >>= Plan.carryOut) := by
  unfold eval plan
  simp only [bind_assoc]
  congr 1
  refine bind_congr fun r => bind_congr fun info => bind_congr fun e => ?_
  split
  · rfl
  · split
    · simp only [bind_assoc, pure_bind]
      rfl
    · split
      · exact evalInstance_eq
      · simp only [bind_assoc]
        rfl

section Performs

variable {kind : World × Request → Prop} {info : Token}

end Performs

/-- Accesses lead from some arguments to those that are left. -/
inductive Accesses (calls : Calls) (h : HandleId) :
    List Argument → World → List Argument → World → Prop
  /-- There was no access yet. -/
  | refl {arguments : List Argument} {w : World} : Accesses calls h arguments w arguments w
  /-- One access, and then others. -/
  | step {arguments rest others : List Argument} {w w₁ w' : World}
      (first : Succeeds calls (access h arguments) w rest w₁)
      (later : Accesses calls h rest w₁ others w') : Accesses calls h arguments w others w'

theorem Accesses.anchors (along : calls.Along World.Anchors) {rest : List Argument}
    (accesses : Accesses calls h arguments w rest w') : w.Anchors w' := by
  induction accesses with
  | refl => exact .refl _
  | step first later ih => exact (first.anchors along).trans ih

section Performs

variable {kind : World × Request → Prop}

end Performs

/-- What stores an address when a plan is carried out, and what becomes of the argument block
there. -/
def Plan.Stores (calls : Calls) (w : World) (a : Address) : Plan → Prop
  | .visit target arguments =>
    ∃ name v rest x, Accesses calls target arguments w (.keyword name v :: rest) x
      ∧ (set target name v).run.Stores calls x a ∧ SetContained calls x target name v
  | .construct info arguments =>
    (constructObject info arguments).run.Stores calls w a
      ∧ ConstructionContained calls w info arguments
  | .datum _ _ _ | .call _ _ _ => False

/-- Where the value of a plan comes from, and what becomes of the argument block there: in the world
`w'` the value stands for whatever it stands for when the plan has been carried out. -/
def Plan.Gives (calls : Calls) (w : World) (v : Value) (w' : World) : Plan → Prop
  | .datum head info arguments => Succeeds calls (ListCursor.nth head info arguments) w v w'
  | .call callable receiver arguments =>
    Succeeds calls (Call.invoke callable receiver arguments) w v w'
      ∧ Call.Contained calls w callable receiver arguments
  | .visit target _ => v = .handle target ∧ w' = w
  | .construct info arguments =>
    ∃ made, v = .handle made ∧ Succeeds calls (constructObject info arguments) w made w'
      ∧ ConstructionContained calls w info arguments

end Handle

end ObjectBridge
