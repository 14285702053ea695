import ObjectBridge.Proofs.Reordering

/-!
# Blind programs

A program can look at more than its answers may depend on: at the switches of the bridge, at the
order in which the ledger lists its counts, at the bodies of the functions of a script.  A blind
program does not: it asks nothing about the switches, runs no step of a script, and goes on in the
same way after replies that differ only in those respects.
-/

namespace ObjectBridge

/-- Two benches with the same names. -/
structure Bench.Alike (b b' : Bench) : Prop where
  /-- The same entries are identified. -/
  identifiers : b'.identifiers = b.identifiers
  /-- The same addresses are labelled. -/
  book : b'.book = b.book

/-- A request that depends on no switch, and neither runs nor stores a part of a script. -/
def Request.blind : Request → Bool
  | .options | .perform _ | .raise _ | .setTracing _ | .tracing | .implement _ _
  | .define _ _ => false
  | _ => true

/-- Two replies to a request that a blind program does not tell apart. -/
def Request.Alike : (r : Request) → r.Reply → r.Reply → Prop
  | .store, s, s' => Store.Alike s s'
  | .bench, b, b' => Bench.Alike b b'
  | _, x, x' => x = x'

/-- A blind request that is not a look at the store or at the bench. -/
def Request.plain : Request → Bool
  | .store | .bench => false
  | r => r.blind

theorem Request.blind_of_plain (r : Request) (plain : r.plain = true) : r.blind = true := by
  cases r with
  | store | bench => rfl
  | _ => exact plain

/-- Only a reply to a look at the store or at the bench has others that are alike. -/
theorem Request.eq_of_plain (r : Request) (plain : r.plain = true) {x x' : r.Reply}
    (alike : r.Alike x x') : x = x' := by
  cases r with
  | store | bench => cases plain
  | _ => exact alike

/-- A program that goes on in the same way after replies that are alike. -/
def Program.Blind {α : Type} : Program α → Prop
  | .done _ => True
  | .ask request next =>
    request.blind = true ∧ (∀ x x', request.Alike x x' → next x' = next x) ∧ ∀ x, (next x).Blind

/-- A program that may fail and goes on in the same way after replies that are alike. -/
def Bridge.Blind {ε α : Type} (p : ExceptT ε Program α) : Prop := Program.Blind p.run

namespace Program

variable {α β γ : Type}

theorem blind_pure {v : α} : Blind (pure v : Program α) := trivial

theorem Blind.bind {p : Program α} {f : α → Program β} (first : p.Blind)
    (rest : ∀ v, (f v).Blind) : (p >>= f).Blind := by
  induction p with
  | done v => exact rest v
  | ask request next ih =>
    obtain ⟨blind, same, later⟩ := first
    exact ⟨blind, fun x x' alike => congrArg (·.bind f) (same x x' alike),
      fun x => ih x (later x)⟩

theorem blind_request {r : Request} (plain : r.plain = true) : Blind (request r) :=
  ⟨r.blind_of_plain plain, fun _ _ alike => congrArg Program.done (r.eq_of_plain plain alike).symm,
    fun _ => trivial⟩

/-- What follows a look at the store must not depend on the order of the ledger. -/
theorem blind_alike {f : Store → Program β} (unseen : ∀ s s', Store.Alike s s' → f s' = f s)
    (rest : ∀ s, (f s).Blind) : (store >>= f).Blind :=
  ⟨rfl, unseen, rest⟩

/-- What follows a look at the store does not depend on the ledger if it does not look at it. -/
theorem blind_store {f : Store → Program β}
    (unseen : ∀ s ledger, f { s with ledger := ledger } = f s) (rest : ∀ s, (f s).Blind) :
    (store >>= f).Blind :=
  blind_alike (fun s s' alike => by rw [alike.rest]; exact unseen s s'.ledger) rest

/-- What follows a look at the bench must not depend on the functions of the script. -/
theorem blind_bench {f : Bench → Program β}
    (unseen : ∀ b natives functions, f { b with natives := natives, functions := functions } = f b)
    (rest : ∀ b, (f b).Blind) : (bench >>= f).Blind := by
  refine ⟨rfl, fun b b' alike => ?_, rest⟩
  obtain ⟨identifiers, book, natives, functions⟩ := b'
  obtain ⟨rfl, rfl⟩ := alike
  exact unseen b natives functions

theorem Blind.region {keep : α → List Claim} {p : Program α} (blind : p.Blind) :
    (region keep p).Blind :=
  (blind_request (r := .mark) rfl).bind fun _ => blind.bind fun _ =>
    (blind_request rfl).bind fun _ => blind_pure

theorem blind_stop {why : Stop} : Blind (stop why : Program α) :=
  ⟨rfl, fun (x : Empty) => x.elim, fun (x : Empty) => x.elim⟩

theorem blind_each {f : γ → Program α} {items : List γ} (blind : ∀ x, (f x).Blind) :
    (each f items).Blind := by
  induction items with
  | nil => exact blind_pure
  | cons x rest ih => exact (blind x).bind fun _ => ih.bind fun _ => blind_pure

theorem blind_forEach {f : γ → Program Unit} {items : List γ} (blind : ∀ x, (f x).Blind) :
    (forEach f items).Blind := by
  induction items with
  | nil => exact blind_pure
  | cons x rest ih => exact (blind x).bind fun _ => ih

theorem blind_entry {t : Token} : Blind (entry t) := blind_request rfl

theorem blind_database : Blind database := blind_request rfl

theorem blind_memory : Blind memory := blind_request rfl

theorem blind_liveInstance {a : Address} : Blind (liveInstance a) := blind_request rfl

theorem blind_hold {c : Claim} : Blind (hold c) := blind_request rfl

theorem blind_letGo {c : Claim} : Blind (letGo c) := blind_request rfl

theorem blind_trace {entries : List Token} : Blind (trace entries) := blind_request rfl

theorem blind_warn {text : String} : Blind (warn text) := blind_request rfl

theorem blind_handleRecord {h : HandleId} : Blind (handleRecord h) :=
  blind_store (fun _ _ => rfl) fun _ => blind_pure

theorem blind_placeCells {cells : List Cell} : Blind (placeCells cells) := blind_request rfl

theorem blind_place {bytes : List UInt8} : Blind (place bytes) := blind_placeCells

theorem blind_placeText {text : String} : Blind (placeText text) := blind_place

end Program

namespace Bridge

variable {ε α β γ : Type}

theorem blind_pure {v : α} : Blind (pure v : ExceptT ε Program α) := trivial

theorem blind_throw {e : ε} : Blind (throw e : ExceptT ε Program α) := trivial

/-- Nothing follows a failure. -/
theorem blind_throw_bind {e : ε} {f : α → ExceptT ε Program β} :
    Blind (throw e >>= f : ExceptT ε Program β) :=
  blind_throw

theorem blind_lift {p : Program α} (blind : p.Blind) : Blind (liftM p : ExceptT ε Program α) :=
  blind.bind fun _ => Program.blind_pure

theorem blind_except {r : Except ε α} : Blind (liftM r : ExceptT ε Program α) := trivial

theorem Blind.bind {p : ExceptT ε Program α} {f : α → ExceptT ε Program β} (first : Blind p)
    (rest : ∀ v, Blind (f v)) : Blind (p >>= f) := by
  refine Program.Blind.bind first fun r => ?_
  cases r with
  | error e => exact Program.blind_pure
  | ok v => exact rest v

/-- Continue after a program that does not fail. -/
theorem Blind.after {p : Program α} {f : α → ExceptT ε Program β} (first : p.Blind)
    (rest : ∀ v, Blind (f v)) : Blind (liftM p >>= f : ExceptT ε Program β) :=
  (blind_lift first).bind rest

theorem blind_store {f : Store → ExceptT ε Program β}
    (unseen : ∀ s ledger, f { s with ledger := ledger } = f s) (rest : ∀ s, Blind (f s)) :
    Blind (liftM Program.store >>= f : ExceptT ε Program β) :=
  Program.blind_store (f := fun s => (f s).run) unseen rest

theorem Blind.region {keep : α → List Claim} {p : Bridge α} (blind : Blind p) :
    Blind (region keep p) :=
  Program.Blind.region blind

theorem blind_ofRuntime {reading : RuntimeFailure → Failure} {p : Runtime α} (blind : Blind p) :
    Blind (ofRuntime reading p) :=
  Program.Blind.bind blind fun _ => Program.blind_pure

theorem blind_each {f : γ → Bridge α} {items : List γ} (blind : ∀ x, Blind (f x)) :
    Blind (each f items) := by
  induction items with
  | nil => exact blind_pure
  | cons x rest ih => exact (blind x).bind fun _ => ih.bind fun _ => blind_pure

theorem blind_mapM {f : γ → ExceptT ε Program α} {items : List γ} (blind : ∀ x, Blind (f x)) :
    Blind (items.mapM f) := by
  unfold List.mapM
  generalize ([] : List α) = done
  induction items generalizing done with
  | nil => exact blind_pure
  | cons x rest ih => exact (blind x).bind fun y => ih (y :: done)

end Bridge
end ObjectBridge
