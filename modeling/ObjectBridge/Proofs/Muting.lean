import ObjectBridge.Proofs.Blindness
import ObjectBridge.Proofs.Boundaries

/-!
# Muted scripts

A script is muted by putting a marked failure in the place of each step that reports how the
switches of the bridge stand, in the functions of the script too.  What a muted script shows masks
what the script itself shows: it is the same, except that the mark stands where the script reports
switches.  For every choice of the mark the script is muted the same otherwise, so a mark that the
script does not use itself tells exactly where that is.
-/

namespace ObjectBridge

namespace Script

/-- A step that reports how the switches of the bridge stand. -/
def Step.reportsSwitches : Step → Bool
  | .bridge | .setDiagnostics _ | .diagnostics => true
  | _ => false

mutual

/-- A step with a failure in the place of every report of switches. -/
def Step.muted (mark : Failure) : Step → Step
  | .declare declaration id => .declare (declaration.muted mark) id
  | .define name function => .define name (function.muted mark)
  | .bridge => .raise mark
  | .setDiagnostics _ => .raise mark
  | .diagnostics => .raise mark
  | step => step

/-- A declaration whose implementation is muted. -/
def Declaration.muted (mark : Failure) : Declaration Step → Declaration Step
  | .function home callable => .function home (callable.muted mark)
  | .method owner callable => .method owner (callable.muted mark)
  | declaration => declaration

/-- A callable whose implementation is muted. -/
def CallableTerm.muted (mark : Failure) : CallableTerm Step → CallableTerm Step
  | ⟨name, parameters, result, flags, isStatic, fails, native⟩ =>
    ⟨name, parameters, result, flags, isStatic, fails, Native.mutedOption mark native⟩

/-- An optional native function whose steps are muted. -/
def Native.mutedOption (mark : Failure) : Option (Native Step) → Option (Native Step)
  | some native => some (native.muted mark)
  | none => none

/-- A native function whose steps are muted. -/
def Native.muted (mark : Failure) : Native Step → Native Step
  | ⟨inViews, outViews, raises, outputs, emission, steps, error, result⟩ =>
    ⟨inViews, outViews, raises, outputs, emission, Step.mutedAll mark steps, error, result⟩

/-- A host function whose steps are muted. -/
def HostFunction.muted (mark : Failure) : HostFunction Step → HostFunction Step
  | ⟨parameters, steps, error, result⟩ => ⟨parameters, Step.mutedAll mark steps, error, result⟩

/-- Steps that are muted. -/
def Step.mutedAll (mark : Failure) : List Step → List Step
  | [] => []
  | step :: rest => step.muted mark :: Step.mutedAll mark rest

end

/-- A report of switches is muted to the mark. -/
theorem Step.muted_of_reportsSwitches {step : Step} (reports : step.reportsSwitches = true)
    (mark : Failure) : step.muted mark = .raise mark := by
  cases step <;> first | rfl | simp [reportsSwitches] at reports

end Script

/-- What a script has named and defined, with its functions muted. -/
def Bench.muted (mark : Failure) (b : Bench) : Bench :=
  { b with
    natives := b.natives.map fun entry => (entry.1, entry.2.muted mark)
    functions := b.functions.map fun entry => (entry.1, entry.2.muted mark) }

/-- The verdict on a step that reports switches. -/
inductive Verdict.ReportsSwitches : Verdict → Prop where
  /-- Whether diagnostics are traced, or were before. -/
  | diagnostics (on : Bool) : ReportsSwitches (.success (.bool on))
  /-- The bridge with its options. -/
  | bridge (o : Options) (loaded : Nat) :
    ReportsSwitches (.success (.text ("Repository \x7b options: " ++ o.render ++ ", loaded: "
      ++ toString loaded ++ " \x7d")))

/-- An event masks itself, and the mark masks a nested report of switches. -/
inductive Event.Masks (mark : Failure) : Event → Event → Prop where
  /-- An event masks itself. -/
  | same (e : Event) : Masks mark e e
  /-- The mark masks a nested report of switches. -/
  | mark {v : Verdict} (reports : v.ReportsSwitches) :
    Masks mark (.step (.failure mark)) (.step v)

/-- An answer masks another one if it has the same verdict, and its events mask the others. -/
structure Answer.Masks (mark : Failure) (a a' : Answer) : Prop where
  /-- The verdict is the same. -/
  verdict : a'.verdict = a.verdict
  /-- There are as many events, and each is masked. -/
  events : List.Forall₂ (Event.Masks mark) a.events a'.events

/-- Events agree if they are the same or both are nested reports of switches. -/
inductive Event.Agree : Event → Event → Prop where
  /-- The same event. -/
  | same (e : Event) : Agree e e
  /-- Nested reports of switches. -/
  | reports {v v' : Verdict} (first : v.ReportsSwitches) (second : v'.ReportsSwitches) :
    Agree (.step v) (.step v')

/-- Answers agree if they have the same verdict and their events agree. -/
structure Answer.Agree (a a' : Answer) : Prop where
  /-- The verdict is the same. -/
  verdict : a'.verdict = a.verdict
  /-- There are as many events, and each agrees. -/
  events : List.Forall₂ Event.Agree a.events a'.events

/-- How the containment of two worlds compares.  As long as signals may be raised, it must be the
same; otherwise it is enough that none is pending. -/
def World.Contained (loud : Bool) (w w' : World) : Prop :=
  match loud with
  | true => w'.options.containment = w.options.containment ∧ w'.signals = w.signals
  | false => w.signals.pending = none ∧ w'.signals.pending = none

/-- A world masks another one with a script that is not muted.  They differ in the switches, in the
order in which the ledger lists its counts, and where the events report switches. -/
structure World.Masks (mark : Failure) (loud : Bool) (w w' : World) : Prop where
  /-- The type databases are the same. -/
  database : w'.database = w.database
  /-- Native memory is the same. -/
  memory : w'.memory = w.memory
  /-- The required namespaces are the same. -/
  required : w'.required = w.required
  /-- The stores are alike. -/
  store : w.store.Alike w'.store
  /-- The functions are muted. -/
  bench : w.bench = w'.bench.muted mark
  /-- The events are masked. -/
  events : List.Forall₂ (Event.Masks mark) w.events w'.events
  /-- The containment of signals does not differ where it matters. -/
  contained : w.Contained loud w'

/-- The signals that are raised in the answer to a request; inside a function or a nested step they
are given. -/
def Request.raises (inside : Request → World → List FatalSignal) (w : World) :
    Request → List FatalSignal
  | .raise signal => [signal]
  | r => inside r w

/-- The signals that are raised in a run of a program, in order. -/
def Program.raised {α : Type} (calls : Calls) (inside : Request → World → List FatalSignal) :
    Program α → World → List FatalSignal
  | .done _, _ => []
  | .ask request next, w =>
    request.raises inside w
      ++ match w.answer calls request with
         | (.done reply, w) => (next reply).raised calls inside w
         | (.stopped _, _) => []

namespace Session

/-- The signals that are raised inside the functions and the nested steps of a session, to a
depth. -/
def raisedInside : Nat → Request → World → List FatalSignal
  | 0, _, _ => []
  | depth + 1, request, w =>
    match request with
    | .invoke callable inputs outputs =>
      (callNative callable inputs outputs).raised (calls depth) (raisedInside depth) w.entering
    | .callHost target arguments =>
      (callHost target arguments).raised (calls depth) (raisedInside depth) w
    | .assignGlobal name v => (assignGlobal name v).raised (calls depth) (raisedInside depth) w
    | .perform step => (respond step).run.raised (calls depth) (raisedInside depth) w
    | _ => []

/-- The signals that are raised in some steps. -/
def raisedAll (depth : Nat) : List Script.Step → World → List FatalSignal
  | [], _ => []
  | step :: rest, w =>
    (respond step).run.raised (calls depth) (raisedInside depth) { w with events := [] }
      ++ raisedAll depth rest (advance depth step w).2

/-- The signals that the native functions of a session raise while it runs, in order. -/
def raised (options : Options) (steps : List Script.Step) : List FatalSignal :=
  raisedAll depthLimit steps (start options)

/-- The answers to the steps that do not report switches. -/
def otherAnswers : List Script.Step → List Answer → List Answer
  | step :: steps, answer :: answers =>
    if step.reportsSwitches then otherAnswers steps answers
    else answer :: otherAnswers steps answers
  | _, _ => []

/-- A transcript masks that of some steps if it masks the answers to those of them that do not
report switches, and all else is the same. -/
structure Transcript.Masks (mark : Failure) (t : Transcript) (steps : List Script.Step)
    (t' : Transcript) : Prop where
  /-- There are as many other answers, and each is masked. -/
  answers : List.Forall₂ (Answer.Masks mark) t.answers (otherAnswers steps t'.answers)
  /-- The counts at the end are the same. -/
  totals : t'.totals = t.totals
  /-- So are the panics at the end. -/
  panics : t'.panics = t.panics

/-- The transcripts of some steps agree if the answers to those that do not report switches do, and
all else is the same. -/
structure Transcript.Agree (steps : List Script.Step) (t : Transcript) (steps' : List Script.Step)
    (t' : Transcript) : Prop where
  /-- There are as many other answers, and each agrees. -/
  answers : List.Forall₂ Answer.Agree (otherAnswers steps t.answers)
    (otherAnswers steps' t'.answers)
  /-- The counts at the end are the same. -/
  totals : t'.totals = t.totals
  /-- So are the panics at the end. -/
  panics : t'.panics = t.panics

end Session

/-- Each of two lists is masked in two ways. -/
theorem forall₂_of_common {α : Type} {R S T : α → α → Prop}
    (common : ∀ ⦃x y a b⦄, R x a → R x b → S y a → S y b → T a b) {xs ys as bs : List α}
    (first : List.Forall₂ R xs as) (second : List.Forall₂ R xs bs)
    (first' : List.Forall₂ S ys as) (second' : List.Forall₂ S ys bs) : List.Forall₂ T as bs := by
  induction first generalizing ys bs with
  | nil =>
    cases second
    exact .nil
  | cons head _ ih =>
    cases second with
    | cons head₂ tail₂ =>
      cases first' with
      | cons head' tail' =>
        cases second' with
        | cons head₂' tail₂' =>
          exact .cons (common head head₂ head' head₂') (ih tail₂ tail' tail₂')

variable {m m' : Failure}

/-- A failure is not a report of switches. -/
theorem Verdict.not_reportsSwitches (f : Failure) : ¬ (Verdict.failure f).ReportsSwitches := nofun

/-- What the mark masks is a report of switches, or another mark would not mask it. -/
theorem Event.agree_of_masks (different : m ≠ m') {e e' a b : Event} (first : e.Masks m a)
    (second : e.Masks m b) (first' : e'.Masks m' a) (second' : e'.Masks m' b) : a.Agree b := by
  have clash {f g : Failure} {v : Verdict} {e : Event} (different : f ≠ g)
      (reports : v.ReportsSwitches) (mark : e.Masks g (.step (.failure f)))
      (same : e.Masks g (.step v)) : False := by
    cases mark with
    | same =>
      cases same with
      | same => exact Verdict.not_reportsSwitches f reports
      | mark => exact different rfl
    | mark failed => exact Verdict.not_reportsSwitches f failed
  cases first with
  | same =>
    cases second with
    | same => exact .same _
    | mark reports => exact (clash different reports first' second').elim
  | mark reports =>
    cases second with
    | same => exact (clash different reports second' first').elim
    | mark others => exact .reports reports others

/-- Answers that two marks mask in common agree. -/
theorem Answer.agree_of_masks (different : m ≠ m') {x x' a b : Answer} (first : x.Masks m a)
    (second : x.Masks m b) (first' : x'.Masks m' a) (second' : x'.Masks m' b) : a.Agree b where
  verdict := second.verdict.trans first.verdict.symm
  events := forall₂_of_common (T := Event.Agree)
    (fun _ _ _ _ => Event.agree_of_masks different)
    first.events second.events first'.events second'.events

/-- Transcripts that two marks mask in common agree. -/
theorem Session.Transcript.agree_of_masks (different : m ≠ m') {t t' a b : Transcript}
    {steps steps' : List Script.Step} (first : t.Masks m steps a) (second : t.Masks m steps' b)
    (first' : t'.Masks m' steps a) (second' : t'.Masks m' steps' b) : a.Agree steps steps' b where
  answers := forall₂_of_common (T := Answer.Agree)
    (fun _ _ _ _ => Answer.agree_of_masks different)
    first.answers second.answers first'.answers second'.answers
  totals := second.totals.trans first.totals.symm
  panics := second.panics.trans first.panics.symm

end ObjectBridge
