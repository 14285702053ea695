import ObjectBridge.Signal
import ObjectBridge.Proofs.Calling

/-!
# Connecting and emitting is tame

A connection record holds the user data that its host function gets, so the user data was made
before; an emission holds the records of the connections that it runs.
-/

namespace ObjectBridge
namespace Signal

open Program Descriptor

variable {z : Horizon}

theorem reading_answersTruth {signal : Token} : Bridge.Reading (answersTruth signal) := by
  refine .region ((Bridge.reading_lift reading_result).bind fun found => ?_)
  split
  · exact Bridge.reading_pure
  · refine (Bridge.reading_lift reading_entry).bind fun e => ?_
    split
    · exact Bridge.reading_pure
    · exact Bridge.reading_pure
    · exact (Bridge.reading_lift reading_entry).bind fun _ => Bridge.reading_throw

theorem reading_argumentType {signal : Token} {name : String} {index : Nat} :
    Bridge.Reading (argumentType signal name index) := by
  refine .region ((Bridge.reading_lift reading_argument).bind fun found => ?_)
  split
  · exact Bridge.reading_throw
  · refine (Bridge.reading_lift reading_declared).bind fun declared => ?_
    split
    · exact Bridge.reading_throw
    · exact Bridge.reading_pure

/-- Attaching a connection whose record names what was made is tame. -/
theorem tame_attach {a : Address} {signal : String} {reaction : Reaction}
    (known : ∀ c ∈ reaction.claims, c.Known z) :
    Bridge.Tame (attach a signal reaction) z plain := by
  refine (Bridge.tame_lift tame_liveInstance).bind fun z₁ i later₁ _ =>
    (Bridge.tame_lift tame_database).bind fun z₂ db later₂ _ => ?_
  split
  · exact Bridge.tame_throw
  · exact Bridge.tame_lift <| (tame_request (r := .attach a signal reaction)
      fun c member => (known c member).mono (le_trans later₁ later₂)).plain

/-- The record of a connection of a host function names what its user data names. -/
theorem known_relay {r : Relay} (known : ∀ v, r.userData = some v → v.Known z) :
    ∀ c ∈ (Reaction.relay r).claims, c.Known z := by
  intro c member
  rcases Reaction.mem_claims member with ⟨t, rfl⟩ | ⟨h, rfl, relay, equal, data⟩
  · trivial
  · rw [← Reaction.relay.inj equal] at data
    exact known _ data _ (List.mem_singleton_self _)

/-- Connecting a host function is tame. -/
theorem tame_connect {h : HandleId} {name : String} {target : Script.Target}
    {userData : Option Value} (known : ∀ v, userData = some v → v.Known z) :
    Bridge.Tame (connect h name target userData) z plain := by
  refine .region ((Bridge.tame_lift tame_handleRecord).bind fun z₁ r later₁ _ => ?_)
  refine Handle.reading_typed.tame.bind fun z₂ info later₂ _ => ?_
  refine (Bridge.tame_lift tame_entry).bind fun z₃ e later₃ _ => ?_
  dsimp only
  split
  · exact (Bridge.tame_lift Handle.reading_text.tame).bind fun _ _ _ _ => Bridge.tame_throw_bind
  · refine (Bridge.tame_lift Member.reading_findSignal.tame).bind fun z₄ found later₄ _ => ?_
    split
    · exact Bridge.tame_throw
    · refine (Bridge.tame_lift tame_entry).bind fun z₅ s later₅ _ => ?_
      split
      · exact Bridge.tame_throw_bind
      · refine reading_answersTruth.tame.bind fun z₆ truth later₆ _ => ?_
        refine (Bridge.reading_each fun _ => reading_argumentType).tame.bind
          fun z₇ types later₇ _ => ?_
        refine Bridge.tame_ofRuntime (tame_attach (known_relay fun v given => ?_))
        exact (known v given).mono <| le_trans (le_trans (le_trans later₁ later₂)
          (le_trans later₃ later₄)) (le_trans later₅ (le_trans later₆ later₇))

theorem reading_viewedTarget {type : Token} : Reading (argumentValue.viewedTarget type) := by
  refine reading_target.bind fun found => ?_
  split
  · exact reading_pure
  · exact reading_entry.bind fun _ => reading_pure

theorem tame_argumentValue {signal : String} {slot : Slot} {type : Token} :
    Tame (argumentValue signal slot type) z fun z v => v.Known z := by
  refine .region (reading_viewedTarget.tame.bind fun _ viewed _ _ => ?_)
  split
  · split
    · exact Codec.tame_bare rfl
    · exact Handle.tame_value Handle.tame_borrowed
  · refine Tame.bind Codec.tame_decode fun _ outcome _ given => ?_
    split
    · next v => exact tame_pure fun _ later => (given v rfl).mono later
    · exact tame_warn.bind fun _ _ _ _ => Codec.tame_bare rfl

theorem tame_argumentValues {signal : String} {slots : List Slot} {types : List Token} :
    Tame (argumentValues signal slots types) z fun z vs => ∀ v ∈ vs, v.Known z := by
  induction slots generalizing types z with
  | nil => exact tame_pure fun _ _ v member => by simp at member
  | cons slot slots ih =>
    cases types with
    | nil => exact tame_pure fun _ _ v member => by simp at member
    | cons type types =>
      refine tame_argumentValue.bind fun z₁ v _ known => ih.bind fun z₂ vs later others => ?_
      refine tame_pure fun z₃ later' u member => ?_
      rcases List.mem_cons.mp member with rfl | old
      · exact known.mono (le_trans later later')
      · exact (others u old).mono later'

/-- Calling the host function of a connection is tame. -/
theorem tame_deliver {r : Relay} {emitter : Slot} {extras : List Slot}
    (known : ∀ c ∈ (Reaction.relay r).claims, c.Known z) :
    Tame (deliver r emitter extras) z plain := by
  have data : ∀ v ∈ r.userData.toList, v.Known z := fun v member c claimed => by
    refine known c ?_
    rw [Option.mem_toList] at member
    simp only [Reaction.claims, Option.mem_def.mp member, List.mem_append]
    exact .inl (.inr claimed)
  refine tame_entry.bind fun z₁ s later₁ _ => ?_
  refine Codec.tame_wrapInstance.bind fun z₂ sender later₂ sent => ?_
  refine tame_argumentValues.bind fun z₃ values later₃ given => ?_
  have later := le_trans (le_trans later₁ later₂) later₃
  refine (tame_forEach fun v member z' reached => tame_forEach fun c claimed z'' further =>
    tame_hold ?_).bind fun z₄ _ later₄ _ => ?_
  · exact (data v member c claimed).mono (le_trans later (le_trans reached further))
  · refine Tame.bind (tame_request (r := .callHost r.target _) fun v member => ?_)
      fun z₅ outcome later₅ _ => ?_
    · rw [List.mem_append, List.mem_cons] at member
      rcases member with (rfl | value) | user
      · exact sent.mono (le_trans later₃ later₄)
      · exact (given v value).mono later₄
      · exact (data v user).mono (le_trans later later₄)
    · cases outcome with
      | ok v => exact tame_pure fun _ _ => trivial
      | error message => exact tame_warn.bind fun _ _ _ _ => tame_pure fun _ _ => trivial

theorem tame_dispatch {r : Relay} {slots : List Slot}
    (known : ∀ c ∈ (Reaction.relay r).claims, c.Known z) :
    Tame (dispatch r slots) z plain := by
  unfold dispatch
  dsimp only
  split
  · exact tame_deliver known
  · exact tame_entry.bind fun _ _ _ _ => tame_warn.bind fun _ _ _ _ => tame_pure fun _ _ => trivial

/-- The answer of a connection is tame. -/
theorem tame_react {reaction : Reaction} {slots : List Slot}
    (known : ∀ c ∈ reaction.claims, c.Known z) : Tame (react reaction slots) z plain := by
  cases reaction with
  | fixed reply => exact tame_pure fun _ _ => trivial
  | relay r =>
    exact .region <| (tame_dispatch known).bind fun _ _ _ _ => tame_store.bind fun _ _ _ _ =>
      tame_pure fun _ _ => trivial

theorem tame_runAll {slots : List Slot} {chosen : List ClosureId} {last : Option Slot} :
    Tame (runAll slots chosen last) z plain := by
  induction chosen generalizing last z with
  | nil => exact tame_pure fun _ _ => trivial
  | cons c rest ih =>
    refine tame_store.bind fun z₁ s _ known => ?_
    split
    · next closure found =>
      exact (tame_react (known.2.2 c closure found)).bind fun _ _ _ _ => ih
    · exact tame_stop

/-- Emitting a signal is tame. -/
theorem tame_emit {a : Address} {signal : String} {arguments : List Slot} :
    Tame (emit a signal arguments) z plain := by
  refine .region (tame_liveInstance.bind fun z₁ i _ connected => ?_)
  refine (tame_forEach fun c member z' later => tame_hold (c := .closure c) ?_).bind
    fun _ _ _ _ => tame_runAll
  obtain ⟨connection, chosen, rfl⟩ := List.mem_map.mp member
  exact Nat.lt_of_lt_of_le (connected connection (List.mem_filter.mp chosen).1) later.2

end Signal
end ObjectBridge
