import Mobject.Handlers.Exits
import Mobject.Handlers.Serializable

/-! # The provider as a sequential object

`Serves` says what one request does to a provider that serves nothing else meanwhile: the calls it
makes of factories and backends, the responses it is sent, and the registry it leaves. Where a
handler stands in a serial run is said in these terms.
-/
namespace Mobject
open Interleaving
set_option autoImplicit false

variable {BackendType Json : Type} (provider : ProviderImpl BackendType Json)

/-- A call of `SequencerFactory` or of a method of a backend, and how it ended. -/
inductive Use (Json : Type) where
  | factory (map : FactoryMap) (backend_name : String) (config : Json) (answer : FactoryAnswer)
  | destroy (backend : BackendId) (result : MethodResult RequestResultBool)
  | sayHello (backend : BackendId) (result : MethodResult Unit)
  | computeSum (backend : BackendId) (x y : Int32) (result : MethodResult (RequestResult Int32))

def Event.use : Event (@Answer Json) → Option (Use Json)
  | ⟨.factory map backend_name config, answer⟩ => some (.factory map backend_name config answer)
  | ⟨.destroy .., .called backend result⟩ => some (.destroy backend (.returned result))
  | ⟨.destroy .., .threw backend what⟩ => some (.destroy backend (.threw what))
  | ⟨.sayHello sequencer, result⟩ => some (.sayHello sequencer result)
  | ⟨.computeSum sequencer x y, result⟩ => some (.computeSum sequencer x y result)
  | _ => none

def uses (events : List (Event (@Answer Json))) : List (Use Json) := events.filterMap Event.use

open Response (uuidFailure boolFailure) in
inductive Serves (s : Bindings) : Request → List (Use Json) → List Response → Bindings → Prop
  | addRefused (map : FactoryMap) (token type config : String) : provider.rejects token = true →
      Serves s (.add map token type config) [] [uuidFailure "Invalid security token"] s
  | malformed (map : FactoryMap) (token type config what : String) :
      provider.rejects token = false → provider.parse config = .parse_error what →
      Serves s (.add map token type config) [] [uuidFailure what] s
  | escaped (map : FactoryMap) (token type config what : String) :
      provider.rejects token = false → provider.parse config = .out_of_range what →
      Serves s (.add map token type config) [] [] s
  | failed (map : FactoryMap) (token type config what : String) (json : Json) :
      provider.rejects token = false → provider.parse config = .value json →
      provider.factory.fn map type ≠ none →
      Serves s (.add map token type config) [.factory map type json (.exception what)]
        [uuidFailure what] s
  | unknown (map : FactoryMap) (token type config : String) (json : Json) :
      provider.rejects token = false → provider.parse config = .value json →
      Serves s (.add map token type config) [.factory map type json .nullptr]
        [uuidFailure ("Unknown sequencer type " ++ type)] s
  | added (map : FactoryMap) (token type config : String) (json : Json) (sequencer_id : UUID)
      (backend : BackendId) : provider.rejects token = false → provider.parse config = .value json →
      provider.factory.fn map type ≠ none →
      Serves s (.add map token type config) [.factory map type json (.backend backend)]
        [.uuid { m_value := sequencer_id }] (Function.update s sequencer_id (some backend))
  | closeRefused (token : String) (sequencer_id : UUID) : provider.rejects token = true →
      Serves s (.closeSequencer token sequencer_id) [] [boolFailure "Invalid security token"] s
  | notClosed (token : String) (sequencer_id : UUID) :
      provider.rejects token = false → s sequencer_id = none →
      Serves s (.closeSequencer token sequencer_id) []
        [boolFailure ("Sequencer " ++ provider.to_string sequencer_id ++ " not found")] s
  | closed (token : String) (sequencer_id : UUID) (backend : BackendId) :
      provider.rejects token = false → s sequencer_id = some backend →
      Serves s (.closeSequencer token sequencer_id) [] [.bool {}] (Function.update s sequencer_id none)
  | destroyRefused (token : String) (sequencer_id : UUID) : provider.rejects token = true →
      Serves s (.destroySequencer token sequencer_id) [] [boolFailure "Invalid security token"] s
  | notDestroyed (token : String) (sequencer_id : UUID) :
      provider.rejects token = false → s sequencer_id = none →
      Serves s (.destroySequencer token sequencer_id) []
        [boolFailure ("Sequencer " ++ provider.to_string sequencer_id ++ " not found")] s
  -- erased also when the backend reports that it could not be destroyed
  | destroyed (token : String) (sequencer_id : UUID) (backend : BackendId)
      (result : RequestResultBool) :
      provider.rejects token = false → s sequencer_id = some backend →
      Serves s (.destroySequencer token sequencer_id) [.destroy backend (.returned result)]
        [.bool result] (Function.update s sequencer_id none)
  | destroyThrew (token : String) (sequencer_id : UUID) (backend : BackendId) (what : String) :
      provider.rejects token = false → s sequencer_id = some backend →
      Serves s (.destroySequencer token sequencer_id) [.destroy backend (.threw what)] [] s
  | unchecked (sequencer_id : UUID) : s sequencer_id = none →
      Serves s (.checkSequencer sequencer_id) [] [boolFailure (provider.notFoundError sequencer_id)] s
  | checked (sequencer_id : UUID) (backend : BackendId) : s sequencer_id = some backend →
      Serves s (.checkSequencer sequencer_id) [] [.bool {}] s
  | unsaid (sequencer_id : UUID) : s sequencer_id = none →
      Serves s (.sayHello sequencer_id) [] [boolFailure (provider.notFoundError sequencer_id)] s
  | said (sequencer_id : UUID) (backend : BackendId) (result : MethodResult Unit) :
      s sequencer_id = some backend →
      Serves s (.sayHello sequencer_id) [.sayHello backend result] [] s
  | unsummed (sequencer_id : UUID) (x y m_value : Int32) : s sequencer_id = none →
      Serves s (.computeSum sequencer_id x y) []
        [.int32 { m_success := false, m_error := provider.notFoundError sequencer_id, m_value }] s
  | summed (sequencer_id : UUID) (x y : Int32) (backend : BackendId) (result : RequestResult Int32) :
      s sequencer_id = some backend →
      Serves s (.computeSum sequencer_id x y) [.computeSum backend x y (.returned result)]
        [.int32 result] s
  | sumThrew (sequencer_id : UUID) (x y : Int32) (backend : BackendId) (what : String) :
      s sequencer_id = some backend →
      Serves s (.computeSum sequencer_id x y) [.computeSum backend x y (.threw what)] [] s

variable {provider} in
theorem Serves.at_most_one {s s' : Bindings} {request : Request} {t : List (Use Json)}
    {sent : List Response} (h : Serves provider s request t sent s') : sent.length ≤ 1 := by
  cases h <;> simp

/-- Where a handler stands that began with the bindings `s`. One that has not finished has sent
nothing, and can be taken to have done nothing to the registry or to finish from here. -/
inductive Stands (request : Request) (s : Bindings) (t : List (Event (@Answer Json)))
    (q : Handler Json Unit) (s' : Bindings) : Prop
  | finished : q = .pure () → Serves provider s request (uses t) (responses t) s' →
      Stands request s t q s'
  | pending : (∀ value, q ≠ .pure value) → responses t = [] →
      (s' = s ∨ ∃ sent, Serves provider s request (uses t) sent s') → Stands request s t q s'

variable {provider} {s s' : Bindings} {t : List (Event (@Answer Json))} {q : Handler Json Unit}

theorem Stands.untouched {request : Request} {a : Action Json} {next : Answer a → Handler Json Unit}
    (hNone : responses t = []) : Stands provider request s t (.act a next) s :=
  .pending (fun _ => nofun) hNone (.inl rfl)

theorem Stands.responds {request : Request} {s₀ : Bindings} {response : Response}
    {u : List (Event (@Answer Json))} (hServes : Serves provider s₀ request (uses u) [response] s)
    (hNone : responses u = []) (h : provider.sequential.Does (Handler.respond response) s t q s') :
    Stands provider request s₀ (u ++ t) q s' := by
  obtain ⟨rfl, rfl, rfl⟩ | ⟨o, t', rfl, h'⟩ := Machine.Does.of_act h
  · rw [List.append_nil]
    exact .pending (fun _ => nofun) hNone (.inr ⟨_, hServes⟩)
  · obtain ⟨rfl, rfl, rfl⟩ := Machine.Does.of_pure h'
    refine .finished rfl ?_
    have hUses : uses (u ++ [⟨Action.respond response, ()⟩]) = uses u := by
      simp [uses, Event.use]
    have hSent : responses (u ++ [⟨Action.respond response, ()⟩]) = [response] := by
      rw [responses, List.filterMap_append, show u.filterMap Event.response = [] from hNone]
      rfl
    exact hUses.symm ▸ hSent.symm ▸ hServes

theorem fn_ne_none {map : FactoryMap} {type : String} {json : Json} {world : Outcomes BackendType Json}
    {result : FactoryResult} (hFactory : provider.factory.sequencer map type json world = result)
    (hResult : result ≠ .nullptr) : provider.factory.fn map type ≠ none := by
  intro hNone
  rw [SequencerFactory.sequencer, hNone] at hFactory
  exact hResult hFactory.symm

theorem addSequencer_stands (map : FactoryMap) (token type config : String)
    (h : provider.sequential.Does (provider.addSequencer map token type config) s t q s') :
    Stands provider (.add map token type config) s t q s' := by
  obtain ⟨rfl, rfl, rfl⟩ | ⟨o₁, t₁, rfl, h₁⟩ := Machine.Does.of_act h
  · exact .untouched rfl
  cases hToken : provider.rejects token with
  | true =>
    simp only [hToken, ↓reduceIte] at h₁
    exact .responds (u := [_]) (.addRefused map token type config hToken) rfl h₁
  | false =>
    simp only [hToken, Bool.false_eq_true, ↓reduceIte] at h₁
    cases hParse : provider.parse config with
    | parse_error what =>
      simp only [hParse] at h₁
      exact .responds (u := [_]) (.malformed map token type config what hToken hParse) rfl h₁
    | out_of_range what =>
      simp only [hParse] at h₁
      obtain ⟨rfl, rfl, rfl⟩ | ⟨o₂, t₂, rfl, h₂⟩ := Machine.Does.of_act h₁
      · exact .untouched rfl
      obtain ⟨rfl, rfl, rfl⟩ := Machine.Does.of_pure h₂
      exact .finished rfl (.escaped map token type config what hToken hParse)
    | value json =>
      simp only [hParse] at h₁
      obtain ⟨rfl, rfl, rfl⟩ | ⟨o₂, t₂, rfl, h₂⟩ := Machine.Does.of_act h₁
      · exact .untouched rfl
      cases hFactory : provider.factory.sequencer map type json o₂.world with
      | exception what =>
        have hKnown := fn_ne_none hFactory (by simp)
        simp only [sequential_perform, ProviderImpl.perform, hFactory] at h₂ ⊢
        exact .responds (u := [_, _]) (.failed map token type config what json hToken hParse hKnown)
          rfl h₂
      | nullptr =>
        simp only [sequential_perform, ProviderImpl.perform, hFactory] at h₂ ⊢
        exact .responds (u := [_, _]) (.unknown map token type config json hToken hParse) rfl h₂
      | backend =>
        have hKnown := fn_ne_none hFactory (by simp)
        simp only [sequential_perform, ProviderImpl.perform, hFactory] at h₂ ⊢
        obtain ⟨rfl, rfl, rfl⟩ | ⟨o₃, t₃, rfl, h₃⟩ := Machine.Does.of_act h₂
        · exact .untouched rfl
        have hServes := Serves.added (s := s) map token type config json o₁.world.generated o₂.made
          hToken hParse hKnown
        exact .responds (u := [_, _, _]) hServes rfl h₃

theorem closeSequencer_stands (token : String) (sequencer_id : UUID)
    (h : provider.sequential.Does (provider.closeSequencer token sequencer_id) s t q s') :
    Stands provider (.closeSequencer token sequencer_id) s t q s' := by
  unfold ProviderImpl.closeSequencer at h
  cases hToken : provider.rejects token with
  | true =>
    simp only [hToken, ↓reduceIte] at h
    exact .responds (u := []) (.closeRefused token sequencer_id hToken) rfl h
  | false =>
    simp only [hToken, Bool.false_eq_true, ↓reduceIte] at h
    obtain ⟨rfl, rfl, rfl⟩ | ⟨o₁, t₁, rfl, h₁⟩ := Machine.Does.of_act h
    · exact .untouched rfl
    cases hFind : s sequencer_id with
    | none =>
      simp only [sequential_perform, ProviderImpl.perform, hFind] at h₁ ⊢
      obtain ⟨rfl, rfl, rfl⟩ := Machine.Does.of_pure h₁
      exact .finished rfl (.notClosed token sequencer_id hToken hFind)
    | some backend =>
      simp only [sequential_perform, ProviderImpl.perform, hFind] at h₁ ⊢
      exact .responds (u := [_]) (.closed token sequencer_id backend hToken hFind) rfl h₁

theorem destroySequencer_stands (token : String) (sequencer_id : UUID)
    (h : provider.sequential.Does (provider.destroySequencer token sequencer_id) s t q s') :
    Stands provider (.destroySequencer token sequencer_id) s t q s' := by
  unfold ProviderImpl.destroySequencer at h
  cases hToken : provider.rejects token with
  | true =>
    simp only [hToken, ↓reduceIte] at h
    exact .responds (u := []) (.destroyRefused token sequencer_id hToken) rfl h
  | false =>
    simp only [hToken, Bool.false_eq_true, ↓reduceIte] at h
    obtain ⟨rfl, rfl, rfl⟩ | ⟨o₁, t₁, rfl, h₁⟩ := Machine.Does.of_act h
    · exact .untouched rfl
    cases hFind : s sequencer_id with
    | none =>
      simp only [sequential_perform, ProviderImpl.perform, hFind] at h₁ ⊢
      obtain ⟨rfl, rfl, rfl⟩ := Machine.Does.of_pure h₁
      exact .finished rfl (.notDestroyed token sequencer_id hToken hFind)
    | some backend =>
      cases hDestroy : o₁.world.destroy backend with
      | threw what =>
        simp only [sequential_perform, ProviderImpl.perform, hFind, hDestroy] at h₁ ⊢
        obtain ⟨rfl, rfl, rfl⟩ := Machine.Does.of_pure h₁
        exact .finished rfl (.destroyThrew token sequencer_id backend what hToken hFind)
      | returned result =>
        simp only [sequential_perform, ProviderImpl.perform, hFind, hDestroy] at h₁ ⊢
        exact .responds (u := [_]) (.destroyed token sequencer_id backend result hToken hFind) rfl h₁

theorem checkSequencer_stands (sequencer_id : UUID)
    (h : provider.sequential.Does (provider.checkSequencer sequencer_id) s t q s') :
    Stands provider (.checkSequencer sequencer_id) s t q s' := by
  obtain ⟨rfl, rfl, rfl⟩ | ⟨o₁, t₁, rfl, h₁⟩ := Machine.Does.of_act h
  · exact .untouched rfl
  cases hFind : s sequencer_id with
  | none =>
    simp only [sequential_perform, ProviderImpl.perform, hFind] at h₁ ⊢
    obtain ⟨rfl, rfl, rfl⟩ := Machine.Does.of_pure h₁
    exact .finished rfl (.unchecked sequencer_id hFind)
  | some backend =>
    simp only [sequential_perform, ProviderImpl.perform, hFind] at h₁ ⊢
    exact .responds (u := [_]) (.checked sequencer_id backend hFind) rfl h₁

theorem sayHello_stands (sequencer_id : UUID)
    (h : provider.sequential.Does (provider.sayHello sequencer_id) s t q s') :
    Stands provider (.sayHello sequencer_id) s t q s' := by
  obtain ⟨rfl, rfl, rfl⟩ | ⟨o₁, t₁, rfl, h₁⟩ := Machine.Does.of_act h
  · exact .untouched rfl
  cases hFind : s sequencer_id with
  | none =>
    simp only [sequential_perform, ProviderImpl.perform, hFind] at h₁ ⊢
    obtain ⟨rfl, rfl, rfl⟩ := Machine.Does.of_pure h₁
    exact .finished rfl (.unsaid sequencer_id hFind)
  | some backend =>
    simp only [sequential_perform, ProviderImpl.perform, hFind] at h₁ ⊢
    obtain ⟨rfl, rfl, rfl⟩ | ⟨o₂, t₂, rfl, h₂⟩ := Machine.Does.of_act h₁
    · exact .untouched rfl
    obtain ⟨rfl, rfl, rfl⟩ := Machine.Does.of_pure h₂
    rw [sequential_perform, ProviderImpl.perform, m_backends_afterCall]
    exact .finished rfl (.said sequencer_id backend _ hFind)

theorem computeSum_stands (sequencer_id : UUID) (x y : Int32)
    (h : provider.sequential.Does (provider.computeSum sequencer_id x y) s t q s') :
    Stands provider (.computeSum sequencer_id x y) s t q s' := by
  obtain ⟨rfl, rfl, rfl⟩ | ⟨o₁, t₁, rfl, h₁⟩ := Machine.Does.of_act h
  · exact .untouched rfl
  obtain ⟨rfl, rfl, rfl⟩ | ⟨o₂, t₂, rfl, h₂⟩ := Machine.Does.of_act h₁
  · exact .untouched rfl
  cases hFind : s sequencer_id with
  | none =>
    simp only [sequential_perform, ProviderImpl.perform, hFind] at h₂ ⊢
    obtain ⟨rfl, rfl, rfl⟩ := Machine.Does.of_pure h₂
    exact .finished rfl (.unsummed sequencer_id x y _ hFind)
  | some backend =>
    simp only [sequential_perform, ProviderImpl.perform, hFind] at h₂ ⊢
    obtain ⟨rfl, rfl, rfl⟩ | ⟨o₃, t₃, rfl, h₃⟩ := Machine.Does.of_act h₂
    · exact .untouched rfl
    cases hSum : o₃.world.computeSum backend x y with
    | threw what =>
      simp only [sequential_perform, ProviderImpl.perform, hSum] at h₃ ⊢
      obtain ⟨rfl, rfl, rfl⟩ := Machine.Does.of_pure h₃
      exact .finished rfl (.sumThrew sequencer_id x y backend what hFind)
    | returned result =>
      simp only [sequential_perform, ProviderImpl.perform, hSum] at h₃ ⊢
      exact .responds (u := [_, _, _]) (.summed sequencer_id x y backend result hFind) rfl h₃

theorem handler_stands (request : Request)
    (h : provider.sequential.Does (provider.handler request) s t q s') :
    Stands provider request s t q s' := by
  cases request with
  | createSequencer token type config => exact addSequencer_stands .create_fn _ _ _ h
  | openSequencer token type config => exact addSequencer_stands .open_fn _ _ _ h
  | closeSequencer token sequencer_id => exact closeSequencer_stands token sequencer_id h
  | destroySequencer token sequencer_id => exact destroySequencer_stands token sequencer_id h
  | checkSequencer sequencer_id => exact checkSequencer_stands sequencer_id h
  | sayHello sequencer_id => exact sayHello_stands sequencer_id h
  | computeSum sequencer_id x y => exact computeSum_stands sequencer_id x y h

end Mobject
