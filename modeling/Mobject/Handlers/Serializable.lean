import Mobject.Handlers.Registry
import Mobject.Library.Serial

/-! # The handlers are serializable

To the handlers the provider is a map from ids to backends: which object a backend is, and when
the process ends, is up to the world. Each handler has one event at which its request is decided,
so the requests could as well have been served one after the other.
-/
namespace Mobject
open Interleaving
set_option autoImplicit false

variable {BackendType Json ι : Type}

/-- The registry as a sequential object. -/
abbrev Bindings := UUID → Option BackendId

/-- What is decided for a sequential provider when one step is taken: also which object a factory
makes. -/
structure Oracle (BackendType Json : Type) where
  world : Outcomes BackendType Json
  made : BackendId

variable (provider : ProviderImpl BackendType Json)

/-- The provider over a map from ids to backends, in a process that no exception ends. -/
def ProviderImpl.sequential : Machine Bindings (Oracle BackendType Json) (Action Json) Answer where
  perform a oracle s :=
    ((provider.perform a oracle.world ⟨s, oracle.made, false⟩).1,
      (provider.perform a oracle.world ⟨s, oracle.made, false⟩).2.m_backends)
  halted _ := false

theorem sequential_perform (a : Action Json) (oracle : Oracle BackendType Json) (s : Bindings) :
    provider.sequential.perform a oracle s =
      ((provider.perform a oracle.world ⟨s, oracle.made, false⟩).1,
        (provider.perform a oracle.world ⟨s, oracle.made, false⟩).2.m_backends) := rfl

theorem machine_abstracts : provider.machine.Abstracts provider.sequential Registry.m_backends where
  live _ _ := rfl
  perform a world s hLive := by
    obtain ⟨m_backends, made, terminated⟩ := s
    obtain rfl : terminated = false := hLive
    exact ⟨⟨world, made⟩, rfl⟩

theorem m_backends_afterCall {α : Type} (s : Registry) (result : MethodResult α) :
    (s.afterCall result).m_backends = s.m_backends := by
  cases result <;> rfl

/-- The responses that say how a request was decided, no locked block having done so. -/
def ProviderImpl.decidesBy : Request → Response → Bool
  | .createSequencer .., response => !response.success
  | .openSequencer .., response => !response.success
  | .closeSequencer token _, _ => provider.rejects token
  | .destroySequencer token _, _ => provider.rejects token
  | _, _ => false

/-- The event at which a request is decided: its locked block, or the end of a handler that has
none. -/
def ProviderImpl.decides (request : Request) : Event (@Answer Json) → Bool
  | ⟨.insert .., _⟩ => true
  | ⟨.find .., _⟩ => true
  | ⟨.close .., _⟩ => true
  | ⟨.destroy .., _⟩ => true
  | ⟨.escape _, _⟩ => true
  | ⟨.respond response, _⟩ => provider.decidesBy request response
  | _ => false

theorem sequential_quiet {request : Request} {a : Action Json} {oracle : Oracle BackendType Json}
    {s : Bindings}
    (h : provider.decides request ⟨a, (provider.sequential.perform a oracle s).1⟩ = false)
    (s' : Bindings) :
    provider.sequential.perform a oracle s' = ((provider.sequential.perform a oracle s).1, s') := by
  cases a with
  | insert | find | close | destroy | escape => cases h
  | generate | uninitialised | respond => rfl
  | factory map name config =>
    cases hFactory : provider.factory.sequencer map name config oracle.world <;>
      simp [sequential_perform, ProviderImpl.perform, hFactory]
  | sayHello sequencer => exact Prod.ext rfl (m_backends_afterCall _ _)
  | computeSum sequencer x y => exact Prod.ext rfl (m_backends_afterCall _ _)

theorem decides_free {request : Request} {e : Event (@Answer Json)} {oracle : Oracle BackendType Json}
    {s : Bindings} (hAnswer : e.2 = (provider.sequential.perform e.1 oracle s).1)
    (h : provider.decides request e = false) : provider.sequential.Free e := by
  obtain ⟨a, answer⟩ := e
  obtain rfl : answer = (provider.sequential.perform a oracle s).1 := hAnswer
  refine ⟨fun s' => ⟨oracle, sequential_quiet provider h s'⟩, fun s' oracle' hSame => ?_⟩
  have hQuiet : provider.decides request ⟨a, (provider.sequential.perform a oracle' s').1⟩ = false := by
    rw [hSame]
    exact h
  exact congrArg Prod.snd (sequential_quiet provider hQuiet s')

/-- Every way through the handler comes to exactly one event that decides the request. -/
def DecidesOnce (request : Request) (handler : Handler Json Unit) : Prop :=
  handler.Once fun e => provider.decides request e = true

theorem addSequencer_once {request : Request}
    (hRequest : ∀ response, provider.decidesBy request response = !response.success)
    (map : FactoryMap) (token type config : String) :
    DecidesOnce provider request (provider.addSequencer map token type config) := by
  have hFailure : ∀ error, provider.decides request
      (⟨.respond (.uuidFailure error), ()⟩ : Event (@Answer Json)) = true := fun error => hRequest _
  intro sequencer_id
  refine .inr ⟨by simp [ProviderImpl.decides], ?_⟩
  cases provider.rejects token with
  | true => exact fun _ => .inl ⟨hFailure _, trivial⟩
  | false =>
    simp only [Bool.false_eq_true, ↓reduceIte]
    cases provider.parse config with
    | parse_error what => exact fun _ => .inl ⟨hFailure what, trivial⟩
    | out_of_range what => exact fun _ => .inl ⟨rfl, trivial⟩
    | value json =>
      intro answer
      refine .inr ⟨by simp [ProviderImpl.decides], ?_⟩
      cases answer with
      | exception what => exact fun _ => .inl ⟨hFailure what, trivial⟩
      | nullptr => exact fun _ => .inl ⟨hFailure _, trivial⟩
      | backend backend =>
        refine fun _ => .inl ⟨rfl, fun _ => ⟨?_, trivial⟩⟩
        simp [ProviderImpl.decides, hRequest, Response.success, RequestResult.success]

theorem closeSequencer_once (token : String) (sequencer_id : UUID) :
    DecidesOnce provider (.closeSequencer token sequencer_id)
      (provider.closeSequencer token sequencer_id) := by
  unfold ProviderImpl.closeSequencer
  cases hToken : provider.rejects token with
  | true => exact fun _ => .inl ⟨hToken, trivial⟩
  | false =>
    refine fun answer => .inl ⟨rfl, ?_⟩
    cases answer with
    | true => exact fun _ => ⟨by simp [ProviderImpl.decides, ProviderImpl.decidesBy, hToken], trivial⟩
    | false => trivial

theorem destroySequencer_once (token : String) (sequencer_id : UUID) :
    DecidesOnce provider (.destroySequencer token sequencer_id)
      (provider.destroySequencer token sequencer_id) := by
  unfold ProviderImpl.destroySequencer
  cases hToken : provider.rejects token with
  | true => exact fun _ => .inl ⟨hToken, trivial⟩
  | false =>
    refine fun answer => .inl ⟨rfl, ?_⟩
    cases answer with
    | notFound | threw => trivial
    | called backend result =>
      exact fun _ => ⟨by simp [ProviderImpl.decides, ProviderImpl.decidesBy, hToken], trivial⟩

theorem checkSequencer_once (sequencer_id : UUID) :
    DecidesOnce provider (.checkSequencer sequencer_id) (provider.checkSequencer sequencer_id) := by
  refine fun answer => .inl ⟨rfl, ?_⟩
  cases answer with
  | none => trivial
  | some backend => exact fun _ => ⟨by simp [ProviderImpl.decides, ProviderImpl.decidesBy], trivial⟩

theorem sayHello_once (sequencer_id : UUID) :
    DecidesOnce provider (.sayHello sequencer_id) (provider.sayHello sequencer_id) := by
  refine fun answer => .inl ⟨rfl, ?_⟩
  cases answer with
  | none => trivial
  | some backend => exact fun _ => ⟨by simp [ProviderImpl.decides], trivial⟩

theorem computeSum_once (sequencer_id : UUID) (x y : Int32) :
    DecidesOnce provider (.computeSum sequencer_id x y) (provider.computeSum sequencer_id x y) := by
  refine fun _ => .inr ⟨by simp [ProviderImpl.decides], fun answer => .inl ⟨rfl, ?_⟩⟩
  cases answer with
  | none => trivial
  | some backend =>
    refine fun sum => ⟨by simp [ProviderImpl.decides], ?_⟩
    cases sum with
    | threw what => trivial
    | returned result => exact fun _ => ⟨by simp [ProviderImpl.decides, ProviderImpl.decidesBy], trivial⟩

theorem handler_decides_once (request : Request) :
    DecidesOnce provider request (provider.handler request) := by
  cases request with
  | createSequencer token type config => exact addSequencer_once provider (fun _ => rfl) .create_fn _ _ _
  | openSequencer token type config => exact addSequencer_once provider (fun _ => rfl) .open_fn _ _ _
  | closeSequencer token sequencer_id => exact closeSequencer_once provider token sequencer_id
  | destroySequencer token sequencer_id => exact destroySequencer_once provider token sequencer_id
  | checkSequencer sequencer_id => exact checkSequencer_once provider sequencer_id
  | sayHello sequencer_id => exact sayHello_once provider sequencer_id
  | computeSum sequencer_id x y => exact computeSum_once provider sequencer_id x y

variable [DecidableEq ι]

/-- However the handlers are interleaved, and whatever the backends do, each could have done all it
did in one go, on a map that nobody else touches meanwhile. -/
theorem provider_serializable (provider : ProviderImpl BackendType Json) (requests : ι → Request)
    (schedule : List (ι × Outcomes BackendType Json)) :
    provider.sequential.Serializable (fun k => provider.handler (requests k))
      (provider.serve requests schedule).rest Registry.empty.m_backends
      (provider.serve requests schedule).shared.m_backends (provider.serve requests schedule).log := by
  have hSerial := (serve_served provider requests schedule).abstract (machine_abstracts provider)
  have hPath := serve_path provider requests schedule
  have hOnce := fun k => handler_decides_once provider (requests k)
  apply hSerial.serializable (fun _ => rfl) hPath hOnce
  intro k e hMem hNot
  obtain ⟨oracle, s, hAnswer⟩ := hSerial.answered (k, e) hMem
  exact decides_free provider hAnswer hNot

end Mobject
