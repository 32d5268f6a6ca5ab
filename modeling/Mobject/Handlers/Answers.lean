import Mobject.Handlers.Exits
import Mobject.DummyBackend

/-! # What a single request is answered, and what it changes

Each result is read off the list of exits.
-/
namespace Mobject
open Interleaving
set_option autoImplicit false

variable {BackendType Json : Type}

structure Outcomes.MethodsReturn (world : Outcomes BackendType Json) : Prop where
  sayHello : ∀ backend, ∃ value, world.sayHello backend = .returned value
  computeSum : ∀ backend x y, ∃ result, world.computeSum backend x y = .returned result
  destroy : ∀ backend, ∃ result, world.destroy backend = .returned result

theorem DummySequencer.methodsReturn (generated : UUID) (indeterminate : Int32) :
    (DummySequencer.outcomes generated indeterminate).MethodsReturn where
  sayHello _ := ⟨(), rfl⟩
  computeSum _ _ _ := ⟨_, rfl⟩
  destroy _ := ⟨_, rfl⟩

def Request.config : Request → Option String
  | .createSequencer _ _ config => some config
  | .openSequencer _ _ config => some config
  | _ => none

@[simp] theorem Request.config_add (map : FactoryMap) (token type config : String) :
    (Request.add map token type config).config = some config := by
  cases map <;> rfl

variable (provider : ProviderImpl BackendType Json) (world : Outcomes BackendType Json) (s : Registry)

/-- The handler responds exactly once to a caller that waits and never to one that does not. -/
def AnsweredAsExpected (request : Request) : Prop :=
  (responses (provider.handle world request s).1).length =
    if expectsResponse request.rpc then 1 else 0

theorem Request.add_ne_sayHello (map : FactoryMap) (token type config : String)
    (sequencer_id : UUID) : Request.add map token type config ≠ .sayHello sequencer_id := by
  cases map <;> simp [Request.add]

/-- The one disagreement between client and provider: `FIND_SEQUENCER` answers a one-way call. -/
theorem answered_as_expected_iff (request : Request) (hLive : s.terminated = false)
    (hReturn : world.MethodsReturn)
    (hParse : ∀ config, request.config = some config →
      ∀ what, provider.parse config ≠ .out_of_range what) :
    AnsweredAsExpected provider world s request ↔
      ¬ ∃ sequencer_id, request = .sayHello sequencer_id ∧ s.m_backends sequencer_id = none := by
  unfold AnsweredAsExpected
  have hExits := handle_exits provider world s request hLive
  generalize responses (provider.handle world request s).1 = sent at hExits ⊢
  generalize (provider.handle world request s).2 = after at hExits
  have hWaiting : (∀ sequencer_id, request ≠ .sayHello sequencer_id) → sent.length = 1 →
      (sent.length = (if expectsResponse request.rpc then 1 else 0) ↔
        ¬ ∃ sequencer_id, request = .sayHello sequencer_id ∧ s.m_backends sequencer_id = none) := by
    intro hNe hOne
    rw [(expectsResponse_rpc request).mpr hNe]
    exact iff_of_true hOne fun ⟨sequencer_id, hEq, _⟩ => hNe sequencer_id hEq
  cases hExits with
  | @add map token type config _ _ hAdd =>
    have hAnswered := hWaiting (Request.add_ne_sayHello map token type config)
    cases hAdd with
    | escaped what _ hRange => exact absurd hRange (hParse config (by simp) what)
    | rejected | parseError | threw | unknown | added => exact hAnswered rfl
  | destroyThrew token sequencer_id backend what _ _ hThrew =>
    obtain ⟨result, hResult⟩ := hReturn.destroy backend
    rw [hResult] at hThrew
    cases hThrew
  | sumThrew sequencer_id x y backend what _ hThrew =>
    obtain ⟨result, hResult⟩ := hReturn.computeSum backend x y
    rw [hResult] at hThrew
    cases hThrew
  | helloNotFound sequencer_id hFind =>
    exact iff_of_false (by simp) fun h => h ⟨sequencer_id, rfl, hFind⟩
  | helloSaid sequencer_id backend hFind =>
    apply iff_of_true (by simp)
    rintro ⟨_, hEq, hNone⟩
    cases hEq
    rw [hFind] at hNone
    cases hNone
  | closeRejected | closeNotFound | closed | destroyRejected | destroyNotFound | destroyed
  | checkNotFound | checked | sumNotFound | sumComputed =>
    exact hWaiting (by simp) rfl

theorem answered_as_expected_create :
    AnsweredAsExpected (dummyProvider "") (DummySequencer.outcomes .cleared 0) .empty
      (.createSequencer "" "dummy" "\x7b\x7d") := by
  refine (answered_as_expected_iff _ _ _ _ rfl (DummySequencer.methodsReturn _ _)
    fun config hConfig what => ?_).mpr (by simp)
  obtain rfl : "\x7b\x7d" = config := Option.some.inj hConfig
  simp [dummyProvider]

theorem sayHello_unknown_answered :
    Registry.empty.terminated = false ∧ (DummySequencer.outcomes .cleared 0).MethodsReturn ∧
      ¬ AnsweredAsExpected (dummyProvider "") (DummySequencer.outcomes .cleared 0) .empty
        (.sayHello .cleared) := by
  refine ⟨rfl, DummySequencer.methodsReturn _ _, ?_⟩
  simp only [AnsweredAsExpected, expectsResponse_sayHello]
  decide

/-- If a response reports a failure, `m_backends` is what it was before the handler ran. -/
def ErrorKeepsRegistry (request : Request) : Prop :=
  ∀ response ∈ responses (provider.handle world request s).1, response.success = false →
    (provider.handle world request s).2.m_backends = s.m_backends

/-- The failing kind: `destroySequencer` reaches a backend that says it could not be destroyed. -/
def DestroyRefused (request : Request) : Prop :=
  ∃ token sequencer_id backend result, request = .destroySequencer token sequencer_id ∧
    provider.rejects token = false ∧ s.m_backends sequencer_id = some backend ∧
    world.destroy backend = .returned result ∧ result.success = false

theorem not_destroyRefused_add (map : FactoryMap) (token type config : String) :
    ¬ DestroyRefused provider world s (.add map token type config) := by
  rintro ⟨_, _, _, _, hEq, _⟩
  cases map <;> cases hEq

theorem destroyRefused_destroySequencer (token : String) (sequencer_id : UUID) :
    DestroyRefused provider world s (.destroySequencer token sequencer_id) ↔
      provider.rejects token = false ∧ ∃ backend, s.m_backends sequencer_id = some backend ∧
        ∃ result, world.destroy backend = .returned result ∧ result.success = false := by
  constructor
  · rintro ⟨_, _, backend, result, hEq, hToken, hFind, hDestroy, hFailed⟩
    cases hEq
    exact ⟨hToken, backend, hFind, result, hDestroy, hFailed⟩
  · rintro ⟨hToken, backend, hFind, result, hDestroy, hFailed⟩
    exact ⟨token, sequencer_id, backend, result, rfl, hToken, hFind, hDestroy, hFailed⟩

/-- A backend that reports that it could not be destroyed is erased all the same. -/
theorem error_keeps_registry_iff (request : Request) (hLive : s.terminated = false) :
    ErrorKeepsRegistry provider world s request ↔ ¬ DestroyRefused provider world s request := by
  unfold ErrorKeepsRegistry
  have hExits := handle_exits provider world s request hLive
  generalize responses (provider.handle world request s).1 = sent at hExits ⊢
  generalize (provider.handle world request s).2 = after at hExits ⊢
  cases hExits with
  | destroyed token sequencer_id backend result hToken hFind hDestroy =>
    have hRefused : DestroyRefused provider world s (.destroySequencer token sequencer_id) ↔
        result.success = false := by
      simp [destroyRefused_destroySequencer, hToken, hFind, hDestroy]
    rw [hRefused]
    constructor
    · intro hKeeps hFailed
      have hErased := congrFun (hKeeps (.bool result) (by simp) hFailed) sequencer_id
      simp [hFind] at hErased
    · intro hNot response hSent hFailed
      cases List.mem_singleton.mp hSent
      exact absurd hFailed hNot
  | destroyRejected token sequencer_id hToken =>
    exact iff_of_true (by simp) (by simp [destroyRefused_destroySequencer, hToken])
  | destroyNotFound token sequencer_id _ hFind =>
    exact iff_of_true (by simp) (by simp [destroyRefused_destroySequencer, hFind])
  | destroyThrew token sequencer_id backend what _ hFind hThrew =>
    exact iff_of_true (by simp) (by simp [destroyRefused_destroySequencer, hFind, hThrew])
  | add map hAdd =>
    refine iff_of_true ?_ (not_destroyRefused_add provider world s _ _ _ _)
    cases hAdd with
    | rejected | parseError | escaped | threw | unknown | added =>
      simp [Response.success, RequestResult.success]
  | closed | closeRejected | closeNotFound | checkNotFound | checked | helloNotFound | helloSaid
  | sumNotFound | sumComputed | sumThrew =>
    exact iff_of_true (by simp [Response.success, RequestResultBool.success])
      (by simp [DestroyRefused])

def oneSequencer : Registry :=
  ((dummyProvider "").handle (DummySequencer.outcomes .cleared 0)
    (.createSequencer "" "dummy" "\x7b\x7d") .empty).2

def refusingOutcomes : Outcomes RegisteredBackend Unit :=
  { DummySequencer.outcomes .cleared 0 with
    destroy := fun _ => .returned { m_success := false, m_error := "still in use" } }

theorem error_keeps_registry_unknown :
    (∃ response ∈ responses ((dummyProvider "").handle refusingOutcomes
        (.closeSequencer "" ⟨.replicate 16 1⟩) oneSequencer).1, response.success = false) ∧
      ErrorKeepsRegistry (dummyProvider "") refusingOutcomes oneSequencer
        (.closeSequencer "" ⟨.replicate 16 1⟩) :=
  ⟨by decide, (error_keeps_registry_iff _ _ _ _ rfl).mpr (by rintro ⟨_, _, _, _, hEq, _⟩; cases hEq)⟩

theorem refused_destroy_erases :
    oneSequencer.terminated = false ∧
      ¬ ErrorKeepsRegistry (dummyProvider "") refusingOutcomes oneSequencer
        (.destroySequencer "" .cleared) := by
  refine ⟨rfl, fun hKeeps => ?_⟩
  have hErased := congrFun (hKeeps (.bool { m_success := false, m_error := "still in use" })
    (by decide) rfl) UUID.cleared
  exact absurd hErased (by decide)

/-- The token is accepted, the text parses and the factory returns a backend. -/
def Addable (map : FactoryMap) (token type config : String) : Prop :=
  provider.rejects token = false ∧ ∃ json, provider.parse config = .value json ∧
    provider.factory.sequencer map type json world = .backend

/-- What a handler that adds a sequencer owes its caller: one response and no exception, a
success with the new id bound to the new backend, or a failure with `m_backends` untouched. -/
structure AddsOrFails (map : FactoryMap) (token type config : String) (sent : List Response)
    (after : Registry) : Prop where
  noEscape : after.terminated = false
  once : sent.length = 1
  success_iff : ∀ response ∈ sent,
    response.success = true ↔ Addable provider world map token type config
  success : ∀ response ∈ sent, response.success = true → ∃ sequencer_id,
    response = .uuid { m_value := sequencer_id } ∧ s.m_backends sequencer_id = none ∧
      after.m_backends = Function.update s.m_backends sequencer_id (some s.made)
  failure : ∀ response ∈ sent, response.success = false → after.m_backends = s.m_backends

theorem AddsOrFails.of_failure {map : FactoryMap} {token type config error : String}
    (hLive : s.terminated = false) (hNot : ¬ Addable provider world map token type config) :
    AddsOrFails provider world s map token type config [.uuidFailure error] s where
  noEscape := hLive
  once := rfl
  success_iff := by simpa using hNot
  success := by simp
  failure := by simp

/-- Only `json::out_of_range` slips past the two `try` blocks. -/
theorem adds_or_fails_iff (map : FactoryMap) (token type config : String)
    (hLive : s.terminated = false) (hFresh : s.m_backends world.generated = none) :
    AddsOrFails provider world s map token type config
        (responses (provider.handle world (.add map token type config) s).1)
        (provider.handle world (.add map token type config) s).2 ↔
      ¬ (provider.rejects token = false ∧ ∃ what, provider.parse config = .out_of_range what) := by
  have hHandle : provider.handle world (.add map token type config) s =
      provider.machine.exec world (provider.addSequencer map token type config) s := by
    cases map <;> rfl
  rw [hHandle]
  have hExits := exec_addSequencer provider world s map token type config hLive
  generalize responses (provider.machine.exec world (provider.addSequencer map token type config) s).1 = sent
    at hExits ⊢
  generalize (provider.machine.exec world (provider.addSequencer map token type config) s).2 = after
    at hExits ⊢
  cases hExits with
  | escaped what hToken hRange =>
    exact iff_of_false (fun h => by simpa using h.once) fun h => h ⟨hToken, what, hRange⟩
  | rejected hToken =>
    exact iff_of_true (.of_failure provider world s hLive (by simp [Addable, hToken])) (by simp [hToken])
  | parseError what hToken hParse =>
    exact iff_of_true (.of_failure provider world s hLive (by simp [Addable, hParse])) (by simp [hParse])
  | threw what json hToken hParse hFactory =>
    exact iff_of_true (.of_failure provider world s hLive (by simp [Addable, hParse, hFactory]))
      (by simp [hParse])
  | unknown json hToken hParse hFactory =>
    exact iff_of_true (.of_failure provider world s hLive (by simp [Addable, hParse, hFactory]))
      (by simp [hParse])
  | added json hToken hParse hFactory =>
    refine iff_of_true ?_ (by simp [hParse])
    have hAddable : Addable provider world map token type config := ⟨hToken, json, hParse, hFactory⟩
    constructor
    · exact hLive
    · rfl
    · simpa [Response.success, RequestResult.success] using hAddable
    · intro response hSent _
      exact ⟨world.generated, List.mem_singleton.mp hSent, hFresh, rfl⟩
    · simp [Response.success, RequestResult.success]

theorem adds_or_fails_dummy :
    AddsOrFails (dummyProvider "") (DummySequencer.outcomes .cleared 0) .empty .create_fn "" "dummy"
      "\x7b\x7d" (responses ((dummyProvider "").handle (DummySequencer.outcomes .cleared 0)
        (.add .create_fn "" "dummy" "\x7b\x7d") .empty).1) oneSequencer :=
  (adds_or_fails_iff _ _ .empty .create_fn "" "dummy" "\x7b\x7d" rfl rfl).mpr
    (by simp [dummyProvider])

theorem out_of_range_escapes :
    Registry.empty.terminated = false ∧ Registry.empty.m_backends UUID.cleared = none ∧
      ¬ AddsOrFails (dummyProvider "") (DummySequencer.outcomes .cleared 0) .empty .create_fn
        "" "dummy" "1e999"
        (responses ((dummyProvider "").handle (DummySequencer.outcomes .cleared 0)
          (.add .create_fn "" "dummy" "1e999") .empty).1)
        ((dummyProvider "").handle (DummySequencer.outcomes .cleared 0)
          (.add .create_fn "" "dummy" "1e999") .empty).2 := by
  refine ⟨rfl, rfl, fun hTotal => ?_⟩
  exact absurd hTotal.noEscape (by decide)

end Mobject
