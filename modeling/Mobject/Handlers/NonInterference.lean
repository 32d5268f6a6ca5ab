import Mobject.Handlers.Exits
import Mobject.Handlers.Registry
import Mobject.DummyBackend

/-! # Unauthorised admin requests do not interfere

A request with the wrong token is answered before its handler looks at anything else. Its program
is `refused`, which touches no shared state, so a run without it is the same run for all others.
-/
namespace Mobject
open Interleaving Lifetimes
set_option autoImplicit false

variable {BackendType Json ι : Type}

/-- An admin request with another token than the provider's. -/
def Unauthorised (provider : ProviderImpl BackendType Json) (request : Request) : Prop :=
  ∃ token, request.token = some token ∧ token ≠ provider.m_token

/-- What an unauthorised request is told: it depends on the RPC alone. -/
def Request.refusal : Request → Response
  | .createSequencer .. => .uuidFailure "Invalid security token"
  | .openSequencer .. => .uuidFailure "Invalid security token"
  | _ => .boolFailure "Invalid security token"

def refused (request : Request) : Handler Json Unit :=
  match request with
  | .createSequencer .. => do
    let _ ← Handler.generate
    Handler.respond request.refusal
  | .openSequencer .. => do
    let _ ← Handler.generate
    Handler.respond request.refusal
  | _ => Handler.respond request.refusal

variable (provider : ProviderImpl BackendType Json)

theorem rejects_eq_true (hToken : provider.m_token ≠ "") {token : String}
    (hOther : token ≠ provider.m_token) : provider.rejects token = true := by
  have hLength : 0 < provider.m_token.length :=
    Nat.pos_of_ne_zero fun hZero => hToken (String.length_eq_zero_iff.mp hZero)
  simp [ProviderImpl.rejects, hLength, Ne.symm hOther]

theorem handler_refused (hToken : provider.m_token ≠ "") {request : Request}
    (h : Unauthorised provider request) : provider.handler request = refused request := by
  obtain ⟨token, hRequest, hOther⟩ := h
  have hRejects := rejects_eq_true provider hToken hOther
  cases request with
  | createSequencer | openSequencer =>
    cases hRequest
    simp only [ProviderImpl.handler, ProviderImpl.createSequencer, ProviderImpl.openSequencer,
      ProviderImpl.addSequencer, hRejects, ↓reduceIte]
    rfl
  | closeSequencer | destroySequencer =>
    cases hRequest
    simp only [ProviderImpl.handler, ProviderImpl.closeSequencer, ProviderImpl.destroySequencer,
      hRejects, ↓reduceIte]
    rfl
  | checkSequencer | sayHello | computeSum => cases hRequest

theorem refused_silent (request : Request) : provider.machine.Silent (refused request) := by
  cases request with
  | createSequencer | openSequencer =>
    exact ⟨fun _ _ => rfl, fun _ => ⟨fun _ _ => rfl, fun _ => trivial⟩⟩
  | closeSequencer | destroySequencer | checkSequencer | sayHello | computeSum =>
    exact ⟨fun _ _ => rfl, fun _ => trivial⟩

def Event.backendCall : Event (@Answer Json) → Bool
  | ⟨.factory .., _⟩ => true
  | ⟨.destroy .., .called ..⟩ => true
  | ⟨.destroy .., .threw ..⟩ => true
  | ⟨.sayHello _, _⟩ => true
  | ⟨.computeSum .., _⟩ => true
  | _ => false

structure Refusing (request : Request) (t : List (Event (@Answer Json)))
    (rest : Handler Json Unit) : Prop where
  calls : ∀ e ∈ t, Event.backendCall e = false
  sent : ∀ response ∈ responses t, response = request.refusal
  finished : rest = .pure () → responses t = [request.refusal]

theorem respond_refusing {request : Request} {t : List (Event (@Answer Json))}
    {rest : Handler Json Unit} (h : Path (Handler.respond request.refusal) t rest) :
    Refusing request t rest := by
  cases h with
  | nil => exact ⟨by simp, by simp [responses], fun hDone => by cases hDone⟩
  | cons h =>
    cases h with
    | nil => exact ⟨by simp [Event.backendCall], by simp [responses, Event.response],
        by simp [responses, Event.response]⟩

theorem refused_refusing {request : Request} {t : List (Event (@Answer Json))}
    {rest : Handler Json Unit} (h : Path (refused request) t rest) : Refusing request t rest := by
  cases request with
  | createSequencer | openSequencer =>
    cases h with
    | nil => exact ⟨by simp, by simp [responses], fun hDone => by cases hDone⟩
    | cons h =>
      have hRespond := respond_refusing h
      refine ⟨?_, hRespond.sent, hRespond.finished⟩
      simpa [Event.backendCall] using hRespond.calls
  | closeSequencer | destroySequencer | checkSequencer | sayHello | computeSum =>
    exact respond_refusing h

theorem FreshDraws.filter {log : Log ι Json} (h : FreshDraws log)
    (p : ι × Event (@Answer Json) → Bool) : FreshDraws (log.filter p) :=
  fun k => (h k).sublist List.filter_sublist

variable [DecidableEq ι]

/-- `kept` is `full` without the requests of `S`, which learn nothing there. -/
structure NonInterfering (requests : ι → Request) (S : ι → Bool)
    (full kept : Config ι Registry (Action Json) Answer Unit) : Prop where
  shared : kept.shared = full.shared
  calls : (kept.log.filter fun e => Event.backendCall e.2) =
    full.log.filter fun e => Event.backendCall e.2
  remaining : ∀ k, S k = false →
    project k kept.log = project k full.log ∧ kept.rest k = full.rest k
  fresh : FreshDraws full.log → FreshDraws kept.log
  deleted : ∀ k, S k = true → project k kept.log = []
  refused : ∀ k, S k = true → (∀ response ∈ responses (project k full.log),
    response = (requests k).refusal) ∧
    (full.rest k = .pure () → responses (project k full.log) = [(requests k).refusal])

theorem unauthorised_noninterference (hToken : provider.m_token ≠ "") (requests : ι → Request)
    (S : ι → Bool) (hS : ∀ k, S k = true → Unauthorised provider (requests k))
    (schedule : List (ι × Outcomes BackendType Json)) :
    NonInterfering requests S (provider.serve requests schedule)
      (provider.serve requests (schedule.filter fun l => !S l.1)) := by
  have hErased : Erased provider.machine (fun k => !S k) (provider.serve requests schedule)
      (provider.serve requests (schedule.filter fun l => !S l.1)) := by
    refine Erased.run ⟨rfl, rfl, fun _ _ => rfl, fun k hk => ?_⟩ schedule
    have hk : S k = true := by simpa using hk
    simpa [handler_refused provider hToken (hS k hk)] using refused_silent provider (requests k)
  have hRefusing : ∀ k, S k = true → Refusing (requests k)
      (project k (provider.serve requests schedule).log)
      ((provider.serve requests schedule).rest k) := by
    intro k hk
    have hPath := (provider.machine.run_reaches (fun k => provider.handler (requests k)) .empty
      schedule).2 k
    rw [handler_refused provider hToken (hS k hk)] at hPath
    exact refused_refusing hPath
  constructor
  · exact hErased.shared
  · rw [hErased.log, List.filter_filter]
    apply List.filter_congr
    intro e hMem
    cases hk : S e.1 with
    | false => simp
    | true => simp [(hRefusing e.1 hk).calls e.2 ((mem_project _ _ _).mpr hMem)]
  · intro k hk
    refine ⟨?_, hErased.rest k (by simp [hk])⟩
    rw [hErased.log]
    exact project_filter (fun k => !S k) k (by simp [hk]) _
  · intro hFresh
    rw [hErased.log]
    exact hFresh.filter _
  · intro k hk
    apply List.eq_nil_iff_forall_not_mem.mpr
    intro e hMem
    rw [mem_project, hErased.log, List.mem_filter] at hMem
    simp [hk] at hMem
  · exact fun k hk => ⟨(hRefusing k hk).sent, (hRefusing k hk).finished⟩

def strangersRequests : Nat → Request
  | 0 => .createSequencer "secret" "dummy" "\x7b\x7d"
  | 1 => .destroySequencer "guess" .cleared
  | _ => .openSequencer "" "dummy" "1e999"

theorem strangers_noninterference :
    NonInterfering strangersRequests (fun k => k != 0)
      ((dummyProvider "secret").serve strangersRequests
        ([0, 2, 0, 0, 1, 2, 0].map fun k => (k, DummySequencer.outcomes .cleared 0)))
      ((dummyProvider "secret").serve strangersRequests
        (([0, 2, 0, 0, 1, 2, 0].map fun k => (k, DummySequencer.outcomes .cleared 0)).filter
          fun l => !(l.1 != 0))) := by
  refine unauthorised_noninterference (dummyProvider "secret") (by decide) strangersRequests
    (fun k => k != 0) (fun k hk => ?_) _
  match k with
  | 0 => cases hk
  | 1 => exact ⟨"guess", rfl, by decide⟩
  | _ + 2 => exact ⟨"", rfl, by decide⟩

end Mobject
