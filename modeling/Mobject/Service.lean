import Mobject.Handlers.Locking
import Mobject.Handlers.Standing
import Mobject.Handlers.Wire
import Mobject.Library.SideBySide

/-! # The service that clients see

The sequencers of a provider as one sequential object, in the terms of the client functions; and
that any interleaving of the handlers looks to their callers like this object: of the handlers of
several providers, and of single accesses to the map of one, under its mutex.
-/
namespace Mobject
open Interleaving Unwinding
set_option autoImplicit false

variable {BackendType Json ι : Type}

/-- A call of a client function. `makeSequencerHandle` is called with `check`, and `computeSum`
without a `req`. -/
inductive Call where
  | createSequencer (sequencer_type sequencer_config token : String)
  | openSequencer (sequencer_type sequencer_config token : String)
  | closeSequencer (sequencer_id : UUID) (token : String)
  | destroySequencer (sequencer_id : UUID) (token : String)
  | makeSequencerHandle (m_ph : Nat) (sequencer_id : UUID)
  | sayHello (sequencer_id : UUID)
  | computeSum (handle : SequencerHandleImpl) (x y : Int32)

/-- What a call returns, or writes to `*result`. -/
inductive Value where
  | nothing
  | sequencer_id (sequencer_id : UUID)
  | handle (handle : SequencerHandle)
  | result (sum : Int32)

namespace Call

def request : Call → Request
  | .createSequencer type config token => .createSequencer token type config
  | .openSequencer type config token => .openSequencer token type config
  | .closeSequencer sequencer_id token => .closeSequencer token sequencer_id
  | .destroySequencer sequencer_id token => .destroySequencer token sequencer_id
  | .makeSequencerHandle _ sequencer_id => .checkSequencer sequencer_id
  | .sayHello sequencer_id => .sayHello sequencer_id
  | .computeSum handle x y => .computeSum handle.m_sequencer_id x y

/-- What a caller of `computeSum` gets when its RPC has ended so. -/
def sum (handle : SequencerHandleImpl) (x y : Int32) (received : RequestResult Int32) :
    Option (Except Exception Value) :=
  match SequencerHandle.computeSum (some handle) x y (some 0) none (fun _ => received)
      (.start fun _ => 0) with
  | (.normal _, s) => some (.ok (.result (s.memory 0)))
  | (.threw exception, _) => some (.error exception)
  | (.terminated, _) => none

variable (a : Archive)

/-- What the provider receives of the call. -/
def received : Call → Option Request
  | .createSequencer type config token => (Admin.createSequencer a type config token).request a
  | .openSequencer type config token => (Admin.openSequencer a type config token).request a
  | .closeSequencer sequencer_id token => (Admin.closeSequencer a sequencer_id token).request a
  | .destroySequencer sequencer_id token => (Admin.destroySequencer a sequencer_id token).request a
  | .makeSequencerHandle m_ph sequencer_id =>
    (Client.makeSequencerHandle a m_ph sequencer_id true).request a
  | .sayHello sequencer_id => (SequencerHandle.say_hello a sequencer_id).request a
  | .computeSum handle x y => (SequencerHandle.compute_sum a handle.m_sequencer_id x y).request a

/-- How the call ends when these bytes come back. -/
def finish (bytes : List UInt8) : Call → Option (Except Exception Value)
  | .createSequencer type config token =>
    ((Admin.createSequencer a type config token).finish bytes).map (.map .sequencer_id)
  | .openSequencer type config token =>
    ((Admin.openSequencer a type config token).finish bytes).map (.map .sequencer_id)
  | .closeSequencer sequencer_id token =>
    ((Admin.closeSequencer a sequencer_id token).finish bytes).map (.map fun _ => .nothing)
  | .destroySequencer sequencer_id token =>
    ((Admin.destroySequencer a sequencer_id token).finish bytes).map (.map fun _ => .nothing)
  | .makeSequencerHandle m_ph sequencer_id =>
    ((Client.makeSequencerHandle a m_ph sequencer_id true).finish bytes).map (.map .handle)
  | .sayHello sequencer_id =>
    ((SequencerHandle.say_hello a sequencer_id).finish bytes).map (.map fun _ => .nothing)
  | .computeSum handle x y =>
    match (SequencerHandle.compute_sum a handle.m_sequencer_id x y).finish bytes with
    | some (.ok received) => sum handle x y received
    | some (.error exception) => some (.error exception)
    | none => none

/-- How a call ends whose handler has sent these responses. A caller who is not answered waits,
unless the response of the RPC is disabled. -/
def outcome (sent : List Response) (call : Call) : Option (Except Exception Value) :=
  if expectsResponse call.request.rpc then
    match sent with
    | [] => none
    | response :: _ => call.finish a (response.encode a)
  else call.finish a []

end Call

theorem Call.received_eq (a : Archive) (call : Call) : call.received a = some call.request := by
  cases call <;> simp [Call.received, Call.request]

def Call.value : Call → Response → Value
  | .makeSequencerHandle m_ph sequencer_id, _ => .handle (some ⟨sequencer_id, m_ph⟩)
  | _, .uuid result => .sequencer_id result.value
  | _, .bool _ => .nothing
  | _, .int32 result => .result result.value

/-- A value, or the one exception that every client function throws. -/
def Call.verdict (call : Call) (response : Response) : Except Exception Value :=
  if response.success then .ok (call.value response) else .error ⟨response.error⟩

theorem Call.sum_eq (handle : SequencerHandleImpl) (x y : Int32) (result : RequestResult Int32) :
    Call.sum handle x y result =
      some ((Call.computeSum handle x y).verdict (.int32 result)) := by
  rw [Call.sum, computeSum_sync]
  cases hSuccess : result.success <;>
    simp [Mobject.verdict, Heap.answered, Heap.store, Call.verdict, Call.value, Response.success,
      Response.error, hSuccess]

theorem Call.finish_eq (a : Archive) (call : Call) {response : Response}
    (hType : response.type = call.request.resultType) (hWaits : ∀ u, call ≠ .sayHello u) :
    call.finish a (response.encode a) = some (call.verdict response) := by
  have hObserved := observed_of_type a call.request response hType
  have hBytes : response.encode a = response.encode a ++ [] := (List.append_nil _).symm
  unfold Call.verdict
  cases call with
  | createSequencer type config token | openSequencer type config token =>
    cases response with
    | uuid result =>
      rw [Call.finish, hBytes, hObserved.2 []]
      cases hSuccess : Response.success (.uuid result) <;> rfl
    | bool | int32 => cases hType
  | closeSequencer sequencer_id token | destroySequencer sequencer_id token =>
    cases response with
    | bool result =>
      rw [Call.finish, hBytes, hObserved.2 []]
      cases hSuccess : Response.success (.bool result) <;> rfl
    | uuid | int32 => cases hType
  | makeSequencerHandle m_ph sequencer_id =>
    cases response with
    | bool result =>
      rw [Call.finish, hBytes, (hObserved m_ph).2 []]
      cases hSuccess : Response.success (.bool result) <;> rfl
    | uuid | int32 => cases hType
  | sayHello sequencer_id => exact absurd rfl (hWaits sequencer_id)
  | computeSum handle x y =>
    cases response with
    | int32 result =>
      have hReceived := hObserved.2.1 []
      rw [List.append_nil] at hReceived
      simp only [Call.finish, hReceived]
      exact Call.sum_eq handle x y result
    | uuid | bool => cases hType

/-- How a call ends in the terms of the responses: a `sayHello` at once, any other call with the
first one. -/
def Call.ends (sent : List Response) : Call → Option (Except Exception Value)
  | .sayHello _ => some (.ok .nothing)
  | call => sent.head?.map call.verdict

theorem Call.outcome_eq (a : Archive) (call : Call) {sent : List Response}
    (hType : ∀ response ∈ sent, response.type = call.request.resultType) :
    call.outcome a sent = call.ends sent := by
  unfold Call.outcome
  by_cases hHello : ∃ u, call = .sayHello u
  · obtain ⟨u, rfl⟩ := hHello
    rw [Call.request, expectsResponse_sayHello]
    rfl
  · have hWaits : ∀ u, call ≠ .sayHello u := fun u hEq => hHello ⟨u, hEq⟩
    have hExpects : expectsResponse call.request.rpc = true := by
      refine (expectsResponse_rpc _).mpr fun u hEq => ?_
      cases call <;> cases hEq
      exact hWaits _ rfl
    have hEnds : call.ends sent = sent.head?.map call.verdict := by
      cases call with
      | sayHello u => exact absurd rfl (hWaits u)
      | _ => rfl
    rw [if_pos hExpects, hEnds]
    cases sent with
    | nil => rfl
    | cons response sent => exact call.finish_eq a (hType response List.mem_cons_self) hWaits

/-- What a call does to the sequential provider, by what its handler has done so far. A call that is
still being served may also be left out. -/
inductive Turn (provider : ProviderImpl BackendType Json) (a : Archive) (call : Call) (done : Prop)
    (t : List (Event (@Answer Json))) (s s' : Bindings) : Prop
  | finished : done → Serves provider s call.request (uses t) (responses t) s' →
      call.outcome a (responses t) = call.ends (responses t) → Turn provider a call done t s s'
  | pending : ¬ done → responses t = [] →
      (s' = s ∨ ∃ sent, Serves provider s call.request (uses t) sent s') →
      Turn provider a call done t s s'

theorem Stands.turn {provider : ProviderImpl BackendType Json} (a : Archive) (call : Call) {done : Prop}
    {t : List (Event (@Answer Json))} {left : Handler Json Unit} {s s' : Bindings}
    (h : Stands provider call.request s t left s') (hPath : Path (provider.handler call.request) t left)
    (hDone : done ↔ left = .pure ()) : Turn provider a call done t s s' := by
  have hTyped : ∀ response ∈ responses t, response.type = call.request.resultType := by
    intro response hSent
    obtain ⟨e, hMem, hResponse⟩ := List.mem_filterMap.mp hSent
    obtain ⟨_, hTyped⟩ := hPath.along_mem (handler_typed _ _) e hMem
    exact hTyped.sends response (Event.sends_of_response hResponse)
  cases h with
  | finished hEnd hServes => exact .finished (hDone.mpr hEnd) hServes (call.outcome_eq a hTyped)
  | pending hLeft hNone hEither => exact .pending (fun h => hLeft () (hDone.mp h)) hNone hEither

abbrev ServiceConfig (ι P Json : Type) :=
  Config ι (P → Registry) (P × Action Json) (Addressed P (@Answer Json)) Unit

section Run
variable {P : Type} [DecidableEq ι] (providers : P → ProviderImpl BackendType Json) (a : Archive)
  (calls : ι → P × Call)

/-- The run looks to its callers as if they had come one after the other, in an order that keeps
whoever was done before another began before him. -/
structure LooksSequential (c : ServiceConfig ι P Json) (order : List ι) : Prop where
  received : ∀ k, (calls k).2.received a = some (calls k).2.request
  once : order.Nodup
  everyone : ∀ k, k ∈ order ↔ project k c.log ≠ []
  realTime : order.Pairwise fun k k' => ¬ Precedes c.rest c.log k' k
  turns : Chain (fun k s s' => (∀ p ≠ (calls k).1, s' p = s p) ∧
      Turn (providers (calls k).1) a (calls k).2 (c.rest k = .pure ()) ((project k c.log).map plain)
        (s (calls k).1) (s' (calls k).1))
    (fun _ => Registry.empty.m_backends) order fun p => (c.shared p).m_backends

variable [DecidableEq P] [Fintype P]

/-- The providers of one engine. A call names the provider that is to serve it, and an exception
that leaves a handler ends them all. -/
def service (schedule : List (ι × Outcomes BackendType Json)) : ServiceConfig ι P Json :=
  (Machine.side fun p => (providers p).machine).run
    ⟨fun _ => .empty, fun k => ((providers (calls k).1).handler (calls k).2.request).sendTo (calls k).1, []⟩
    schedule

/-- Whatever the calls, their interleaving and the backends, and also where an exception ends the
process: the callers cannot tell the providers from ones that serve a single call at a time. -/
theorem service_linearizable (providers : P → ProviderImpl BackendType Json) (a : Archive)
    (calls : ι → P × Call) (schedule : List (ι × Outcomes BackendType Json)) :
    ∃ order, LooksSequential providers a calls (service providers calls schedule) order := by
  obtain ⟨hReach, hPath⟩ := (Machine.side fun p => (providers p).machine).run_reaches
    (fun k => ((providers (calls k).1).handler (calls k).2.request).sendTo (calls k).1)
    (fun _ => .empty) schedule
  have hAbstract := hReach.abstract (.side fun p => machine_abstracts (providers p))
  obtain ⟨order, hOrder⟩ := hAbstract.side_serializable (fun _ _ => rfl) hPath
    (fun k => handler_decides_once (providers (calls k).1) (calls k).2.request)
    fun k e oracle s => decides_free (providers (calls k).1)
  refine ⟨order, fun k => (calls k).2.received_eq a, hOrder.once, hOrder.everyone, hOrder.realTime, ?_⟩
  apply hOrder.performs.chain.imp
  intro k _ s s' hPerforms
  obtain ⟨hAt, left, hRest, hOwn⟩ := (hPath k).of_sendTo
  obtain ⟨hPart, hOthers⟩ := hPerforms.of_side hAt
  refine ⟨hOthers, (handler_stands _ ⟨hOwn, hPart⟩).turn a _ hOwn ?_⟩
  exact (Eq.congr_left hRest).trans Prog.sendTo_eq_pure

end Run

section Locked
variable [DecidableEq ι]

/-- The same of one provider with its mutex, a handler inside a locked block counting as before it.
While the mutex is free its map is the one that the calls lead to. -/
structure LooksSequentialLocked (provider : ProviderImpl BackendType Json) (a : Archive)
    (calls : ι → Call) (c : LockConfig ι Entries (Action Json) Access Answer AccessAnswer Unit)
    (order : List ι) (s : Bindings) : Prop where
  received : ∀ k, (calls k).received a = some (calls k).request
  once : order.Nodup
  everyone : ∀ k, k ∈ order ↔ project k c.log ≠ []
  realTime : order.Pairwise fun k k' => ¬ Precedes (fun k => (c.stage k).rest) c.log k' k
  turns : Chain (fun k => Turn provider a (calls k) ((c.stage k).rest = .pure ()) (project k c.log))
    Registry.empty.m_backends order s
  free : c.holder = none → ∀ u, c.shared.m_backends u = (s u).map some

/-- With the mutex, and each access to the map a step of its own, the callers still cannot tell. -/
theorem locked_linearizable (provider : ProviderImpl BackendType Json) (a : Archive) (calls : ι → Call)
    (schedule : List (ι × Outcomes BackendType Json)) : ∃ order s, LooksSequentialLocked provider a calls
      (provider.serveLocked (fun k => (calls k).request) schedule) order s := by
  obtain ⟨schedule', hSimulates⟩ := (sections_implement provider).simulates
    (fun k => provider.handler (calls k).request) .empty schedule
  obtain ⟨order, hOrder⟩ := provider_serializable provider (fun k => (calls k).request) schedule'
  have hLog : (provider.serve (fun k => (calls k).request) schedule').log =
    (provider.serveLocked (fun k => (calls k).request) schedule).log := hSimulates.log
  have hRest : (provider.serve (fun k => (calls k).request) schedule').rest = fun k =>
    ((provider.serveLocked (fun k => (calls k).request) schedule).stage k).rest := hSimulates.rest
  rw [hLog, hRest] at hOrder
  refine ⟨order, (provider.serve (fun k => (calls k).request) schedule').shared.m_backends,
    fun k => (calls k).received_eq a, hOrder.once, hOrder.everyone, hOrder.realTime, ?_, fun hFree u => ?_⟩
  · apply hOrder.performs.chain.imp
    intro k _ s s' hPerforms
    exact (handler_stands _ ⟨hOrder.own k, hPerforms⟩).turn a _ (hOrder.own k) Iff.rfl
  · rw [ProviderImpl.serveLocked, hSimulates.free hFree, m_backends_of]
    rfl

end Locked

end Mobject
