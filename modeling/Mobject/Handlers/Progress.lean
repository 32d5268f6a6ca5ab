import Mobject.Handlers.Ends
import Mobject.Handlers.Locking
import Mobject.Handlers.Standing
import Mobject.Library.Fair

/-! # Every request comes to an end

However the handlers are interleaved: each one finishes within four of its own turns as long as the
process lives, and has then responded once, or not at all where it is not to. With the mutex a turn
can be spent waiting, and it takes that every handler is scheduled again and again.
-/
namespace Mobject
open Interleaving
set_option autoImplicit false

variable {BackendType Json ι : Type} (provider : ProviderImpl BackendType Json)

section Runs
variable [DecidableEq ι]

/-- A run in which every request is answered as it is due. -/
structure Progresses (requests : ι → Request) (schedule : List (ι × Outcomes BackendType Json))
    (c : Config ι Registry (Action Json) Answer Unit) : Prop where
  unfinished : ∀ k, (∀ value, c.rest k ≠ .pure value) → responses (project k c.log) = []
  atMostOnce : ∀ k, (responses (project k c.log)).length ≤ 1
  finishes : c.shared.terminated = false → ∀ k, 4 ≤ turns k schedule → c.rest k = .pure ()
  answered : c.shared.terminated = false → ∀ k, c.rest k = .pure () →
    (responses (project k c.log)).length = due (requests k) (project k c.log)

theorem serve_stands (requests : ι → Request) (schedule : List (ι × Outcomes BackendType Json)) (k : ι) :
    ∃ s s', Stands provider (requests k) s (project k (provider.serve requests schedule).log)
      ((provider.serve requests schedule).rest k) s' := by
  obtain ⟨order, hOrder⟩ := provider_serializable provider requests schedule
  by_cases hMem : k ∈ order
  · obtain ⟨s, s', hPerforms⟩ := hOrder.performs.chain.of_mem hMem
    exact ⟨s, s', handler_stands _ ⟨hOrder.own k, hPerforms⟩⟩
  · -- a handler that has done nothing
    have hNone : project k (provider.serve requests schedule).log = [] := by
      by_contra hSome
      exact hMem ((hOrder.everyone k).mpr hSome)
    refine ⟨fun _ => none, fun _ => none, handler_stands _ ⟨hOrder.own k, ?_⟩⟩
    rw [hNone]
    exact .nil _

theorem serve_answered (requests : ι → Request) (schedule : List (ι × Outcomes BackendType Json))
    (hLive : (provider.serve requests schedule).shared.terminated = false) (k : ι)
    (hDone : (provider.serve requests schedule).rest k = .pure ()) :
    (responses (project k (provider.serve requests schedule).log)).length =
      due (requests k) (project k (provider.serve requests schedule).log) := by
  refine serve_answeredDue provider requests schedule hDone fun e hMem => ?_
  exact (serve_served provider requests schedule).not_fatal hLive ((mem_project k e _).mp hMem)

theorem handlers_progress (provider : ProviderImpl BackendType Json) (requests : ι → Request)
    (schedule : List (ι × Outcomes BackendType Json)) :
    Progresses requests schedule (provider.serve requests schedule) := by
  constructor
  · intro k hUnfinished
    obtain ⟨_, _, hStands⟩ := serve_stands provider requests schedule k
    cases hStands with
    | finished hDone => exact absurd hDone (hUnfinished ())
    | pending _ hNone => exact hNone
  · intro k
    obtain ⟨_, _, hStands⟩ := serve_stands provider requests schedule k
    cases hStands with
    | finished _ hServes => exact hServes.at_most_one
    | pending _ hNone => simp [hNone]
  · intro hLive k hTurns
    obtain ⟨value, hDone⟩ := Machine.run_finished (m := provider.machine) k schedule
      ⟨.empty, fun k => provider.handler (requests k), []⟩
      (handler_ends provider (requests k)).within hTurns hLive
    exact hDone
  · exact serve_answered provider requests schedule

/-- With the mutex: whoever waits for it gets it. Once every handler has been scheduled in as many
rounds, in whatever order, all requests are through and answered as they are due, unless the process
has ended. -/
theorem requests_finish [Fintype ι] (provider : ProviderImpl BackendType Json) (requests : ι → Request)
    (rounds : List (List (ι × Outcomes BackendType Json)))
    (hFair : ∀ round ∈ rounds, ∀ k, ∃ world, (k, world) ∈ round)
    (hEnough : 24 * Fintype.card ι ≤ rounds.length) :
    (provider.serveLocked requests rounds.flatten).shared.terminated = true ∨
      ∀ k, (provider.serveLocked requests rounds.flatten).stage k = .outside (.pure ()) ∧
        (responses (project k (provider.serveLocked requests rounds.flatten).log)).length =
          due (requests k) (project k (provider.serveLocked requests rounds.flatten).log) := by
  cases hLive : (provider.serveLocked requests rounds.flatten).shared.terminated with
  | true => exact .inl rfl
  | false =>
    right
    -- four actions, each with the mutex taken and released around four accesses
    have hLeft : (LockConfig.start (fun k => provider.handler (requests k)) (.of .empty) :
        LockConfig ι Entries (Action Json) Access Answer AccessAnswer Unit).Left 4
          (24 * Fintype.card ι) := by
      refine ⟨fun _ => 24, fun k => ⟨4, (handler_ends provider (requests k)).within, le_rfl⟩, ?_⟩
      simp [Nat.mul_comm]
    have hDone : ∀ k, ((provider.serveLocked requests rounds.flatten).stage k).Finished := by
      refine (provider.sections.rounds_finish (fun _ _ => block_within) hLeft nofun rounds hFair
        hEnough).resolve_left fun hHalts => ?_
      cases hLive.symm.trans hHalts
    obtain ⟨schedule, hSimulates⟩ := (sections_implement provider).simulates
      (fun k => provider.handler (requests k)) .empty rounds.flatten
    intro k
    obtain ⟨value, hOutside⟩ := hDone k
    refine ⟨hOutside, ?_⟩
    have hRest : (provider.serve requests schedule).rest k = .pure () := by
      refine (hSimulates.rest_eq k).trans ?_
      rw [← ProviderImpl.serveLocked, hOutside]
      rfl
    rw [ProviderImpl.serveLocked, ← hSimulates.log]
    exact serve_answered provider requests schedule
      (hSimulates.live (sections_implement provider) hLive) k hRest

end Runs

def helloAndCheck : Bool → Request := fun k => if k then .sayHello .cleared else .checkSequencer .cleared

def eachOnce : List (Bool × Outcomes RegisteredBackend Unit) :=
  [(true, DummySequencer.outcomes .cleared 0), (false, DummySequencer.outcomes .cleared 0)]

theorem helloAndCheck_finish :
    ((dummyProvider "").serveLocked helloAndCheck (List.replicate 48 eachOnce).flatten).shared.terminated
        = true ∨
      ∀ k, ((dummyProvider "").serveLocked helloAndCheck (List.replicate 48 eachOnce).flatten).stage k
          = .outside (.pure ()) ∧
        (responses (project k
          ((dummyProvider "").serveLocked helloAndCheck (List.replicate 48 eachOnce).flatten).log)).length =
          due (helloAndCheck k) (project k
            ((dummyProvider "").serveLocked helloAndCheck (List.replicate 48 eachOnce).flatten).log) :=
  requests_finish (dummyProvider "") helloAndCheck (List.replicate 48 eachOnce)
    (fun round hMem k => by
      rw [List.eq_of_mem_replicate hMem]
      exact ⟨DummySequencer.outcomes .cleared 0, by cases k <;> simp [eachOnce]⟩)
    (by simp)

end Mobject
