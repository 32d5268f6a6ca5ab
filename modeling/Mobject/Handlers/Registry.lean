import Mobject.Handlers.Log

/-! # The registry over whole runs

Any number of handlers run interleaved from an empty `m_backends`. `Effect` lists what one step
can do to the registry; from it follow the invariants that tie `m_backends` to the log.
-/
namespace Mobject
open Interleaving Lifetimes
set_option autoImplicit false

variable {BackendType Json ι : Type}

abbrev Log (ι Json : Type) := List (ι × Event (@Answer Json))

inductive Effect (s : Registry) : Event (@Answer Json) → Registry → Prop
  | inserts (sequencer_id : UUID) (backend : BackendId) :
      Effect s ⟨.insert sequencer_id backend, ()⟩ (s.bind sequencer_id backend)
  | makes (map : FactoryMap) (name : String) (config : Json) :
      Effect s ⟨.factory map name config, .backend s.made⟩ s.allocate
  | finds (sequencer_id : UUID) (notFound : Response) :
      Effect s ⟨.find sequencer_id notFound, s.m_backends sequencer_id⟩ s
  | closes (sequencer_id : UUID) (notFound : Response) (backend : BackendId) :
      s.m_backends sequencer_id = some backend →
      Effect s ⟨.close sequencer_id notFound, true⟩ (s.erase sequencer_id)
  | closeMisses (sequencer_id : UUID) (notFound : Response) : s.m_backends sequencer_id = none →
      Effect s ⟨.close sequencer_id notFound, false⟩ s
  | destroys (sequencer_id : UUID) (notFound : Response) (backend : BackendId)
      (result : RequestResultBool) : s.m_backends sequencer_id = some backend →
      Effect s ⟨.destroy sequencer_id notFound, .called backend result⟩ (s.erase sequencer_id)
  | destroyThrows (sequencer_id : UUID) (notFound : Response) (backend : BackendId) (what : String) :
      s.m_backends sequencer_id = some backend →
      Effect s ⟨.destroy sequencer_id notFound, .threw backend what⟩ s.terminate
  | destroyMisses (sequencer_id : UUID) (notFound : Response) : s.m_backends sequencer_id = none →
      Effect s ⟨.destroy sequencer_id notFound, .notFound⟩ s
  | other (e : Event (@Answer Json)) (s' : Registry) : Event.inserted e = none →
      Event.made e = none → Event.found e = none → Event.removal e = none →
      s'.m_backends = s.m_backends → s'.made = s.made →
      (s'.terminated = false → s.terminated = false) → Effect s e s'

variable (provider : ProviderImpl BackendType Json)

theorem afterCall_effect {α : Type} (s : Registry) (e : Event (@Answer Json)) (result : MethodResult α)
    (hInserted : Event.inserted e = none) (hMade : Event.made e = none)
    (hFound : Event.found e = none) (hRemoval : Event.removal e = none) :
    Effect s e (s.afterCall result) := by
  cases result with
  | returned value => exact .other _ _ hInserted hMade hFound hRemoval rfl rfl id
  | threw what => exact .other _ _ hInserted hMade hFound hRemoval rfl rfl (by simp [Registry.afterCall])

theorem perform_effect (a : Action Json) (world : Outcomes BackendType Json) (s : Registry) :
    Effect s ⟨a, (provider.perform a world s).1⟩ (provider.perform a world s).2 := by
  cases a with
  | generate | uninitialised | respond => exact .other _ _ rfl rfl rfl rfl rfl rfl id
  | escape what => exact .other _ _ rfl rfl rfl rfl rfl rfl (by simp [ProviderImpl.perform])
  | factory map name config =>
    cases hFactory : provider.factory.sequencer map name config world with
    | backend =>
      simp only [ProviderImpl.perform, hFactory]
      exact .makes map name config
    | nullptr | exception =>
      simp only [ProviderImpl.perform, hFactory]
      exact .other _ _ rfl rfl rfl rfl rfl rfl id
  | insert sequencer_id backend => exact .inserts sequencer_id backend
  | find sequencer_id notFound => exact .finds sequencer_id notFound
  | close sequencer_id notFound =>
    cases hFind : s.m_backends sequencer_id with
    | none =>
      simp only [ProviderImpl.perform, hFind]
      exact .closeMisses sequencer_id notFound hFind
    | some backend =>
      simp only [ProviderImpl.perform, hFind]
      exact .closes sequencer_id notFound backend hFind
  | destroy sequencer_id notFound =>
    cases hFind : s.m_backends sequencer_id with
    | none =>
      simp only [ProviderImpl.perform, hFind]
      exact .destroyMisses sequencer_id notFound hFind
    | some backend =>
      cases hDestroy : world.destroy backend with
      | returned result =>
        simp only [ProviderImpl.perform, hFind, hDestroy]
        exact .destroys sequencer_id notFound backend result hFind
      | threw what =>
        simp only [ProviderImpl.perform, hFind, hDestroy]
        exact .destroyThrows sequencer_id notFound backend what hFind
  | sayHello sequencer => exact afterCall_effect s _ _ rfl rfl rfl rfl
  | computeSum sequencer x y => exact afterCall_effect s _ _ rfl rfl rfl rfl

theorem perform_fatal {a : Action Json} {world : Outcomes BackendType Json} {s : Registry}
    (h : Event.fatal ⟨a, (provider.perform a world s).1⟩ = true) :
    (provider.perform a world s).2.terminated = true := by
  cases a with
  | generate | uninitialised | factory | insert | find | close | respond => cases h
  | destroy u notFound =>
    cases hFind : s.m_backends u with
    | none => simp [ProviderImpl.perform, hFind, Event.fatal] at h
    | some backend =>
      cases hDestroy : world.destroy backend <;>
        simp_all [ProviderImpl.perform, Event.fatal]
  | sayHello sequencer =>
    cases hResult : world.sayHello sequencer <;>
      simp_all [ProviderImpl.perform, Registry.afterCall, Event.fatal]
  | computeSum sequencer x y =>
    cases hResult : world.computeSum sequencer x y <;>
      simp_all [ProviderImpl.perform, Registry.afterCall, Event.fatal]
  | escape what => rfl

/-- The ids in the registry, as the log tells it: in when inserted, out when erased. -/
def ids (log : Log ι Json) : Set UUID :=
  live (fun e => Event.insertedId e.2) (fun e => Event.erased e.2) log

/-- The backends that were inserted and on which `destroy()` was not called since. -/
def undestroyed (log : Log ι Json) : Set BackendId :=
  live (fun e => Event.insertedBackend e.2) (fun e => Event.destroyedBackend e.2) log

@[simp] theorem mem_ids_concat (log : Log ι Json) (e : ι × Event (@Answer Json)) (sequencer_id : UUID) :
    sequencer_id ∈ ids (log ++ [e]) ↔ Event.insertedId e.2 = some sequencer_id ∨
      sequencer_id ∈ ids log ∧ Event.erased e.2 ≠ some sequencer_id := by
  simp [ids]

@[simp] theorem mem_undestroyed_concat (log : Log ι Json) (e : ι × Event (@Answer Json))
    (backend : BackendId) :
    backend ∈ undestroyed (log ++ [e]) ↔ Event.insertedBackend e.2 = some backend ∨
      backend ∈ undestroyed log ∧ Event.destroyedBackend e.2 ≠ some backend := by
  simp [undestroyed]

/-- `UUID::generate` never draws an id twice. -/
def FreshDraws (log : Log ι Json) : Prop := EntersOnce (fun e => Event.drawn e.2) log

instance (log : Log ι Json) : Decidable (FreshDraws log) :=
  inferInstanceAs (Decidable (EntersOnce _ log))

def MadeBelow (s : Registry) (log : Log ι Json) : Prop :=
  ∀ e ∈ log, ∀ backend, Event.made e.2 = some backend → backend < s.made

theorem Effect.made_below {s s' : Registry} {log : Log ι Json} {e : Event (@Answer Json)}
    (hEffect : Effect s e s') (ih : MadeBelow s log) (k : ι) : MadeBelow s' (log ++ [(k, e)]) := by
  intro e' hMem backend hMade
  rcases List.mem_append.mp hMem with hOld | hNew
  · have hLt := ih e' hOld backend hMade
    cases hEffect with
    | makes => exact Nat.lt_succ_of_lt hLt
    | other _ _ _ _ _ _ _ hSame => rwa [hSame]
    | inserts | finds | closes | closeMisses | destroys | destroyThrows | destroyMisses => exact hLt
  · rw [List.mem_singleton.mp hNew] at hMade
    cases hEffect with
    | makes => cases hMade; exact Nat.lt_succ_self _
    | other _ _ _ hNone => rw [hNone] at hMade; cases hMade
    | inserts | finds | closes | closeMisses | destroys | destroyThrows | destroyMisses =>
      cases hMade

structure Consistent (s : Registry) (log : Log ι Json) : Prop where
  keys : ∀ sequencer_id, sequencer_id ∈ ids log ↔ (s.m_backends sequencer_id).isSome = true
  inserted : ∀ sequencer_id backend, s.m_backends sequencer_id = some backend →
    ∃ e ∈ log, Event.inserted e.2 = some (sequencer_id, backend)
  intact : s.terminated = false → ∀ sequencer_id backend,
    s.m_backends sequencer_id = some backend → backend ∈ undestroyed log

section Step
variable {s s' : Registry} {log : Log ι Json} {e : Event (@Answer Json)}

theorem Consistent.injective (h : Consistent s log)
    (hOnce : EntersOnce (fun e => Event.insertedBackend e.2) log) {u v : UUID} {backend : BackendId}
    (hu : s.m_backends u = some backend) (hv : s.m_backends v = some backend) : u = v := by
  obtain ⟨a, hMemA, hA⟩ := h.inserted u backend hu
  obtain ⟨b, hMemB, hB⟩ := h.inserted v backend hv
  have hA' : Event.insertedBackend a.2 = some backend := by simp [Event.insertedBackend, hA]
  have hB' : Event.insertedBackend b.2 = some backend := by simp [Event.insertedBackend, hB]
  rw [hOnce.eq hMemA hMemB hA' hB', hB] at hA
  exact (Prod.mk.inj (Option.some.inj hA)).1.symm

theorem Effect.keys (hEffect : Effect s e s') (ih : Consistent s log) (k : ι) (u : UUID) :
    u ∈ ids (log ++ [(k, e)]) ↔ (s'.m_backends u).isSome = true := by
  rw [mem_ids_concat, ih.keys u]
  cases hEffect with
  | inserts v | closes v | destroys v =>
    by_cases hu : u = v
    · subst hu
      simp_all [Event.insertedId, Event.inserted, Event.erased]
    · simp [Event.insertedId, Event.inserted, Event.erased, Function.update_of_ne hu, Ne.symm hu]
  | other _ _ hInserted _ _ hRemoval hSame =>
    simp [Event.insertedId, hInserted, Event.erased_eq_none hRemoval, hSame]
  | makes | finds | closeMisses | destroyThrows | destroyMisses =>
    simp [Event.insertedId, Event.inserted, Event.erased]

theorem Effect.bound (hEffect : Effect s e s') {u : UUID} {backend : BackendId}
    (hBound : s'.m_backends u = some backend) :
    Event.inserted e = some (u, backend) ∨
      s.m_backends u = some backend ∧ Event.erased e ≠ some u := by
  cases hEffect with
  | inserts v | closes v | destroys v =>
    by_cases hu : u = v
    · subst hu
      simp_all [Event.inserted]
    · exact .inr ⟨by simpa [Function.update_of_ne hu] using hBound,
        by simp [Event.erased, Ne.symm hu]⟩
  | other _ _ _ _ _ hRemoval hSame =>
    exact .inr ⟨hSame ▸ hBound, by simp [Event.erased_eq_none hRemoval]⟩
  | makes | finds | closeMisses | destroyThrows | destroyMisses =>
    exact .inr ⟨hBound, by simp [Event.erased]⟩

theorem Effect.inserted (hEffect : Effect s e s') (ih : Consistent s log) (k : ι) (u : UUID)
    (backend : BackendId) (hBound : s'.m_backends u = some backend) :
    ∃ e' ∈ log ++ [(k, e)], Event.inserted e'.2 = some (u, backend) := by
  rcases hEffect.bound hBound with hNew | ⟨hOld, _⟩
  · exact ⟨(k, e), by simp, hNew⟩
  · obtain ⟨e', hMem, hInserted⟩ := ih.inserted u backend hOld
    exact ⟨e', List.mem_append_left _ hMem, hInserted⟩

theorem Effect.destroyed (hEffect : Effect s e s') {u : UUID} {backend : BackendId}
    (hDestroyed : Event.destroyed e = some (u, backend)) :
    s.m_backends u = some backend ∧ (Event.erased e = some u ∨ s'.terminated = true) := by
  cases hEffect with
  | destroys _ _ _ _ hFind => cases hDestroyed; exact ⟨hFind, .inl rfl⟩
  | destroyThrows _ _ _ _ hFind => cases hDestroyed; exact ⟨hFind, .inr rfl⟩
  | other _ _ _ _ _ hRemoval => rw [Event.destroyed_eq_none hRemoval] at hDestroyed; cases hDestroyed
  | inserts | makes | finds | closes | closeMisses | destroyMisses => cases hDestroyed

theorem Effect.erased (hEffect : Effect s e s') {u : UUID} (hErased : Event.erased e = some u) :
    ∃ backend, s.m_backends u = some backend := by
  cases hEffect with
  | closes _ _ backend hFind => cases hErased; exact ⟨backend, hFind⟩
  | destroys _ _ backend _ hFind => cases hErased; exact ⟨backend, hFind⟩
  | other _ _ _ _ _ hRemoval => rw [Event.erased_eq_none hRemoval] at hErased; cases hErased
  | inserts | makes | finds | closeMisses | destroyThrows | destroyMisses => cases hErased

theorem Effect.found (hEffect : Effect s e s') {u : UUID} {sequencer : Option BackendId}
    (hFound : Event.found e = some (u, sequencer)) : s.m_backends u = sequencer := by
  cases hEffect with
  | finds => cases hFound; rfl
  | other _ _ _ _ hNone => rw [hNone] at hFound; cases hFound
  | inserts | makes | closes | closeMisses | destroys | destroyThrows | destroyMisses => cases hFound

theorem Effect.missed_iff (hEffect : Effect s e s') {u : UUID} (hLookup : Event.lookedUp e = some u) :
    Event.missed e = some u ↔ s.m_backends u = none := by
  cases hEffect with
  | finds =>
    cases hLookup
    cases hFind : s.m_backends u <;> simp [Event.missed]
  | closes _ _ _ hFind => cases hLookup; simp [Event.missed, hFind]
  | destroys _ _ _ _ hFind => cases hLookup; simp [Event.missed, hFind]
  | destroyThrows _ _ _ _ hFind => cases hLookup; simp [Event.missed, hFind]
  | closeMisses _ _ hFind => cases hLookup; simp [Event.missed, hFind]
  | destroyMisses _ _ hFind => cases hLookup; simp [Event.missed, hFind]
  | other _ _ _ _ hFound hRemoval =>
    rw [Event.lookedUp_eq_none hFound hRemoval] at hLookup
    cases hLookup
  | inserts | makes => cases hLookup

theorem Effect.terminated (hEffect : Effect s e s') (h : s'.terminated = false) :
    s.terminated = false := by
  cases hEffect with
  | other _ _ _ _ _ _ _ _ hLive => exact hLive h
  | inserts | makes | finds | closes | closeMisses | destroys | destroyMisses => exact h
  | destroyThrows => cases h

theorem Effect.intact (hEffect : Effect s e s') (ih : Consistent s log)
    (hOnce : EntersOnce (fun e => Event.insertedBackend e.2) log) (k : ι)
    (hLive : s'.terminated = false) (u : UUID) (backend : BackendId)
    (hBound : s'.m_backends u = some backend) : backend ∈ undestroyed (log ++ [(k, e)]) := by
  rw [mem_undestroyed_concat]
  rcases hEffect.bound hBound with hNew | ⟨hOld, hKept⟩
  · exact .inl (by simp [Event.insertedBackend, hNew])
  · refine .inr ⟨ih.intact (hEffect.terminated hLive) u backend hOld, fun hDestroyed => ?_⟩
    obtain ⟨⟨v, _⟩, hPair, rfl⟩ := Option.map_eq_some_iff.mp hDestroyed
    -- the block erased `v`, and `u` is bound to the same backend, so `u` is `v`
    obtain ⟨hBoundV, hErased | hDead⟩ := hEffect.destroyed hPair
    · exact hKept (ih.injective hOnce hBoundV hOld ▸ hErased)
    · rw [hLive] at hDead
      cases hDead

end Step

section Runs
variable [DecidableEq ι]

def Served (requests : ι → Request) : Registry → Log ι Json → Prop :=
  Reaches provider.machine (fun k => provider.handler (requests k)) .empty

/-- The provider serving these requests from an empty registry, in the order of the schedule. -/
def ProviderImpl.serve (requests : ι → Request) (schedule : List (ι × Outcomes BackendType Json)) :
    Config ι Registry (Action Json) Answer Unit :=
  provider.machine.run ⟨.empty, fun k => provider.handler (requests k), []⟩ schedule

theorem serve_served (requests : ι → Request) (schedule : List (ι × Outcomes BackendType Json)) :
    Served provider requests (provider.serve requests schedule).shared
      (provider.serve requests schedule).log :=
  (provider.machine.run_reaches _ _ schedule).1

/-- What a handler has done is a way through its program to where it stands. -/
theorem serve_path (requests : ι → Request) (schedule : List (ι × Outcomes BackendType Json)) (k : ι) :
    Path (provider.handler (requests k)) (project k (provider.serve requests schedule).log)
      ((provider.serve requests schedule).rest k) :=
  (provider.machine.run_reaches (fun k => provider.handler (requests k)) .empty schedule).2 k

variable {provider} {requests : ι → Request} {s : Registry} {log : Log ι Json}

theorem Served.split (h : Served provider requests s log) {pre post : Log ι Json} {k : ι}
    {e : Event (@Answer Json)} (hLog : log = pre ++ (k, e) :: post) :
    ∃ t t', Served provider requests t pre ∧ t.terminated = false ∧ Effect t e t' ∧
      Guarded provider (requests k) (project k pre) e.1 := by
  obtain ⟨t, world, next, hReach, hLive, hPath, hAnswer⟩ := Reaches.split _ h pre post k e hLog
  refine ⟨t, (provider.perform e.1 world t).2, hReach, hLive, ?_, ?_⟩
  · have hEffect := perform_effect provider e.1 world t
    rwa [show (provider.perform e.1 world t).1 = e.2 from hAnswer.symm] at hEffect
  · simpa using hPath.along [] (handler_guarded provider (requests k))

/-- As long as the process lives, no exception has left a handler. -/
theorem Served.not_fatal (h : Served provider requests s log) (hLive : s.terminated = false)
    {e : ι × Event (@Answer Json)} (hMem : e ∈ log) : Event.fatal e.2 = false := by
  obtain ⟨world, t, hAnswer, hAfter⟩ := Reaches.survived h hLive e hMem
  obtain ⟨k, a, answer⟩ := e
  obtain rfl : answer = (provider.perform a world t).1 := hAnswer
  by_contra hFatal
  have hEnded : (provider.perform a world t).2.terminated = false := hAfter
  rw [perform_fatal provider (by simpa using hFatal)] at hEnded
  cases hEnded

theorem Served.induct {I : Registry → Log ι Json → Prop} (hInit : I .empty [])
    (hStep : ∀ s s' log k e, Served provider requests s log → I s log → s.terminated = false →
      Effect s e s' → Guarded provider (requests k) (project k log) e.1 → I s' (log ++ [(k, e)]))
    (h : Served provider requests s log) : I s log := by
  induction h with
  | init => exact hInit
  | @step s log k a next world hReach hLive hPath ih =>
    have hGuarded := hPath.along [] (handler_guarded provider (requests k))
    exact hStep s _ log k _ hReach ih hLive (perform_effect provider a world s) (by simpa using hGuarded)

theorem Served.made_below (h : Served provider requests s log) : MadeBelow s log :=
  h.induct (by simp [MadeBelow]) fun _ _ _ k _ _ ih _ hEffect _ => hEffect.made_below ih k

theorem Served.made_once (h : Served provider requests s log) :
    EntersOnce (fun e => Event.made e.2) log := by
  refine fun backend => pairwise_of_split fun pre ⟨k, e⟩ post hLog a hMem => ?_
  rintro ⟨hFirst, hSecond⟩
  have hSecond : Event.made e = some backend := hSecond
  obtain ⟨t, t', hBefore, _, hEffect, _⟩ := h.split hLog
  have hLt := hBefore.made_below a hMem backend hFirst
  cases hEffect with
  | makes => cases hSecond; exact Nat.lt_irrefl _ hLt
  | other _ _ _ hNone => rw [hNone] at hSecond; cases hSecond
  | inserts | finds | closes | closeMisses | destroys | destroyThrows | destroyMisses =>
    cases hSecond

theorem Served.inserted_from (h : Served provider requests s log) {pre post : Log ι Json} {k : ι}
    {e : Event (@Answer Json)} (hLog : log = pre ++ (k, e) :: post) {sequencer_id : UUID}
    {backend : BackendId} (hInserted : Event.inserted e = some (sequencer_id, backend)) :
    (∃ e', (k, e') ∈ pre ∧ Event.drawn e' = some sequencer_id) ∧
      (∃ e', (k, e') ∈ pre ∧ Event.made e' = some backend) ∧
      ∀ e', (k, e') ∈ pre → Event.inserted e' = none := by
  obtain ⟨t, t', _, _, hEffect, hGuarded⟩ := h.split hLog
  cases hEffect with
  | inserts =>
    cases hInserted
    simpa [Guarded] using hGuarded
  | other _ _ hNone => rw [hNone] at hInserted; cases hInserted
  | makes | finds | closes | closeMisses | destroys | destroyThrows | destroyMisses =>
    cases hInserted

theorem Served.backend_once (h : Served provider requests s log) :
    EntersOnce (fun e => Event.insertedBackend e.2) log := by
  apply h.made_once.passed_on
  intro pre k e post backend hLog hInserted
  obtain ⟨⟨sequencer_id, _⟩, hPair, rfl⟩ := Option.map_eq_some_iff.mp hInserted
  obtain ⟨_, hMade, hNone⟩ := h.inserted_from hLog hPair
  exact ⟨hMade, fun e' hMem => by simp [Event.insertedBackend, hNone e' hMem]⟩

theorem Served.id_once (h : Served provider requests s log) (hFresh : FreshDraws log) :
    EntersOnce (fun e => Event.insertedId e.2) log := by
  apply EntersOnce.passed_on hFresh
  intro pre k e post sequencer_id hLog hInserted
  obtain ⟨⟨_, backend⟩, hPair, rfl⟩ := Option.map_eq_some_iff.mp hInserted
  obtain ⟨hDrawn, _, hNone⟩ := h.inserted_from hLog hPair
  exact ⟨hDrawn, fun e' hMem => by simp [Event.insertedId, hNone e' hMem]⟩

theorem Served.consistent (h : Served provider requests s log) : Consistent s log := by
  refine h.induct ⟨by simp [ids, Registry.empty], by simp [Registry.empty],
    by simp [Registry.empty]⟩ fun s s' log k e hBefore ih hLive hEffect _ => ⟨?_, ?_, ?_⟩
  · exact hEffect.keys ih k
  · exact hEffect.inserted ih k
  · exact hEffect.intact ih hBefore.backend_once k

end Runs

end Mobject
