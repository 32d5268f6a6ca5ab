import Mobject.DummyBackend
import Mobject.Handlers.Ends

/-! # The registry is linearizable, and how long a backend is in use

The linearization point of a request is its one locked block. Over any run, what the block
answers, whether it erases the id and what a success response promises follow from the set `ids`
at that point.
-/
namespace Mobject
open Interleaving Lifetimes
set_option autoImplicit false

variable {BackendType Json ι : Type} [DecidableEq ι] {provider : ProviderImpl BackendType Json}
  {requests : ι → Request} {s : Registry} {log : Log ι Json}

/-- The locked block of an accepted close or destroy request for this id. -/
def RemovalBlock (provider : ProviderImpl BackendType Json) (requests : ι → Request)
    (sequencer_id : UUID) (e : ι × Event (@Answer Json)) : Prop :=
  AuthorisedRemoval provider (requests e.1) sequencer_id ∧ Event.removal e.2 = some sequencer_id

def respondUUID (result : RequestResult UUID) : Event (@Answer Json) := ⟨.respond (.uuid result), ()⟩

structure Linearizable (provider : ProviderImpl BackendType Json) (requests : ι → Request)
    (c : Config ι Registry (Action Json) Answer Unit) : Prop where
  keys : ∀ sequencer_id, sequencer_id ∈ ids c.log ↔ (c.shared.m_backends sequencer_id).isSome = true
  returned : ∀ pre k result post, c.log = pre ++ (k, respondUUID result) :: post →
    result.success = true → ∃ before e after, pre = before ++ (k, e) :: after ∧
      Event.insertedId e = some result.value ∧
      ∀ mid rest, after ++ (k, respondUUID result) :: post = mid ++ rest →
        (∀ e' ∈ mid, ¬ RemovalBlock provider requests result.value e') →
        result.value ∈ ids (before ++ (k, e) :: mid)
  erasedOnce : ∀ sequencer_id, c.log.Pairwise fun e e' =>
    ¬ (Event.erased e.2 = some sequencer_id ∧ Event.erased e'.2 = some sequencer_id)
  destroyedOnce : ∀ backend, c.log.Pairwise fun e e' =>
    ¬ (Event.destroyedBackend e.2 = some backend ∧ Event.destroyedBackend e'.2 = some backend)
  notAfterClose : ∀ sequencer_id backend,
    (∃ e ∈ c.log, Event.inserted e.2 = some (sequencer_id, backend)) → c.log.Pairwise fun e e' =>
      ¬ (Event.closed e.2 = some sequencer_id ∧ Event.destroyedBackend e'.2 = some backend)
  answered : ∀ pre e post sequencer_id, c.log = pre ++ e :: post →
    Event.lookedUp e.2 = some sequencer_id →
    (Event.missed e.2 = some sequencer_id ↔ sequencer_id ∉ ids pre)
  bound : ∀ pre e post sequencer_id backend, c.log = pre ++ e :: post →
    (Event.found e.2 = some (sequencer_id, some backend) ∨
      Event.destroyed e.2 = some (sequencer_id, backend)) →
    ∃ e' ∈ pre, Event.inserted e'.2 = some (sequencer_id, backend)
  /-- What an accepted request is told follows from the ids at its own locked block. -/
  told : ∀ pre k e post response sequencer_id, c.log = pre ++ (k, e) :: post →
    Event.response e = some response → Accepted provider (requests k) →
    (requests k).sequencer_id = some sequencer_id →
    ∃ before e' after, pre ++ [(k, e)] = before ++ (k, e') :: after ∧
      Event.lookedUp e' = some sequencer_id ∧
      (sequencer_id ∉ ids before → response.success = false) ∧
      (sequencer_id ∈ ids before → Told (requests k) (project k pre) e' response)
  /-- The locked block of a close or destroy request takes its id out where it is in, unless
  `destroy()` throws. -/
  removes : ∀ pre k e post sequencer_id, c.log = pre ++ (k, e) :: post →
    (requests k).removes = some sequencer_id → Event.lookedUp e = some sequencer_id →
    sequencer_id ∈ ids pre → Event.fatal e = false →
    Event.erased e = some sequencer_id ∧ sequencer_id ∉ ids (pre ++ [(k, e)])
  removed : ∀ e ∈ c.log, ∀ sequencer_id, Event.erased e.2 = some sequencer_id →
    RemovalBlock provider requests sequencer_id e
  /-- A finished handler has responded as often as it is to, unless an exception left it. -/
  answeredDue : ∀ k, c.rest k = .pure () → AnsweredDue (requests k) (project k c.log)

theorem Served.erased_needs (h : Served provider requests s log) :
    NeedsLive (fun e => Event.insertedId e.2) (fun e => Event.erased e.2)
      (fun e => Event.erased e.2) log := by
  rintro pre ⟨k, e⟩ post sequencer_id hLog hErased
  obtain ⟨t, t', hBefore, _, hEffect, _⟩ := h.split hLog
  obtain ⟨backend, hBound⟩ := hEffect.erased hErased
  exact (hBefore.consistent.keys sequencer_id).mpr (by simp [hBound])

theorem Served.destroyed_needs (h : Served provider requests s log) :
    NeedsLive (fun e => Event.insertedId e.2) (fun e => Event.erased e.2)
      (fun e => (Event.destroyed e.2).map Prod.fst) log := by
  rintro pre ⟨k, e⟩ post sequencer_id hLog hDestroyed
  obtain ⟨⟨_, backend⟩, hPair, rfl⟩ := Option.map_eq_some_iff.mp hDestroyed
  obtain ⟨t, t', hBefore, _, hEffect, _⟩ := h.split hLog
  exact (hBefore.consistent.keys _).mpr (by simp [(hEffect.destroyed hPair).1])

theorem Served.destroyedBackend_needs (h : Served provider requests s log) :
    NeedsLive (fun e => Event.insertedBackend e.2) (fun e => Event.destroyedBackend e.2)
      (fun e => Event.destroyedBackend e.2) log := by
  rintro pre ⟨k, e⟩ post backend hLog hDestroyed
  obtain ⟨⟨sequencer_id, _⟩, hPair, rfl⟩ := Option.map_eq_some_iff.mp hDestroyed
  obtain ⟨t, t', hBefore, hLive, hEffect, _⟩ := h.split hLog
  exact hBefore.consistent.intact hLive sequencer_id _ (hEffect.destroyed hPair).1

theorem Served.removal_authorised (h : Served provider requests s log) {e : ι × Event (@Answer Json)}
    (hMem : e ∈ log) {sequencer_id : UUID} (hErased : Event.erased e.2 = some sequencer_id) :
    RemovalBlock provider requests sequencer_id e := by
  obtain ⟨k, e⟩ := e
  obtain ⟨pre, post, hLog⟩ := List.append_of_mem hMem
  obtain ⟨t, t', _, _, hEffect, hGuarded⟩ := h.split hLog
  cases hEffect with
  | closes | destroys => cases hErased; exact ⟨hGuarded.1, rfl⟩
  | other _ _ _ _ _ hRemoval => rw [Event.erased_eq_none hRemoval] at hErased; cases hErased
  | inserts | makes | finds | closeMisses | destroyThrows | destroyMisses => cases hErased

theorem Served.returned (h : Served provider requests s log) (pre : Log ι Json) (k : ι)
    (result : RequestResult UUID) (post : Log ι Json)
    (hLog : log = pre ++ (k, respondUUID result) :: post) (hSuccess : result.success = true) :
    ∃ before e after, pre = before ++ (k, e) :: after ∧ Event.insertedId e = some result.value ∧
      ∀ mid rest, after ++ (k, respondUUID result) :: post = mid ++ rest →
        (∀ e' ∈ mid, ¬ RemovalBlock provider requests result.value e') →
        result.value ∈ ids (before ++ (k, e) :: mid) := by
  obtain ⟨_, _, _, _, _, hGuarded⟩ := h.split hLog
  obtain ⟨backend, e, hMem, hInserted⟩ := hGuarded.1 result rfl hSuccess
  obtain ⟨before, after, hPre⟩ := List.append_of_mem ((mem_project k e pre).mp hMem)
  have hEnter : Event.insertedId e = some result.value := by simp [Event.insertedId, hInserted]
  refine ⟨before, e, after, hPre, hEnter, fun mid rest hMid hNone => ?_⟩
  refine live_of_enters hEnter fun e' hMem' hErased => hNone e' hMem' ?_
  refine h.removal_authorised ?_ hErased
  have hWhole : log = before ++ (k, e) :: (mid ++ rest) := by
    rw [← hMid, hLog, hPre]
    simp
  rw [hWhole]
  exact List.mem_append_right _ (List.mem_cons_of_mem _ (List.mem_append_left _ hMem'))

/-- Under the id it was inserted with, or not at all: that is where a backend is destroyed. -/
theorem Served.destroyed_id (h : Served provider requests s log) {pre post : Log ι Json}
    {e : ι × Event (@Answer Json)} (hLog : log = pre ++ e :: post) {u v : UUID} {backend : BackendId}
    (hInserted : ∃ e ∈ log, Event.inserted e.2 = some (u, backend))
    (hDestroyed : Event.destroyed e.2 = some (v, backend)) : v = u := by
  obtain ⟨k, e⟩ := e
  obtain ⟨t, t', hBefore, _, hEffect, _⟩ := h.split hLog
  obtain ⟨a, hMemA, hA⟩ := hBefore.consistent.inserted v backend (hEffect.destroyed hDestroyed).1
  obtain ⟨b, hMemB, hB⟩ := hInserted
  have hA' : Event.insertedBackend a.2 = some backend := by simp [Event.insertedBackend, hA]
  have hB' : Event.insertedBackend b.2 = some backend := by simp [Event.insertedBackend, hB]
  have hSame : a = b := h.backend_once.eq (hLog ▸ List.mem_append_left _ hMemA) hMemB hA' hB'
  rw [hSame, hB] at hA
  exact (Prod.mk.inj (Option.some.inj hA)).1.symm

theorem Served.not_after_close (h : Served provider requests s log) (hFresh : FreshDraws log)
    (sequencer_id : UUID) (backend : BackendId)
    (hInserted : ∃ e ∈ log, Event.inserted e.2 = some (sequencer_id, backend)) :
    log.Pairwise fun e e' =>
      ¬ (Event.closed e.2 = some sequencer_id ∧ Event.destroyedBackend e'.2 = some backend) := by
  have hNever := not_needed_after_left (h.id_once hFresh) h.erased_needs h.destroyed_needs sequencer_id
  apply pairwise_of_split
  intro pre e' post hLog e hMem
  rintro ⟨hClosed, hDestroyed⟩
  obtain ⟨⟨v, _⟩, hPair, rfl⟩ := Option.map_eq_some_iff.mp hDestroyed
  obtain rfl := h.destroyed_id hLog hInserted hPair
  exact Pairwise.of_split hNever hLog hMem
    ⟨Event.erased_of_closed hClosed, by simp [hPair]⟩

theorem Served.answered (h : Served provider requests s log) (pre : Log ι Json)
    (e : ι × Event (@Answer Json)) (post : Log ι Json) (sequencer_id : UUID)
    (hLog : log = pre ++ e :: post) (hLookup : Event.lookedUp e.2 = some sequencer_id) :
    Event.missed e.2 = some sequencer_id ↔ sequencer_id ∉ ids pre := by
  obtain ⟨t, t', hBefore, _, hEffect, _⟩ := h.split hLog
  rw [hEffect.missed_iff hLookup, hBefore.consistent.keys sequencer_id]
  simp

theorem Served.bound (h : Served provider requests s log) (pre : Log ι Json)
    (e : ι × Event (@Answer Json)) (post : Log ι Json) (sequencer_id : UUID) (backend : BackendId)
    (hLog : log = pre ++ e :: post)
    (hRead : Event.found e.2 = some (sequencer_id, some backend) ∨
      Event.destroyed e.2 = some (sequencer_id, backend)) :
    ∃ e' ∈ pre, Event.inserted e'.2 = some (sequencer_id, backend) := by
  obtain ⟨t, t', hBefore, _, hEffect, _⟩ := h.split hLog
  apply hBefore.consistent.inserted sequencer_id backend
  rcases hRead with hFound | hDestroyed
  · exact hEffect.found hFound
  · exact (hEffect.destroyed hDestroyed).1

theorem Served.told (h : Served provider requests s log) (pre : Log ι Json) (k : ι)
    (e : Event (@Answer Json)) (post : Log ι Json) (response : Response) (sequencer_id : UUID)
    (hLog : log = pre ++ (k, e) :: post) (hResponse : Event.response e = some response)
    (hAccepted : Accepted provider (requests k))
    (hNames : (requests k).sequencer_id = some sequencer_id) :
    ∃ before e' after, pre ++ [(k, e)] = before ++ (k, e') :: after ∧
      Event.lookedUp e' = some sequencer_id ∧
      (sequencer_id ∉ ids before → response.success = false) ∧
      (sequencer_id ∈ ids before → Told (requests k) (project k pre) e' response) := by
  obtain ⟨_, _, _, _, _, hGuarded⟩ := h.split hLog
  rcases hGuarded.response hResponse hAccepted hNames with
    ⟨hMissed, hFailure⟩ | ⟨e', hMem, hLookup, hHit, hTold⟩
  · have hLookup := Event.lookedUp_of_missed hMissed
    have hOut := (h.answered pre (k, e) post sequencer_id hLog hLookup).mp hMissed
    exact ⟨pre, e, [], rfl, hLookup, fun _ => hFailure, fun hIn => absurd hIn hOut⟩
  · obtain ⟨before, after, hPre⟩ := List.append_of_mem ((mem_project k e' pre).mp hMem)
    refine ⟨before, e', after ++ [(k, e)], by simp [hPre], hLookup, fun hOut => ?_, fun _ => hTold⟩
    have hSplit : log = before ++ (k, e') :: (after ++ (k, e) :: post) := by simp [hLog, hPre]
    rw [(h.answered before (k, e') _ sequencer_id hSplit hLookup).mpr hOut] at hHit
    cases hHit

theorem Served.removes (h : Served provider requests s log) (pre : Log ι Json) (k : ι)
    (e : Event (@Answer Json)) (post : Log ι Json) (sequencer_id : UUID)
    (hLog : log = pre ++ (k, e) :: post) (hRemoves : (requests k).removes = some sequencer_id)
    (hLookup : Event.lookedUp e = some sequencer_id) (hIn : sequencer_id ∈ ids pre)
    (hFatal : Event.fatal e = false) :
    Event.erased e = some sequencer_id ∧ sequencer_id ∉ ids (pre ++ [(k, e)]) := by
  obtain ⟨_, _, _, _, _, hGuarded⟩ := h.split hLog
  have hRemoval := hGuarded.removal hRemoves hLookup
  have hHit : Event.missed e ≠ some sequencer_id := fun hMissed =>
    (h.answered pre (k, e) post sequencer_id hLog hLookup).mp hMissed hIn
  have hErased := Event.erased_of_removal hRemoval hHit hFatal
  refine ⟨hErased, ?_⟩
  rw [mem_ids_concat, Event.insertedId_of_removal hRemoval]
  rintro (hEnters | ⟨_, hStays⟩)
  · cases hEnters
  · exact hStays hErased

/-- The registry is linearizable: whatever the requests, their interleaving and the answers of
the backends, as long as `UUID::generate` draws no id twice. -/
theorem registry_linearizable (provider : ProviderImpl BackendType Json) (requests : ι → Request)
    (schedule : List (ι × Outcomes BackendType Json))
    (hFresh : FreshDraws (provider.serve requests schedule).log) :
    Linearizable provider requests (provider.serve requests schedule) := by
  have h := serve_served provider requests schedule
  constructor
  · exact h.consistent.keys
  · exact h.returned
  · exact not_needed_after_left (h.id_once hFresh) h.erased_needs h.erased_needs
  · exact not_needed_after_left h.backend_once h.destroyedBackend_needs h.destroyedBackend_needs
  · exact h.not_after_close hFresh
  · exact h.answered
  · exact h.bound
  · exact h.told
  · exact h.removes
  · exact fun e hMem sequencer_id hErased => h.removal_authorised hMem hErased
  · exact fun k hDone => serve_answeredDue provider requests schedule hDone

def sevenRequests : Nat → Request
  | 0 => .createSequencer "" "dummy" "\x7b\x7d"
  | 1 => .computeSum .cleared 1 2
  | 2 => .closeSequencer "" .cleared
  | 3 => .destroySequencer "" .cleared
  | 4 => .openSequencer "" "dummy" "\x7b\x7d"
  | 5 => .destroySequencer "" ⟨.replicate 16 1⟩
  | _ => .checkSequencer .cleared

/-- The sequencer is closed between its lookup and the sum. -/
def closedMeanwhile : List (Nat × Outcomes RegisteredBackend Unit) :=
  [0, 0, 0, 0, 1, 1, 2, 3, 2, 1, 1].map (fun k => (k, DummySequencer.outcomes .cleared 0)) ++
    [4, 6, 4, 4, 4, 5, 5].map fun k => (k, DummySequencer.outcomes ⟨.replicate 16 1⟩ 0)

theorem closedMeanwhile_linearizable :
    ((dummyProvider "").serve sevenRequests closedMeanwhile).log.filterMap
        (fun e => Event.erased e.2) = [.cleared, ⟨.replicate 16 1⟩] ∧
      Linearizable (dummyProvider "") sevenRequests
        ((dummyProvider "").serve sevenRequests closedMeanwhile) :=
  ⟨by decide, registry_linearizable _ _ _ (by decide)⟩

def Event.foundBackend (e : Event (@Answer Json)) : Option BackendId :=
  (Event.found e).bind Prod.snd

theorem Event.foundBackend_eq {e : Event (@Answer Json)} {backend : BackendId} :
    Event.foundBackend e = some backend ↔
      ∃ sequencer_id, Event.found e = some (sequencer_id, some backend) := by
  simp [Event.foundBackend, Option.bind_eq_some_iff]

theorem Event.not_found_of_destroyed {e : Event (@Answer Json)} {backend other : BackendId}
    (h : Event.destroyedBackend e = some backend) : Event.foundBackend e ≠ some other := by
  obtain ⟨a, answer⟩ := e
  cases a with
  | destroy => simp [Event.foundBackend, Event.found]
  | generate | uninitialised | factory | insert | find | close | sayHello | computeSum | respond
  | escape => cases h

theorem Served.foundBackend_needs (h : Served provider requests s log) :
    NeedsLive (fun e => Event.insertedBackend e.2) (fun e => Event.destroyedBackend e.2)
      (fun e => Event.foundBackend e.2) log := by
  rintro pre ⟨k, e⟩ post backend hLog hFound
  obtain ⟨sequencer_id, hPair⟩ := Event.foundBackend_eq.mp hFound
  obtain ⟨t, t', hBefore, hLive, hEffect, _⟩ := h.split hLog
  exact hBefore.consistent.intact hLive sequencer_id backend (hEffect.found hPair)

/-- A handler calls a backend only through a pointer it has copied under the lock. -/
theorem Served.called_found (h : Served provider requests s log) {pre post : Log ι Json} {k : ι}
    {e : Event (@Answer Json)} (hLog : log = pre ++ (k, e) :: post) {backend : BackendId}
    (hCalled : Event.called e = some backend) :
    ∃ e', (k, e') ∈ pre ∧ Event.foundBackend e' = some backend := by
  obtain ⟨_, _, _, _, _, hGuarded⟩ := h.split hLog
  obtain ⟨sequencer_id, e', hMem, hFound⟩ := hGuarded.found hCalled
  exact ⟨e', (mem_project k e' pre).mp hMem, Event.foundBackend_eq.mpr ⟨sequencer_id, hFound⟩⟩

/-- Once `destroy()` was called on a backend, no call on it is started. -/
def NoneStarted (log : Log ι Json) : Prop :=
  ∀ backend, log.Pairwise fun e e' =>
    ¬ (Event.destroyedBackend e.2 = some backend ∧ Event.called e'.2 = some backend)

/-- Once `destroy()` was called on a backend, no handler obtains a pointer to it, and a call on it
is started only by a handler that had its pointer before. -/
structure OnlyUnderway (log : Log ι Json) : Prop where
  unfound : ∀ backend, log.Pairwise fun e e' =>
    ¬ (Event.destroyedBackend e.2 = some backend ∧ Event.foundBackend e'.2 = some backend)
  underway : ∀ pre e mid k e' post backend, log = pre ++ e :: (mid ++ (k, e') :: post) →
    Event.destroyedBackend e.2 = some backend → Event.called e' = some backend →
    ∃ e'', (k, e'') ∈ pre ∧ Event.foundBackend e'' = some backend

theorem destroyed_unless_underway (provider : ProviderImpl BackendType Json)
    (requests : ι → Request) (schedule : List (ι × Outcomes BackendType Json)) :
    OnlyUnderway (provider.serve requests schedule).log := by
  have h := serve_served provider requests schedule
  generalize (provider.serve requests schedule).shared = s at h
  generalize (provider.serve requests schedule).log = log at h
  have hUnfound := not_needed_after_left h.backend_once h.destroyedBackend_needs h.foundBackend_needs
  refine ⟨hUnfound, fun pre e mid k e' post backend hLog hDestroyed hCalled => ?_⟩
  have hCall : log = (pre ++ e :: mid) ++ (k, e') :: post := by simp [hLog]
  obtain ⟨e'', hMem, hFound⟩ := h.called_found hCall hCalled
  rcases List.mem_append.mp hMem with hBefore | hAfter
  · exact ⟨e'', hBefore, hFound⟩
  -- the lookup would come with or after `destroy()`
  rcases List.mem_cons.mp hAfter with rfl | hMid
  · exact absurd hFound (Event.not_found_of_destroyed hDestroyed)
  · obtain ⟨before, after, rfl⟩ := List.append_of_mem hMid
    have hSplit : log = (pre ++ e :: before) ++ (k, e'') :: (after ++ (k, e') :: post) := by
      simp [hLog]
    exact absurd ⟨hDestroyed, hFound⟩ (Pairwise.of_split (hUnfound backend) hSplit (by simp))

def threeRequests : Nat → Request
  | 0 => .createSequencer "" "dummy" "\x7b\x7d"
  | 1 => .computeSum .cleared 1 2
  | _ => .destroySequencer "" .cleared

def destroyedMeanwhile : List (Nat × Outcomes RegisteredBackend Unit) :=
  [0, 0, 0, 0, 1, 1, 2, 2, 1, 1].map fun k => (k, DummySequencer.outcomes .cleared 0)

theorem destroyed_while_summing :
    ¬ NoneStarted ((dummyProvider "").serve threeRequests destroyedMeanwhile).log := by
  intro hNone
  exact absurd (hNone 0) (by decide)

end Mobject
