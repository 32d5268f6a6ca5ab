import Mobject.Handlers.Registry
import Mobject.Library.Reclaim
import Mobject.Library.Serial

/-! # How long a backend lives

A backend is owned by its entry in `m_backends` and by the local variables of handlers: the
`std::unique_ptr` that a factory returned, or the `std::shared_ptr` that `FIND_SEQUENCER` copied.
It is freed with the last of them.
-/
namespace Mobject
open Interleaving SharedOwnership
set_option autoImplicit false

variable {BackendType Json ι : Type}

inductive BackendOwner (ι : Type) where
  | entry (sequencer_id : UUID)
  /-- `backend` or `sequencer` in the handler `k` -/
  | handler (k : ι)
  deriving DecidableEq

theorem BackendOwner.forall {P : BackendOwner ι → Prop} :
    (∀ o, P o) ↔ (∀ u, P (.entry u)) ∧ ∀ k, P (.handler k) := by
  refine ⟨fun h => ⟨fun u => h _, fun k => h _⟩, fun h o => ?_⟩
  cases o with
  | entry u => exact h.1 u
  | handler k => exact h.2 k

/-- What the local pointer of a handler is after an event of this handler. Once it has responded, or
its `sayHello` has returned, it leaves its scope. -/
def Event.pointer : Event (@Answer Json) → Option BackendId → Option BackendId
  | ⟨.factory .., .backend backend⟩, _ => some backend
  | ⟨.insert .., _⟩, _ => none
  | ⟨.find .., some backend⟩, _ => some backend
  | ⟨.sayHello _, .returned _⟩, _ => none
  | ⟨.respond _, _⟩, _ => none
  | _, pointer => pointer

def pointer (t : List (Event (@Answer Json))) : Option BackendId :=
  t.foldl (fun p e => Event.pointer e p) none

theorem pointer_concat (t : List (Event (@Answer Json))) (e : Event (@Answer Json)) :
    pointer (t ++ [e]) = Event.pointer e (pointer t) := by
  rw [pointer, List.foldl_append]
  rfl

abbrev Backends (ι : Type) := Ledger (BackendOwner ι) BackendId

section Events
variable [DecidableEq ι]

def Backends.after (l : Backends ι) (k : ι) : Event (@Answer Json) → Backends ι
  | ⟨.factory .., .backend backend⟩ => l.assign (.handler k) (some backend)
  -- `m_backends[sequencer_id] = std::move(backend)`
  | ⟨.insert sequencer_id backend, _⟩ =>
    (l.assign (.entry sequencer_id) (some backend)).assign (.handler k) none
  | ⟨.find .., some backend⟩ => l.assign (.handler k) (some backend)
  | ⟨.close sequencer_id _, true⟩ => l.assign (.entry sequencer_id) none
  | ⟨.destroy sequencer_id _, .called ..⟩ => l.assign (.entry sequencer_id) none
  | ⟨.sayHello _, .returned _⟩ => l.assign (.handler k) none
  | ⟨.respond _, _⟩ => l.assign (.handler k) none
  | _ => l

def backends (log : Log ι Json) : Backends ι :=
  log.foldl (fun l e => Backends.after l e.1 e.2) .empty

theorem backends_concat (log : Log ι Json) (k : ι) (e : Event (@Answer Json)) :
    backends (log ++ [(k, e)]) = Backends.after (backends log) k e := by
  rw [backends, List.foldl_append]
  rfl

end Events

section Handlers
variable (provider : ProviderImpl BackendType Json)

/-- A handler inserts what its factory returned, and calls what it found. -/
def Points (t : List (Event (@Answer Json))) : Action Json → Prop
  | .insert _ backend => pointer t = some backend
  | .sayHello sequencer => pointer t = some sequencer
  | .computeSum sequencer _ _ => pointer t = some sequencer
  | _ => True

/-- A handler that is finished has let go of its pointer, unless it was left by an exception. -/
def LetsGo (t : List (Event (@Answer Json))) : Prop := (∀ e ∈ t, Event.fatal e = false) → pointer t = none

structure Handles (handler : Handler Json Unit) : Prop where
  points : Along Points handler []
  letsGo : handler.Ensures LetsGo []

theorem addSequencer_handles (map : FactoryMap) (token type config : String) :
    Handles (provider.addSequencer map token type config) := by
  constructor
  · refine ⟨trivial, fun u => ?_⟩
    cases provider.rejects token with
    | true => exact ⟨trivial, fun _ => trivial⟩
    | false =>
      simp only [Bool.false_eq_true, ↓reduceIte]
      cases provider.parse config with
      | parse_error what => exact ⟨trivial, fun _ => trivial⟩
      | out_of_range what => exact ⟨trivial, fun _ => trivial⟩
      | value json =>
        refine ⟨trivial, fun answer => ?_⟩
        cases answer with
        | exception what => exact ⟨trivial, fun _ => trivial⟩
        | nullptr => exact ⟨trivial, fun _ => trivial⟩
        | backend backend => exact ⟨rfl, fun _ => ⟨trivial, fun _ => trivial⟩⟩
  · intro u
    cases provider.rejects token with
    | true => exact fun _ _ => rfl
    | false =>
      simp only [Bool.false_eq_true, ↓reduceIte]
      cases provider.parse config with
      | parse_error what => exact fun _ _ => rfl
      | out_of_range what => exact fun _ _ => rfl
      | value json =>
        intro answer
        cases answer with
        | exception what => exact fun _ _ => rfl
        | nullptr => exact fun _ _ => rfl
        | backend backend => exact fun _ _ _ => rfl

theorem closeSequencer_handles (token : String) (sequencer_id : UUID) :
    Handles (provider.closeSequencer token sequencer_id) := by
  unfold ProviderImpl.closeSequencer
  cases provider.rejects token with
  | true => exact ⟨⟨trivial, fun _ => trivial⟩, fun _ _ => rfl⟩
  | false =>
    refine ⟨⟨trivial, fun answer => ?_⟩, fun answer => ?_⟩
    · cases answer with
      | true => exact ⟨trivial, fun _ => trivial⟩
      | false => trivial
    · cases answer with
      | true => exact fun _ _ => rfl
      | false => exact fun _ => rfl

theorem destroySequencer_handles (token : String) (sequencer_id : UUID) :
    Handles (provider.destroySequencer token sequencer_id) := by
  unfold ProviderImpl.destroySequencer
  cases provider.rejects token with
  | true => exact ⟨⟨trivial, fun _ => trivial⟩, fun _ _ => rfl⟩
  | false =>
    refine ⟨⟨trivial, fun answer => ?_⟩, fun answer => ?_⟩
    · cases answer with
      | called backend result => exact ⟨trivial, fun _ => trivial⟩
      | notFound | threw => trivial
    · cases answer with
      | called backend result => exact fun _ _ => rfl
      | notFound | threw => exact fun _ => rfl

theorem checkSequencer_handles (sequencer_id : UUID) : Handles (provider.checkSequencer sequencer_id) := by
  refine ⟨⟨trivial, fun answer => ?_⟩, fun answer => ?_⟩
  · cases answer with
    | none => trivial
    | some backend => exact ⟨trivial, fun _ => trivial⟩
  · cases answer with
    | none => exact fun _ => rfl
    | some backend => exact fun _ _ => rfl

theorem sayHello_handles (sequencer_id : UUID) : Handles (provider.sayHello sequencer_id) := by
  refine ⟨⟨trivial, fun answer => ?_⟩, fun answer => ?_⟩
  · cases answer with
    | none => trivial
    | some backend => exact ⟨rfl, fun _ => trivial⟩
  · cases answer with
    | none => exact fun _ => rfl
    | some backend =>
      intro result
      cases result with
      | returned value => exact fun _ => rfl
      | threw what => exact fun hNone => by simp [Event.fatal] at hNone

theorem computeSum_handles (sequencer_id : UUID) (x y : Int32) :
    Handles (provider.computeSum sequencer_id x y) := by
  refine ⟨⟨trivial, fun _ => ⟨trivial, fun answer => ?_⟩⟩, fun _ answer => ?_⟩
  · cases answer with
    | none => trivial
    | some backend =>
      refine ⟨rfl, fun sum => ?_⟩
      cases sum with
      | returned result => exact ⟨trivial, fun _ => trivial⟩
      | threw what => trivial
  · cases answer with
    | none => exact fun _ => rfl
    | some backend =>
      intro sum
      cases sum with
      | returned result => exact fun _ _ => rfl
      | threw what => exact fun hNone => by simp [Event.fatal] at hNone

theorem handler_handles (request : Request) : Handles (provider.handler request) := by
  cases request with
  | createSequencer token type config => exact addSequencer_handles provider .create_fn _ _ _
  | openSequencer token type config => exact addSequencer_handles provider .open_fn _ _ _
  | closeSequencer token sequencer_id => exact closeSequencer_handles provider token sequencer_id
  | destroySequencer token sequencer_id => exact destroySequencer_handles provider token sequencer_id
  | checkSequencer sequencer_id => exact checkSequencer_handles provider sequencer_id
  | sayHello sequencer_id => exact sayHello_handles provider sequencer_id
  | computeSum sequencer_id x y => exact computeSum_handles provider sequencer_id x y

end Handlers

section Runs
variable [DecidableEq ι] {provider : ProviderImpl BackendType Json} {requests : ι → Request}
  {s s' : Registry} {log : Log ι Json}

theorem owner_handler_after (l : Backends ι) (k : ι) (e : Event (@Answer Json)) (j : ι) :
    (Backends.after l k e).self.owner (.handler j) =
      if j = k then Event.pointer e (l.self.owner (.handler k)) else l.self.owner (.handler j) := by
  obtain ⟨a, answer⟩ := e
  by_cases hj : j = k
  · subst hj
    rw [if_pos rfl]
    cases a with
    | generate | uninitialised | computeSum | escape => rfl
    | factory | find | close | destroy | sayHello =>
      cases answer <;> simp [Backends.after, Event.pointer]
    | insert | respond => simp [Backends.after, Event.pointer]
  · rw [if_neg hj]
    cases a with
    | generate | uninitialised | computeSum | escape => rfl
    | factory | find | close | destroy | sayHello =>
      cases answer <;> simp [Backends.after, hj]
    | insert | respond => simp [Backends.after, hj]

/-- The owners of the backends are the entries of the map and the local pointers of the handlers,
and a backend that nobody owns any more has been freed. -/
structure Tracks (s : Registry) (log : Log ι Json) : Prop where
  entry : ∀ u, (backends log).self.owner (.entry u) = s.m_backends u
  handler : ∀ k, (backends log).self.owner (.handler k) = pointer (project k log)
  sound : Ledger.Sound {backend | backend < s.made} (backends log)

theorem Tracks.handler_step (ih : Tracks s log) (k : ι) (e : Event (@Answer Json)) (j : ι) :
    (backends (log ++ [(k, e)])).self.owner (.handler j) = pointer (project j (log ++ [(k, e)])) := by
  rw [backends_concat, owner_handler_after, project_append]
  by_cases hj : j = k
  · subst hj
    rw [if_pos rfl, project_self, pointer_concat, ih.handler j]
  · rw [if_neg hj, project_other (Ne.symm hj), List.append_nil, ih.handler j]

theorem Tracks.entry_step (ih : Tracks s log) {k : ι} {e : Event (@Answer Json)}
    (hEffect : Effect s e s') (u : UUID) :
    (backends (log ++ [(k, e)])).self.owner (.entry u) = s'.m_backends u := by
  rw [backends_concat]
  have hSame := ih.entry u
  cases hEffect with
  | inserts v | closes v | destroys v =>
    by_cases hu : u = v
    · subst hu
      simp [Backends.after]
    · simp [Backends.after, hu, hSame]
  | makes | closeMisses | destroyMisses | destroyThrows => simp [Backends.after, hSame]
  | finds v notFound => cases hFind : s.m_backends v <;> simp [Backends.after, hSame]
  | other _ _ hInserted hMade hFound hRemoval hBackends =>
    rw [hBackends, ← hSame]
    obtain ⟨a, answer⟩ := e
    cases a with
    | insert => cases hInserted
    | find => cases hFound
    | close | destroy => cases hRemoval
    | generate | uninitialised | computeSum | escape | respond => simp [Backends.after]
    | factory | sayHello => cases answer <;> simp [Backends.after]

theorem Tracks.sound_step (ih : Tracks s log) {k : ι} {e : Event (@Answer Json)}
    (hEffect : Effect s e s') (hPoints : Points (project k log) e.1) :
    Ledger.Sound {backend | backend < s'.made} (backends (log ++ [(k, e)])) := by
  rw [backends_concat]
  have hSound := ih.sound
  cases hEffect with
  | inserts u backend =>
    have hOwner : (backends log).self.owner (.handler k) = some backend := (ih.handler k).trans hPoints
    exact (hSound.share (.entry u) ((backends log).self.uses_pos hOwner).ne').release (.handler k)
  | makes map name config => exact hSound.makeNext (.handler k)
  | finds u notFound =>
    cases hFind : s.m_backends u with
    | none => exact hSound
    | some backend =>
      have hOwner : (backends log).self.owner (.entry u) = some backend := (ih.entry u).trans hFind
      exact hSound.share (.handler k) ((backends log).self.uses_pos hOwner).ne'
  | closes u | destroys u => exact hSound.release (.entry u)
  | closeMisses | destroyMisses | destroyThrows => exact hSound
  | other _ _ hInserted hMade hFound hRemoval _ hSame =>
    rw [hSame]
    obtain ⟨a, answer⟩ := e
    cases a with
    | insert => cases hInserted
    | find => cases hFound
    | close | destroy => cases hRemoval
    | generate | uninitialised | computeSum | escape => exact hSound
    | respond => exact hSound.release (.handler k)
    | factory => cases answer with
      | backend => cases hMade
      | nullptr | exception => exact hSound
    | sayHello => cases answer with
      | returned => exact hSound.release (.handler k)
      | threw => exact hSound

theorem Served.tracks (h : Served provider requests s log) : Tracks s log := by
  induction h with
  | init => exact ⟨fun u => rfl, fun k => rfl, Ledger.sound_start⟩
  | @step s log k a next world _ _ hPath ih =>
    have hEffect := perform_effect provider a world s
    have hPoints := hPath.along [] (handler_handles provider (requests k)).points
    exact ⟨ih.entry_step hEffect, ih.handler_step k _, ih.sound_step hEffect (by simpa using hPoints)⟩

/-- A backend whose method is called has not been freed: the caller or the map owns it. -/
theorem Served.called_alive (h : Served provider requests s log) {pre post : Log ι Json} {k : ι}
    {e : Event (@Answer Json)} (hLog : log = pre ++ (k, e) :: post) {backend : BackendId}
    (hCalled : Event.called e = some backend ∨ Event.destroyedBackend e = some backend) :
    (backends pre).self.uses backend ≠ 0 ∧ backend ∉ (backends pre).freed := by
  obtain ⟨t, world, next, hBefore, _, hPath, hAnswer⟩ := Reaches.split _ h pre post k e hLog
  have hTracks := Served.tracks hBefore
  suffices hOwned : ∃ o, (backends pre).self.owner o = some backend by
    obtain ⟨o, hOwner⟩ := hOwned
    exact ⟨((backends pre).self.uses_pos hOwner).ne', (hTracks.sound.owned hOwner).2⟩
  rcases hCalled with hCalled | hDestroyed
  · refine ⟨.handler k, (hTracks.handler k).trans ?_⟩
    have hPoints := hPath.along [] (handler_handles provider (requests k)).points
    obtain ⟨a, answer⟩ := e
    cases a with
    | sayHello | computeSum => cases hCalled; exact hPoints
    | generate | uninitialised | factory | insert | find | close | destroy | respond | escape =>
      cases hCalled
  · obtain ⟨⟨u, _⟩, hPair, rfl⟩ := Option.map_eq_some_iff.mp hDestroyed
    have hEffect := perform_effect provider e.1 world t
    rw [show (provider.perform e.1 world t).1 = e.2 from hAnswer.symm] at hEffect
    exact ⟨.entry u, (hTracks.entry u).trans (hEffect.destroyed hPair).1⟩

/-- Backends are freed when they are neither registered nor in the hands of a handler, once each and
never before; and a handler that is finished holds none. -/
structure BackendsSafe (s : Registry) (rest : ι → Handler Json Unit) (log : Log ι Json) : Prop where
  alive : ∀ pre k e post backend, log = pre ++ (k, e) :: post →
    (Event.called e = some backend ∨ Event.destroyedBackend e = some backend) →
    (backends pre).self.uses backend ≠ 0 ∧ backend ∉ (backends pre).freed
  once : (backends log).freed.Nodup
  freed_iff : ∀ backend, backend ∈ (backends log).freed ↔ backend < s.made ∧
    (∀ u, s.m_backends u ≠ some backend) ∧ ∀ k, pointer (project k log) ≠ some backend
  finished : s.terminated = false → ∀ k, rest k = .pure () → pointer (project k log) = none

theorem backends_safe (provider : ProviderImpl BackendType Json) (requests : ι → Request)
    (schedule : List (ι × Outcomes BackendType Json)) :
    BackendsSafe (provider.serve requests schedule).shared (provider.serve requests schedule).rest
      (provider.serve requests schedule).log := by
  have hServed := serve_served provider requests schedule
  have hTracks := hServed.tracks
  constructor
  · exact fun pre k e post backend hLog hCalled => hServed.called_alive hLog hCalled
  · exact hTracks.sound.once
  · intro backend
    rw [hTracks.sound.freed_iff, Pool.uses_eq_zero_iff, BackendOwner.forall]
    simp only [hTracks.entry, hTracks.handler]
    rfl
  · intro hLive k hDone
    have hPath := serve_path provider requests schedule k
    rw [hDone] at hPath
    refine hPath.ensures [] (handler_handles provider (requests k)).letsGo fun e hMem => ?_
    exact hServed.not_fatal hLive ((mem_project k e _).mp hMem)

end Runs

end Mobject
