import Mobject.DummyBackend
import Mobject.Handlers.Registry
import Mobject.Library.Critical

/-! # The locked blocks, access by access

What a handler does while it holds the `lock_guard` of `m_backends_mtx`: single calls of
`std::unordered_map`, `destroy()` on a backend, and the responses sent under the lock. The other
modules take each of these blocks for one action.
-/
namespace Mobject
open Interleaving
set_option autoImplicit false

variable {BackendType Json ι : Type}

/-- The provider with its map as it is: an entry holds a `shared_ptr`, which can be null. -/
structure Entries where
  m_backends : UUID → Option (Option BackendId)
  made : BackendId
  terminated : Bool

inductive Access where
  | count (sequencer_id : UUID)
  | find (sequencer_id : UUID)
  /-- `m_backends[sequencer_id]`, which makes an entry where there is none -/
  | index (sequencer_id : UUID)
  /-- assignment to the entry that `index` returned -/
  | assign (sequencer_id : UUID) (backend : BackendId)
  | erase (sequencer_id : UUID)
  | destroy (sequencer : BackendId)
  /-- `->` on a null pointer -/
  | nullptr
  | respond (result : Response)

def AccessAnswer : Access → Type
  | .count _ => Nat
  | .find _ => Option (Option BackendId)
  | .index _ => Option BackendId
  | .assign .. => Unit
  | .erase _ => Unit
  | .destroy _ => MethodResult RequestResultBool
  | .nullptr => Unit
  | .respond _ => Unit

namespace Entries

def put (s : Entries) (sequencer_id : UUID) (entry : Option (Option BackendId)) : Entries :=
  { s with m_backends := Function.update s.m_backends sequencer_id entry }

def terminate (s : Entries) : Entries := { s with terminated := true }

def count (s : Entries) (sequencer_id : UUID) : Nat :=
  if (s.m_backends sequencer_id).isSome then 1 else 0

def access : (b : Access) → Outcomes BackendType Json → Entries → AccessAnswer b × Entries
  | .count sequencer_id, _, s => (s.count sequencer_id, s)
  | .find sequencer_id, _, s => (s.m_backends sequencer_id, s)
  | .index sequencer_id, _, s =>
    match s.m_backends sequencer_id with
    | some sequencer => (sequencer, s)
    | none => (none, s.put sequencer_id (some none))
  | .assign sequencer_id backend, _, s => ((), s.put sequencer_id (some (some backend)))
  | .erase sequencer_id, _, s => ((), s.put sequencer_id none)
  | .destroy sequencer, world, s =>
    match world.destroy sequencer with
    | .returned result => (.returned result, s)
    | .threw what => (.threw what, s.terminate)
  | .nullptr, _, s => ((), s.terminate)
  | .respond _, _, s => ((), s)

def of (s : Registry) : Entries := ⟨fun u => (s.m_backends u).map some, s.made, s.terminated⟩

end Entries

abbrev Block (α : Type) := Prog Access AccessAnswer α

namespace Block
open Prog (call)

def count (sequencer_id : UUID) : Block Nat := call (Access.count sequencer_id)
def find (sequencer_id : UUID) : Block (Option (Option BackendId)) := call (Access.find sequencer_id)
def index (sequencer_id : UUID) : Block (Option BackendId) := call (Access.index sequencer_id)
def assign (sequencer_id : UUID) (backend : BackendId) : Block Unit :=
  call (Access.assign sequencer_id backend)
def erase (sequencer_id : UUID) : Block Unit := call (Access.erase sequencer_id)
def destroy (sequencer : BackendId) : Block (MethodResult RequestResultBool) :=
  call (Access.destroy sequencer)
def nullptr : Block Unit := call Access.nullptr
def respond (result : Response) : Block Unit := call (Access.respond result)

end Block

/-- `m_backends[sequencer_id] = std::move(backend);` in `createSequencer` and `openSequencer`. -/
def insertBlock (sequencer_id : UUID) (backend : BackendId) : Block Unit := do
  let _ ← Block.index sequencer_id
  Block.assign sequencer_id backend

/-- The block of `FIND_SEQUENCER`. -/
def findBlock (sequencer_id : UUID) (notFound : Response) : Block (Option BackendId) := do
  match ← Block.find sequencer_id with
  | none =>
    Block.respond notFound
    return none
  | some sequencer => return sequencer

def closeBlock (sequencer_id : UUID) (notFound : Response) : Block Bool := do
  if (← Block.count sequencer_id) = 0 then
    Block.respond notFound
    return false
  Block.erase sequencer_id
  return true

def destroyBlock (sequencer_id : UUID) (notFound : Response) : Block DestroyAnswer := do
  if (← Block.count sequencer_id) = 0 then
    Block.respond notFound
    return .notFound
  match ← Block.index sequencer_id with
  | none =>
    Block.nullptr
    return .notFound
  | some sequencer =>
    match ← Block.destroy sequencer with
    -- the exception leaves the block
    | .threw what => return .threw sequencer what
    | .returned result =>
      Block.erase sequencer_id
      return .called sequencer result

/-- What runs under `m_backends_mtx`. -/
def Action.block : (a : Action Json) → Option (Block (Answer a))
  | .insert sequencer_id backend => some (insertBlock sequencer_id backend)
  | .find sequencer_id notFound => some (findBlock sequencer_id notFound)
  | .close sequencer_id notFound => some (closeBlock sequencer_id notFound)
  | .destroy sequencer_id notFound => some (destroyBlock sequencer_id notFound)
  | _ => none

variable (provider : ProviderImpl BackendType Json)

/-- What is done outside the lock does not look at `m_backends`. -/
def ProviderImpl.unlocked (a : Action Json) (world : Outcomes BackendType Json) (s : Entries) :
    Answer a × Entries :=
  let answer := provider.perform a world ⟨fun _ => none, s.made, s.terminated⟩
  (answer.1, { s with made := answer.2.made, terminated := answer.2.terminated })

def ProviderImpl.sections :
    Sections Entries (Outcomes BackendType Json) (Action Json) Access Answer AccessAnswer where
  body := Action.block
  access := Entries.access
  unguarded := provider.unlocked
  halted := Entries.terminated

def MethodResult.throws {α : Type} : MethodResult α → Bool
  | .returned _ => false
  | .threw _ => true

theorem afterCall_eq {α : Type} (s : Registry) (result : MethodResult α) :
    s.afterCall result = { s with terminated := s.terminated || result.throws } := by
  cases result <;> simp [Registry.afterCall, MethodResult.throws, Registry.terminate]

theorem access_eq (b : Access) (world : Outcomes BackendType Json)
    (m_backends : UUID → Option (Option BackendId)) : ∃ answer m_backends' ends,
    ∀ s : Entries, s.m_backends = m_backends → Entries.access b world s =
      (answer, { s with m_backends := m_backends', terminated := s.terminated || ends }) := by
  cases b with
  | count u =>
    exact ⟨(if (m_backends u).isSome then 1 else 0 : Nat), m_backends, false, by
      rintro s rfl
      simp [Entries.access, Entries.count]⟩
  | find u => exact ⟨m_backends u, m_backends, false, by rintro s rfl; simp [Entries.access]⟩
  | index u =>
    cases hEntry : m_backends u with
    | some sequencer =>
      exact ⟨sequencer, m_backends, false, by rintro s rfl; simp [Entries.access, hEntry]⟩
    | none =>
      exact ⟨none, Function.update m_backends u (some none), false, by
        rintro s rfl
        simp [Entries.access, hEntry, Entries.put]⟩
  | assign u backend =>
    exact ⟨(), Function.update m_backends u (some (some backend)), false, by
      rintro s rfl
      simp [Entries.access, Entries.put]⟩
  | erase u =>
    exact ⟨(), Function.update m_backends u none, false, by
      rintro s rfl
      simp [Entries.access, Entries.put]⟩
  | destroy sequencer =>
    exact ⟨world.destroy sequencer, m_backends, (world.destroy sequencer).throws, by
      rintro s rfl
      cases hDestroy : world.destroy sequencer <;>
        simp [Entries.access, hDestroy, MethodResult.throws, Entries.terminate]⟩
  | nullptr =>
    exact ⟨(), m_backends, true, by rintro s rfl; simp [Entries.access, Entries.terminate]⟩
  | respond response => exact ⟨(), m_backends, false, by rintro s rfl; simp [Entries.access]⟩

theorem unlocked_eq (a : Action Json) (hUnlocked : a.block = none) (world : Outcomes BackendType Json)
    (made : BackendId) : ∃ answer made' ends, ∀ s : Entries, s.made = made →
    provider.unlocked a world s =
      (answer, { s with made := made', terminated := s.terminated || ends }) := by
  cases a with
  | insert | find | close | destroy => cases hUnlocked
  | generate =>
    exact ⟨world.generated, made, false, by
      rintro s rfl
      simp [ProviderImpl.unlocked, ProviderImpl.perform]⟩
  | uninitialised =>
    exact ⟨world.indeterminate, made, false, by
      rintro s rfl
      simp [ProviderImpl.unlocked, ProviderImpl.perform]⟩
  | respond response =>
    exact ⟨(), made, false, by rintro s rfl; simp [ProviderImpl.unlocked, ProviderImpl.perform]⟩
  | escape what =>
    exact ⟨(), made, true, by
      rintro s rfl
      simp [ProviderImpl.unlocked, ProviderImpl.perform, Registry.terminate]⟩
  | factory map name config =>
    cases hFactory : provider.factory.sequencer map name config world with
    | backend =>
      exact ⟨.backend made, made + 1, false, by
        rintro s rfl
        simp [ProviderImpl.unlocked, ProviderImpl.perform, hFactory, Registry.allocate]⟩
    | nullptr =>
      exact ⟨.nullptr, made, false, by
        rintro s rfl
        simp [ProviderImpl.unlocked, ProviderImpl.perform, hFactory]⟩
    | exception what =>
      exact ⟨.exception what, made, false, by
        rintro s rfl
        simp [ProviderImpl.unlocked, ProviderImpl.perform, hFactory]⟩
  | sayHello sequencer =>
    exact ⟨world.sayHello sequencer, made, (world.sayHello sequencer).throws, by
      rintro s rfl
      simp [ProviderImpl.unlocked, ProviderImpl.perform, afterCall_eq]⟩
  | computeSum sequencer x y =>
    exact ⟨world.computeSum sequencer x y, made, (world.computeSum sequencer x y).throws, by
      rintro s rfl
      simp [ProviderImpl.unlocked, ProviderImpl.perform, afterCall_eq]⟩

theorem sections_commute (a : Action Json) (world : Outcomes BackendType Json) (b : Access)
    (world' : Outcomes BackendType Json) (s : Entries) (hUnlocked : a.block = none) :
    (provider.unlocked a world (Entries.access b world' s).2).1 = (provider.unlocked a world s).1 ∧
      Entries.access b world' (provider.unlocked a world s).2 =
        ((Entries.access b world' s).1, (provider.unlocked a world (Entries.access b world' s).2).2) := by
  obtain ⟨answer, made, ends, hOutside⟩ := unlocked_eq provider a hUnlocked world s.made
  obtain ⟨answer', m_backends, ends', hInside⟩ := access_eq b world' s.m_backends
  rw [hInside s rfl, hOutside s rfl, hOutside ⟨m_backends, s.made, _⟩ rfl,
    hInside ⟨s.m_backends, made, _⟩ rfl]
  simp [Bool.or_right_comm]

theorem accesses_perform (b : Access) (world : Outcomes BackendType Json) (s : Entries) :
    provider.sections.accesses.perform b world s = Entries.access b world s := rfl

@[simp] theorem m_backends_of (s : Registry) (u : UUID) :
    (Entries.of s).m_backends u = (s.m_backends u).map some := rfl

theorem put_of (s : Registry) (u : UUID) (backend : Option BackendId) :
    (Entries.of s).put u (backend.map some) =
      Entries.of { s with m_backends := Function.update s.m_backends u backend } := by
  simp only [Entries.of, Entries.put, Entries.mk.injEq, and_true]
  funext v
  by_cases hv : v = u
  · subst hv
    simp
  · simp [Function.update_of_ne hv]

theorem put_put (s : Entries) (u : UUID) (entry entry' : Option (Option BackendId)) :
    (s.put u entry).put u entry' = s.put u entry' := by
  simp [Entries.put]

theorem count_of (s : Registry) (u : UUID) :
    (Entries.of s).count u = if (s.m_backends u).isSome then 1 else 0 := by
  simp [Entries.count]

def Acts (a : Action Json) (s : Registry) (r : Answer a) (f : Entries) : Prop :=
  ∃ world : Outcomes BackendType Json, (provider.perform a world s).1 = r ∧
    f = .of (provider.perform a world s).2

section Blocks
variable {s : Registry} {u : UUID} {t : List (Event AccessAnswer)} {f : Entries}

theorem insertBlock_acts (backend : BackendId) {r : Unit}
    (h : provider.sections.accesses.Does (insertBlock u backend) (.of s) t (.pure r) f) :
    Acts provider (.insert u backend) s r f := by
  obtain ⟨_, hNot, _⟩ | ⟨w₁, t₁, rfl, h₁⟩ := Machine.Does.of_act h
  · cases hNot
  obtain ⟨_, hNot, _⟩ | ⟨w₂, t₂, rfl, h₂⟩ := Machine.Does.of_act h₁
  · cases hNot
  obtain ⟨_, _, rfl⟩ := Machine.Does.of_pure h₂
  -- also if `operator[]` has made a null entry first
  refine ⟨w₁, rfl, ?_⟩
  cases hFind : s.m_backends u <;>
    simp only [accesses_perform, Entries.access, m_backends_of, hFind, Option.map, put_put] <;>
    exact put_of s u (some backend)

theorem findBlock_acts (notFound : Response) {r : Option BackendId}
    (h : provider.sections.accesses.Does (findBlock u notFound) (.of s) t (.pure r) f) :
    Acts provider (.find u notFound) s r f := by
  obtain ⟨_, hNot, _⟩ | ⟨w₁, t₁, rfl, h₁⟩ := Machine.Does.of_act h
  · cases hNot
  cases hFind : s.m_backends u with
  | none =>
    simp only [accesses_perform, Entries.access, m_backends_of, hFind, Option.map] at h₁
    obtain ⟨_, hNot, _⟩ | ⟨w₂, t₂, rfl, h₂⟩ := Machine.Does.of_act h₁
    · cases hNot
    obtain ⟨_, hDone, rfl⟩ := Machine.Does.of_pure h₂
    cases hDone
    exact ⟨w₁, hFind, rfl⟩
  | some backend =>
    simp only [accesses_perform, Entries.access, m_backends_of, hFind, Option.map] at h₁
    obtain ⟨_, hDone, rfl⟩ := Machine.Does.of_pure h₁
    cases hDone
    exact ⟨w₁, hFind, rfl⟩

theorem closeBlock_acts (notFound : Response) {r : Bool}
    (h : provider.sections.accesses.Does (closeBlock u notFound) (.of s) t (.pure r) f) :
    Acts provider (.close u notFound) s r f := by
  obtain ⟨_, hNot, _⟩ | ⟨w₁, t₁, rfl, h₁⟩ := Machine.Does.of_act h
  · cases hNot
  cases hFind : s.m_backends u with
  | none =>
    simp only [accesses_perform, Entries.access, count_of, hFind, Option.isSome, Bool.false_eq_true,
      ↓reduceIte] at h₁
    obtain ⟨_, hNot, _⟩ | ⟨w₂, t₂, rfl, h₂⟩ := Machine.Does.of_act h₁
    · cases hNot
    obtain ⟨_, hDone, rfl⟩ := Machine.Does.of_pure h₂
    cases hDone
    refine ⟨w₁, ?_⟩
    simp only [ProviderImpl.perform, hFind]
    exact ⟨rfl, rfl⟩
  | some backend =>
    simp only [accesses_perform, Entries.access, count_of, hFind, Option.isSome, ↓reduceIte] at h₁
    obtain ⟨_, hNot, _⟩ | ⟨w₂, t₂, rfl, h₂⟩ := Machine.Does.of_act h₁
    · cases hNot
    obtain ⟨_, hDone, rfl⟩ := Machine.Does.of_pure h₂
    cases hDone
    refine ⟨w₁, ?_⟩
    simp only [ProviderImpl.perform, hFind]
    exact ⟨rfl, put_of s u none⟩

theorem destroyBlock_acts (notFound : Response) {r : DestroyAnswer} (hLive : f.terminated = false)
    (h : provider.sections.accesses.Does (destroyBlock u notFound) (.of s) t (.pure r) f) :
    Acts provider (.destroy u notFound) s r f := by
  obtain ⟨_, hNot, _⟩ | ⟨w₁, t₁, rfl, h₁⟩ := Machine.Does.of_act h
  · cases hNot
  cases hFind : s.m_backends u with
  | none =>
    simp only [accesses_perform, Entries.access, count_of, hFind, Option.isSome, Bool.false_eq_true,
      ↓reduceIte] at h₁
    obtain ⟨_, hNot, _⟩ | ⟨w₂, t₂, rfl, h₂⟩ := Machine.Does.of_act h₁
    · cases hNot
    obtain ⟨_, hDone, rfl⟩ := Machine.Does.of_pure h₂
    cases hDone
    refine ⟨w₁, ?_⟩
    simp only [ProviderImpl.perform, hFind]
    exact ⟨rfl, rfl⟩
  | some backend =>
    simp only [accesses_perform, Entries.access, count_of, hFind, Option.isSome, ↓reduceIte] at h₁
    -- the entry is there, so `operator[]` returns it as it is
    obtain ⟨_, hNot, _⟩ | ⟨w₂, t₂, rfl, h₂⟩ := Machine.Does.of_act h₁
    · cases hNot
    simp only [accesses_perform, Entries.access, m_backends_of, hFind, Option.map] at h₂
    obtain ⟨_, hNot, _⟩ | ⟨w₃, t₃, rfl, h₃⟩ := Machine.Does.of_act h₂
    · cases hNot
    cases hDestroy : w₃.destroy backend with
    | threw what =>
      simp only [accesses_perform, Entries.access, hDestroy] at h₃
      obtain ⟨_, _, rfl⟩ := Machine.Does.of_pure h₃
      cases hLive
    | returned result =>
      simp only [accesses_perform, Entries.access, hDestroy] at h₃
      obtain ⟨_, hNot, _⟩ | ⟨w₄, t₄, rfl, h₄⟩ := Machine.Does.of_act h₃
      · cases hNot
      obtain ⟨_, hDone, rfl⟩ := Machine.Does.of_pure h₄
      cases hDone
      refine ⟨w₃, ?_⟩
      simp only [ProviderImpl.perform, hFind, hDestroy]
      exact ⟨rfl, put_of s u none⟩

end Blocks

theorem block_acts {a : Action Json} {body : Block (Answer a)} {s : Registry}
    {t : List (Event AccessAnswer)} {r : Answer a} {f : Entries} (hBlock : a.block = some body)
    (hLive : f.terminated = false)
    (h : provider.sections.accesses.Does body (.of s) t (.pure r) f) : Acts provider a s r f := by
  cases a with
  | generate | uninitialised | factory | sayHello | computeSum | respond | escape => cases hBlock
  | insert u backend => cases hBlock; exact insertBlock_acts provider backend h
  | find u notFound => cases hBlock; exact findBlock_acts provider notFound h
  | close u notFound => cases hBlock; exact closeBlock_acts provider notFound h
  | destroy u notFound => cases hBlock; exact destroyBlock_acts provider notFound hLive h

theorem sections_implement : provider.sections.Implements provider.machine Entries.of where
  halted_shows _ := rfl
  halted_access b world s hLive := by
    obtain ⟨_, _, _, hAccess⟩ := access_eq b world s.m_backends
    have hAfter : (Entries.access b world s).2.terminated = false := hLive
    rw [hAccess s rfl] at hAfter
    exact (Bool.or_eq_false_iff.mp hAfter).1
  unguarded a world s hUnlocked := by
    cases a with
    | insert | find | close | destroy => cases hUnlocked
    | generate | uninitialised | respond | escape => rfl
    | factory map name config =>
      cases hFactory : provider.factory.sequencer map name config world <;>
        simp [ProviderImpl.sections, ProviderImpl.unlocked, ProviderImpl.machine, ProviderImpl.perform,
          hFactory, Entries.of, Registry.allocate]
    | sayHello | computeSum =>
      simp [ProviderImpl.sections, ProviderImpl.unlocked, ProviderImpl.machine, ProviderImpl.perform,
        afterCall_eq, Entries.of]
  commutes := sections_commute provider
  body _ _ _ _ _ _ hBlock _ hLive hDoes := block_acts provider hBlock hLive hDoes

/-- `destroy()` is not called through a null pointer. -/
theorem destroyBlock_nonnull {s : Registry} {u : UUID} {notFound : Response}
    {t : List (Event AccessAnswer)} {f : Entries} {next : Unit → Block DestroyAnswer}
    (h : provider.sections.accesses.Does (destroyBlock u notFound) (.of s) t (.act .nullptr next) f) :
    False := by
  obtain ⟨_, hNot, _⟩ | ⟨w₁, t₁, rfl, h₁⟩ := Machine.Does.of_act h
  · cases hNot
  cases hFind : s.m_backends u with
  | none =>
    simp only [accesses_perform, Entries.access, count_of, hFind, Option.isSome, Bool.false_eq_true,
      ↓reduceIte] at h₁
    obtain ⟨_, hNot, _⟩ | ⟨w₂, t₂, rfl, h₂⟩ := Machine.Does.of_act h₁
    · cases hNot
    obtain ⟨_, hNot, _⟩ := Machine.Does.of_pure h₂
    cases hNot
  | some backend =>
    simp only [accesses_perform, Entries.access, count_of, hFind, Option.isSome, ↓reduceIte] at h₁
    obtain ⟨_, hNot, _⟩ | ⟨w₂, t₂, rfl, h₂⟩ := Machine.Does.of_act h₁
    · cases hNot
    simp only [accesses_perform, Entries.access, m_backends_of, hFind, Option.map] at h₂
    obtain ⟨_, hNot, _⟩ | ⟨w₃, t₃, rfl, h₃⟩ := Machine.Does.of_act h₂
    · cases hNot
    cases hDestroy : w₃.destroy backend with
    | threw what =>
      simp only [accesses_perform, Entries.access, hDestroy] at h₃
      obtain ⟨_, hNot, _⟩ := Machine.Does.of_pure h₃
      cases hNot
    | returned result =>
      simp only [accesses_perform, Entries.access, hDestroy] at h₃
      obtain ⟨_, hNot, _⟩ | ⟨w₄, t₄, rfl, h₄⟩ := Machine.Does.of_act h₃
      · cases hNot
      obtain ⟨_, hNot, _⟩ := Machine.Does.of_pure h₄
      cases hNot

theorem block_within {a : Action Json} {body : Block (Answer a)} (hBlock : a.block = some body) :
    body.Within 4 := by
  cases a with
  | generate | uninitialised | factory | sayHello | computeSum | respond | escape => cases hBlock
  | insert u backend => cases hBlock; exact fun _ _ => trivial
  | find u notFound =>
    cases hBlock
    intro entry
    cases entry with
    | none => exact fun _ => trivial
    | some sequencer => trivial
  | close u notFound =>
    cases hBlock
    intro (n : Nat)
    cases n with
    | zero => exact fun _ => trivial
    | succ n => exact fun _ => trivial
  | destroy u notFound =>
    cases hBlock
    intro (n : Nat)
    cases n with
    | zero => exact fun _ => trivial
    | succ n =>
      intro sequencer
      cases sequencer with
      | none => exact fun _ => trivial
      | some sequencer =>
        intro result
        cases result with
        | threw what => trivial
        | returned result => exact fun _ => trivial

section Runs
variable [DecidableEq ι]

def ProviderImpl.serveLocked (requests : ι → Request)
    (schedule : List (ι × Outcomes BackendType Json)) :
    LockConfig ι Entries (Action Json) Access Answer AccessAnswer Unit :=
  provider.sections.run (.start (fun k => provider.handler (requests k)) (.of .empty)) schedule

/-- A run with the mutex against one in which the locked blocks are atomic: the same log, the same
left to do, and, the mutex being free, the same map without a null entry. -/
structure BlocksAtomic (c : LockConfig ι Entries (Action Json) Access Answer AccessAnswer Unit)
    (d : Config ι Registry (Action Json) Answer Unit) : Prop where
  log : c.log = d.log
  rest : ∀ k, (c.stage k).rest = d.rest k
  free : c.holder = none → c.shared = .of d.shared
  exclusive : ∀ k a next left, c.stage k = .inside a next left → c.holder = some k
  nonnull : ∀ k u notFound next left, c.stage k ≠ .inside (.destroy u notFound) next (.act .nullptr left)

theorem blocks_atomic (provider : ProviderImpl BackendType Json) (requests : ι → Request)
    (schedule : List (ι × Outcomes BackendType Json)) : ∃ schedule',
    BlocksAtomic (provider.serveLocked requests schedule) (provider.serve requests schedule') := by
  obtain ⟨schedule', hSimulates⟩ := (sections_implement provider).simulates
    (fun k => provider.handler (requests k)) .empty schedule
  refine ⟨schedule', hSimulates.log.symm, fun k => (hSimulates.rest_eq k).symm, hSimulates.free,
    fun k a next left hInside => hSimulates.exclusive hInside, ?_⟩
  intro k u notFound next left hInside
  obtain ⟨_, _, _, body, t, hHeld, hBody, hDoes⟩ := hSimulates.held k (hSimulates.exclusive hInside)
  obtain ⟨rfl, rfl, hLeft⟩ := Stage.inside.inj (hInside.symm.trans hHeld)
  cases hLeft
  cases hBody
  exact destroyBlock_nonnull provider hDoes

/-- No handler keeps the mutex: whatever the others do, it has released it after five turns of its
own, unless the process has ended. An exception of `destroy()` leaves the handler and ends it. -/
theorem mutex_released (provider : ProviderImpl BackendType Json) (requests : ι → Request)
    (schedule further : List (ι × Outcomes BackendType Json)) (k : ι)
    (hHolder : (provider.serveLocked requests schedule).holder = some k)
    (hTurns : 5 ≤ turns k further) :
    ∃ pre, pre <+: further ∧ ((provider.serveLocked requests (schedule ++ pre)).shared.terminated = true ∨
      (provider.serveLocked requests (schedule ++ pre)).holder ≠ some k) := by
  obtain ⟨_, hSimulates⟩ := (sections_implement provider).simulates
    (fun k => provider.handler (requests k)) .empty schedule
  obtain ⟨a, next, left, body, t, hInside, hBody, hDoes⟩ := hSimulates.held k hHolder
  obtain ⟨hLength, hWithin⟩ := hDoes.path.within (block_within hBody)
  obtain ⟨pre, hPrefix, hOut⟩ := provider.sections.released k further _ hInside
    (hWithin.mono (Nat.sub_le 4 t.length)) hTurns
  refine ⟨pre, hPrefix, ?_⟩
  rw [ProviderImpl.serveLocked, Sections.run, List.foldl_append]
  rcases hOut with hEnded | ⟨p, hOutside⟩
  · exact .inl hEnded
  · refine .inr fun hAgain => ?_
    obtain ⟨_, hAfter⟩ := (sections_implement provider).simulates
      (fun k => provider.handler (requests k)) .empty (schedule ++ pre)
    rw [Sections.run, List.foldl_append] at hAfter
    obtain ⟨_, _, _, _, _, hInside', _⟩ := hAfter.held k hAgain
    cases hOutside.symm.trans hInside'

end Runs

theorem check_releases_mutex : ∃ pre,
    pre <+: List.replicate 5 ((), DummySequencer.outcomes .cleared 0) ∧
      (((dummyProvider "").serveLocked (fun _ : Unit => .checkSequencer .cleared)
          ([((), DummySequencer.outcomes .cleared 0)] ++ pre)).shared.terminated = true ∨
        ((dummyProvider "").serveLocked (fun _ : Unit => .checkSequencer .cleared)
          ([((), DummySequencer.outcomes .cleared 0)] ++ pre)).holder ≠ some ()) :=
  mutex_released (dummyProvider "") _ [((), DummySequencer.outcomes .cleared 0)] _ () rfl (by decide)

end Mobject
