import Mathlib.Order.Monotone.Basic
import Mobject.Provider.Callbacks

/-! # The example server

`examples/server.cpp`: the providers are elements of a `std::vector`, which moves them into a new
storage whenever it is full. Each such move leaves a finalize callback behind.
-/
namespace Mobject
open Runs
set_option autoImplicit false

def capacities (grow : Nat → Nat) : Nat → Nat
  | 0 => 0
  | k + 1 => grow (capacities grow k)

/-- How `std::vector<Provider>` grows, addresses being counted in providers: the capacity that
follows a full one, and where each storage begins. The old storage is given back after the move,
so a later one can be in its place. -/
structure Growth where
  grow : Nat → Nat
  grows : ∀ n, n < grow n
  base : Nat → Nat
  apart : ∀ k, base k + capacities grow k ≤ base (k + 1) ∨
    base (k + 1) + capacities grow (k + 1) ≤ base k

namespace Growth
variable (g : Growth)

def capacity : Nat → Nat := capacities g.grow

/-- The element `j` of the `k`th storage. -/
def slot (k j : Nat) : Address := g.base k + j

@[simp] theorem slot_inj {k i j : Nat} : g.slot k i = g.slot k j ↔ i = j := Nat.add_left_cancel_iff

theorem slot_ne {k i j : Nat} (hNew : i < g.capacity (k + 1)) (hOld : j < g.capacity k) :
    g.slot (k + 1) i ≠ g.slot k j := by
  intro (hSame : g.base (k + 1) + i = g.base k + j)
  have hApart := g.apart k
  unfold capacity at hNew hOld
  omega

theorem capacity_lt (k : Nat) : g.capacity k < g.capacity (k + 1) := g.grows _

theorem capacity_le {k l : Nat} (h : k ≤ l) : g.capacity k ≤ g.capacity l :=
  monotone_nat_of_le_succ (fun k => (g.capacity_lt k).le) h

end Growth

namespace Process
variable (s : Process)

def move (this other : Address) : Process :=
  match s.objects other with
  | some object => s.moveConstruct this other object
  | none => s

def drop (this : Address) : Process :=
  match s.objects this with
  | some object => s.destroy this object
  | none => s

end Process

structure ProviderVector where
  process : Process
  storage : Nat
  size : Nat

namespace Growth
variable (g : Growth)

/-- The first `i` elements of the storage `k` are moved to the next one. -/
def moveAll (k : Nat) (s : Process) : Nat → Process
  | 0 => s
  | i + 1 => (moveAll k s i).move (g.slot (k + 1) i) (g.slot k i)

def dropAll (k : Nat) (s : Process) : Nat → Process
  | 0 => s
  | i + 1 => (dropAll k s i).drop (g.slot k i)

/-- `providers.emplace_back(engine, provider_id)`. In a new storage the new element comes first,
then the old ones are moved, then they are destroyed. -/
def emplace_back (v : ProviderVector) (provider_id : UInt16) : ProviderVector :=
  if v.size < g.capacity v.storage then
    { v with process := v.process.construct (g.slot v.storage v.size) provider_id
             size := v.size + 1 }
  else
    let s := v.process.construct (g.slot (v.storage + 1) v.size) provider_id
    let s := g.moveAll v.storage s v.size
    { process := g.dropAll v.storage s v.size
      storage := v.storage + 1
      size := v.size + 1 }

/-- `for(unsigned i=0 ; i < g_num_providers; i++)`, whose `i` becomes a `uint16_t`. -/
def providers : Nat → ProviderVector
  | 0 => ⟨.start, 0, 0⟩
  | i + 1 => g.emplace_back (providers i) (UInt16.ofNat i)

/-- `main`, from the loop over `engine.wait_for_finalize()` to the end of `providers`. -/
def main (g_num_providers : Nat) : Process :=
  let v := g.providers g_num_providers
  g.dropAll v.storage v.process.finalize v.size

end Growth

namespace Process

/-- A valid `Provider` at `p`, with its callback. -/
def Holds (s : Process) (p : Address) : Prop :=
  ∃ object, s.objects p = some object ∧ object.self ≠ none ∧ ⟨p, p, object.serial⟩ ∈ s.callbacks

def Emptied (s : Process) (p : Address) : Prop :=
  ∃ object, s.objects p = some object ∧ object.self = none

def Expects (s : Process) (p : Address) : Prop := ∃ callback ∈ s.callbacks, callback.owner = p ∧ callback.p = p

structure Serving (s : Process) : Prop where
  run : ∃ steps, Run ProviderStep .start steps s
  fault : s.fault = none
  live : s.finalized = false

/-- Nothing but the objects at `this` and `other` has changed; a callback may only be gone where it
is owned by `this`. -/
structure Frames (s t : Process) (this other : Address) : Prop where
  objects : ∀ p, p ≠ this → p ≠ other → t.objects p = s.objects p
  callbacks : ∀ callback ∈ s.callbacks, callback.owner ≠ this → callback ∈ t.callbacks

variable {s t : Process} {this other p : Address}

theorem Holds.expects (h : s.Holds p) : s.Expects p := by
  obtain ⟨object, _, _, hCallback⟩ := h
  exact ⟨_, hCallback, rfl, rfl⟩

theorem Frames.holds (h : Frames s t this other) (hThis : p ≠ this) (hOther : p ≠ other)
    (hHolds : s.Holds p) : t.Holds p := by
  obtain ⟨object, hObject, hValid, hCallback⟩ := hHolds
  exact ⟨object, (h.objects p hThis hOther).trans hObject, hValid, h.callbacks _ hCallback hThis⟩

theorem Frames.emptied (h : Frames s t this other) (hThis : p ≠ this) (hOther : p ≠ other)
    (hEmptied : s.Emptied p) : t.Emptied p := by
  obtain ⟨object, hObject, hNull⟩ := hEmptied
  exact ⟨object, (h.objects p hThis hOther).trans hObject, hNull⟩

theorem Frames.expects (h : Frames s t this other) (hThis : p ≠ this) (hExpects : s.Expects p) :
    t.Expects p := by
  obtain ⟨callback, hMem, hOwner, hp⟩ := hExpects
  exact ⟨callback, h.callbacks _ hMem (hOwner ▸ hThis), hOwner, hp⟩

theorem Serving.next (h : s.Serving) {op : ProviderOperation} (hStep : ProviderStep s op t)
    (hFault : t.fault = s.fault) (hLive : t.finalized = s.finalized) : t.Serving := by
  obtain ⟨steps, hRun⟩ := h.run
  exact ⟨⟨_, hRun.snoc hStep⟩, hFault.trans h.fault, hLive.trans h.live⟩

structure Constructed (s t : Process) (this : Address) : Prop where
  serving : t.Serving
  holds : t.Holds this
  frames : Frames s t this this

theorem Serving.construct (h : s.Serving) (hFree : s.objects this = none) (provider_id : UInt16) :
    Constructed s (s.construct this provider_id) this := by
  refine ⟨h.next (.construct this provider_id h.fault hFree) rfl rfl, ?_, ?_, ?_⟩
  · exact ⟨⟨s.constructed, some provider_id⟩, Function.update_self .., by simp, List.mem_cons_self⟩
  · exact fun p hThis _ => Function.update_of_ne hThis _ _
  · exact fun callback hMem _ => List.mem_cons_of_mem _ hMem

structure Moved (s t : Process) (this other : Address) : Prop where
  serving : t.Serving
  holds : t.Holds this
  emptied : t.Emptied other
  frames : Frames s t this other

theorem Serving.move (h : s.Serving) (hFree : s.objects this = none) (hOther : s.Holds other) :
    Moved s (s.move this other) this other := by
  obtain ⟨object, hObject, hValid, _⟩ := hOther
  have hNe : other ≠ this := by
    rintro rfl
    rw [hFree] at hObject
    cases hObject
  cases hSelf : object.self with
  | none => exact absurd hSelf hValid
  | some impl =>
    have hMove : s.move this other = s.moveConstruct this other object := by
      rw [Process.move, hObject]
    have hStep : ProviderStep s (.moveConstruct this other) (s.move this other) :=
      hMove ▸ .moveConstruct this other object h.fault hFree hObject
    have hEq := hMove
    rw [moveConstruct, hSelf] at hEq
    refine ⟨h.next hStep ?_ ?_, ?_, ?_, ?_, ?_⟩
    · rw [hEq]
      simp
    · rw [hEq]
      simp
    · rw [hEq]
      exact ⟨⟨s.constructed, some impl⟩, by simp [Ne.symm hNe], by simp, List.mem_cons_self⟩
    · rw [hEq]
      exact ⟨{ object with self := none }, by simp, rfl⟩
    · intro p hThis hOther
      rw [hEq]
      simp [hThis, hOther]
    · intro callback hMem hOwner
      rw [hEq]
      refine List.mem_cons_of_mem _ ((List.mem_eraseP_of_neg ?_).mpr hMem)
      simpa using hOwner

theorem Emptied.drop_eq (h : s.Emptied this) : s.drop this = s.set this none := by
  obtain ⟨object, hObject, hNull⟩ := h
  rw [drop, hObject]
  simp [destroy, hNull]

theorem Serving.drop (h : s.Serving) (hEmptied : s.Emptied this) : (s.drop this).Serving := by
  obtain ⟨object, hObject, _⟩ := id hEmptied
  have hDrop : s.drop this = s.destroy this object := by rw [Process.drop, hObject]
  have hStep : ProviderStep s (.destroy this) (s.drop this) :=
    hDrop ▸ .destroy this object h.fault hObject
  refine h.next hStep ?_ ?_
  · rw [hEmptied.drop_eq, fault_set]
  · rw [hEmptied.drop_eq, finalized_set]

theorem Emptied.frames_drop (h : s.Emptied this) : Frames s (s.drop this) this this := by
  rw [h.drop_eq]
  exact ⟨fun p hp _ => Function.update_of_ne hp _ _, fun callback hMem _ => hMem⟩

theorem Emptied.expects_drop (h : s.Emptied this) (hExpects : s.Expects p) :
    (s.drop this).Expects p := by
  rw [h.drop_eq]
  exact hExpects

@[simp] theorem Emptied.objects_drop (h : s.Emptied this) : (s.drop this).objects this = none := by
  rw [h.drop_eq, objects_set, Function.update_self]

end Process

section Relocation
variable {g : Growth} {k n i : Nat} {s : Process}

/-- Of `n` elements the first `i` have been moved to the next storage, where the new one is. -/
structure Moving (g : Growth) (k n i : Nat) (s : Process) : Prop where
  serving : s.Serving
  moved : ∀ j < i, s.Holds (g.slot (k + 1) j)
  emptied : ∀ j < i, s.Emptied (g.slot k j)
  unmoved : ∀ j < n, i ≤ j → s.Holds (g.slot k j)
  last : s.Holds (g.slot (k + 1) n)
  expects : ∀ j < n, s.Expects (g.slot k j)
  nowhere : ∀ p, (∀ j < n, p ≠ g.slot k j) → (∀ j < i, p ≠ g.slot (k + 1) j) →
    p ≠ g.slot (k + 1) n → s.objects p = none

theorem Moving.move (h : Moving g k n i s) (hOld : n ≤ g.capacity k) (hNew : n < g.capacity (k + 1))
    (hi : i < n) : Moving g k n (i + 1) (s.move (g.slot (k + 1) i) (g.slot k i)) := by
  have hApart : ∀ {a b : Nat}, a ≤ n → b < n → g.slot (k + 1) a ≠ g.slot k b := fun ha hb =>
    g.slot_ne (ha.trans_lt hNew) (hb.trans_le hOld)
  have hFree : s.objects (g.slot (k + 1) i) = none := by
    refine h.nowhere _ (fun j hj => hApart hi.le hj) (fun j hj => ?_) ?_
    · simpa using hj.ne'
    · simpa using hi.ne
  have hMoved := h.serving.move hFree (h.unmoved i hi le_rfl)
  refine ⟨hMoved.serving, fun j hj => ?_, fun j hj => ?_, fun j hj hij => ?_, ?_, fun j hj => ?_, ?_⟩
  · rcases Nat.lt_succ_iff_lt_or_eq.mp hj with hBefore | rfl
    · exact hMoved.frames.holds (by simpa using hBefore.ne) (hApart (hBefore.trans hi).le hi)
        (h.moved j hBefore)
    · exact hMoved.holds
  · rcases Nat.lt_succ_iff_lt_or_eq.mp hj with hBefore | rfl
    · exact hMoved.frames.emptied (hApart hi.le (hBefore.trans hi)).symm (by simpa using hBefore.ne)
        (h.emptied j hBefore)
    · exact hMoved.emptied
  · exact hMoved.frames.holds (hApart hi.le hj).symm (by simpa using (Nat.lt_of_succ_le hij).ne')
      (h.unmoved j hj (Nat.le_of_succ_le hij))
  · exact hMoved.frames.holds (by simpa using hi.ne') (hApart le_rfl hi) h.last
  · exact hMoved.frames.expects (hApart hi.le hj).symm (h.expects j hj)
  · intro p hOlds hNews hLast
    rw [hMoved.frames.objects p (hNews i i.lt_succ_self) (hOlds i hi)]
    exact h.nowhere p hOlds (fun j hj => hNews j (Nat.lt_succ_of_lt hj)) hLast

theorem Moving.moveAll (h : Moving g k n 0 s) (hOld : n ≤ g.capacity k)
    (hNew : n < g.capacity (k + 1)) (hi : i ≤ n) : Moving g k n i (g.moveAll k s i) := by
  induction i with
  | zero => exact h
  | succ i ih => exact (ih (Nat.le_of_succ_le hi)).move hOld hNew hi

/-- The first `i` of the `n` objects that have been moved from are destroyed. -/
structure Dropping (g : Growth) (k n i : Nat) (s : Process) : Prop where
  serving : s.Serving
  moved : ∀ j ≤ n, s.Holds (g.slot (k + 1) j)
  emptied : ∀ j < n, i ≤ j → s.Emptied (g.slot k j)
  expects : ∀ j < n, s.Expects (g.slot k j)
  nowhere : ∀ p, (∀ j < n, i ≤ j → p ≠ g.slot k j) → (∀ j ≤ n, p ≠ g.slot (k + 1) j) →
    s.objects p = none

theorem Moving.dropping (h : Moving g k n n s) : Dropping g k n 0 s := by
  refine ⟨h.serving, fun j hj => ?_, fun j hj _ => h.emptied j hj, h.expects, ?_⟩
  · rcases Nat.lt_or_eq_of_le hj with hBefore | rfl
    · exact h.moved j hBefore
    · exact h.last
  · intro p hOlds hNews
    exact h.nowhere p (fun j hj => hOlds j hj (Nat.zero_le j)) (fun j hj => hNews j hj.le)
      (hNews n le_rfl)

theorem Dropping.drop (h : Dropping g k n i s) (hOld : n ≤ g.capacity k)
    (hNew : n < g.capacity (k + 1)) (hi : i < n) : Dropping g k n (i + 1) (s.drop (g.slot k i)) := by
  have hEmptied := h.emptied i hi le_rfl
  refine ⟨h.serving.drop hEmptied, fun j hj => ?_, fun j hj hij => ?_, fun j hj => ?_, ?_⟩
  · have hNe := g.slot_ne (hj.trans_lt hNew) (hi.trans_le hOld)
    exact hEmptied.frames_drop.holds hNe hNe (h.moved j hj)
  · have hNe : g.slot k j ≠ g.slot k i := by simpa using (Nat.lt_of_succ_le hij).ne'
    exact hEmptied.frames_drop.emptied hNe hNe (h.emptied j hj (Nat.le_of_succ_le hij))
  · exact hEmptied.expects_drop (h.expects j hj)
  · intro p hOlds hNews
    rcases eq_or_ne p (g.slot k i) with rfl | hp
    · exact hEmptied.objects_drop
    · rw [hEmptied.frames_drop.objects p hp hp]
      refine h.nowhere p (fun j hj hij => ?_) hNews
      rcases Nat.lt_or_eq_of_le hij with hAfter | rfl
      · exact hOlds j hj hAfter
      · exact hp

theorem Dropping.dropAll (h : Dropping g k n 0 s) (hOld : n ≤ g.capacity k)
    (hNew : n < g.capacity (k + 1)) (hi : i ≤ n) : Dropping g k n i (g.dropAll k s i) := by
  induction i with
  | zero => exact h
  | succ i ih => exact (ih (Nat.le_of_succ_le hi)).drop hOld hNew hi

end Relocation

/-- What holds of the vector after every round of the loop. From the second storage on, the first
element of the one before is still called back. -/
structure Growing (g : Growth) (v : ProviderVector) : Prop where
  serving : v.process.Serving
  fits : v.size ≤ g.capacity v.storage
  grown : ∀ k, v.storage = k + 1 → g.capacity k < v.size
  element : ∀ j < v.size, v.process.Holds (g.slot v.storage j)
  nowhere : ∀ p, (∀ j < v.size, p ≠ g.slot v.storage j) → v.process.objects p = none
  matched : v.storage ≤ 1 → Matched v.process
  stale : ∀ k, v.storage = k + 2 → v.process.Expects (g.slot (k + 1) 0)

section Loop
variable {g : Growth} {v : ProviderVector}

theorem capacity_succ_pos (k : Nat) : 0 < g.capacity (k + 1) := (Nat.zero_le _).trans_lt (g.capacity_lt k)

theorem providers_start : Growing g (g.providers 0) where
  serving := ⟨⟨_, .nil⟩, rfl, rfl⟩
  fits := Nat.zero_le _
  grown _ hk := by cases hk
  element _ hj := by cases hj
  nowhere _ _ := rfl
  matched _ := start_matched
  stale _ hk := by cases hk

theorem Growing.emplace_within (h : Growing g v) (provider_id : UInt16)
    (hRoom : v.size < g.capacity v.storage) :
    Growing g ⟨v.process.construct (g.slot v.storage v.size) provider_id, v.storage, v.size + 1⟩ := by
  have hFree : v.process.objects (g.slot v.storage v.size) = none :=
    h.nowhere _ fun j hj => by simpa using hj.ne'
  have hNew := h.serving.construct hFree provider_id
  refine ⟨hNew.serving, hRoom, fun k hk => Nat.lt_succ_of_lt (h.grown k hk), fun j hj => ?_,
    fun p hp => ?_, fun hFirst => (h.matched hFirst).construct provider_id hFree, fun k hk => ?_⟩
  · rcases Nat.lt_succ_iff_lt_or_eq.mp hj with hBefore | rfl
    · have hNe : g.slot v.storage j ≠ g.slot v.storage v.size := by simpa using hBefore.ne
      exact hNew.frames.holds hNe hNe (h.element j hBefore)
    · exact hNew.holds
  · have hLast := hp v.size v.size.lt_succ_self
    rw [hNew.frames.objects p hLast hLast]
    exact h.nowhere p fun j hj => hp j (Nat.lt_succ_of_lt hj)
  · obtain ⟨process, storage, size⟩ := v
    obtain rfl : storage = k + 2 := hk
    exact hNew.frames.expects (g.slot_ne hRoom (capacity_succ_pos k)).symm (h.stale k rfl)

/-- A full vector, with the new element constructed in the next storage. -/
theorem Growing.moving (h : Growing g v) (provider_id : UInt16) :
    Moving g v.storage v.size 0
      (v.process.construct (g.slot (v.storage + 1) v.size) provider_id) := by
  have hRoom : v.size < g.capacity (v.storage + 1) := h.fits.trans_lt (g.capacity_lt _)
  have hApart : ∀ j < v.size, g.slot (v.storage + 1) v.size ≠ g.slot v.storage j := fun j hj =>
    g.slot_ne hRoom (hj.trans_le h.fits)
  have hNew := h.serving.construct (h.nowhere _ hApart) provider_id
  have hHolds : ∀ j < v.size, (v.process.construct (g.slot (v.storage + 1) v.size)
      provider_id).Holds (g.slot v.storage j) := fun j hj =>
    hNew.frames.holds (hApart j hj).symm (hApart j hj).symm (h.element j hj)
  refine ⟨hNew.serving, fun _ hj => (by cases hj), fun _ hj => (by cases hj), fun j hj _ => hHolds j hj,
    hNew.holds, fun j hj => (hHolds j hj).expects, fun p hOlds _ hLast => ?_⟩
  rw [hNew.frames.objects p hLast hLast]
  exact h.nowhere p hOlds

theorem Growing.emplace_beyond (h : Growing g v) (provider_id : UInt16)
    (hFull : g.capacity v.storage ≤ v.size) :
    Growing g ⟨g.dropAll v.storage (g.moveAll v.storage
      (v.process.construct (g.slot (v.storage + 1) v.size) provider_id) v.size) v.size,
      v.storage + 1, v.size + 1⟩ := by
  have hSize := h.fits.antisymm hFull
  have hRoom : v.size < g.capacity (v.storage + 1) := h.fits.trans_lt (g.capacity_lt _)
  have hMoved := (h.moving provider_id).moveAll h.fits hRoom le_rfl
  have hDropped := hMoved.dropping.dropAll h.fits hRoom le_rfl
  refine ⟨hDropped.serving, hRoom, fun k hk => ?_, fun j hj => hDropped.moved j (Nat.le_of_lt_succ hj),
    fun p hp => ?_, fun hFirst => ?_, fun k hk => ?_⟩
  · obtain rfl : v.storage = k := Nat.succ_injective hk
    exact hSize ▸ v.size.lt_succ_self
  · refine hDropped.nowhere p (fun j hj hLate => absurd hj hLate.not_gt) fun j hj => ?_
    exact hp j (Nat.lt_succ_of_le hj)
  · -- the first storage has nothing to move
    obtain ⟨process, storage, size⟩ := v
    obtain rfl : storage = 0 := by simpa using hFirst
    obtain rfl : size = 0 := hSize
    exact (h.matched (Nat.zero_le 1)).construct provider_id (h.nowhere _ fun _ hj => (by cases hj))
  · have hStorage : v.storage = k + 1 := Nat.succ_injective hk
    have hSome : 0 < v.size := by
      rw [hSize, hStorage]
      exact capacity_succ_pos k
    rw [← hStorage]
    exact hDropped.expects 0 hSome

theorem Growing.emplace_back (h : Growing g v) (provider_id : UInt16) :
    Growing g (g.emplace_back v provider_id) := by
  unfold Growth.emplace_back
  split
  · next hRoom => exact h.emplace_within provider_id hRoom
  · next hFull => exact h.emplace_beyond provider_id (not_lt.mp hFull)

theorem providers_growing (n : Nat) : Growing g (g.providers n) := by
  induction n with
  | zero => exact providers_start
  | succ n ih => exact ih.emplace_back _

theorem size_providers (n : Nat) : (g.providers n).size = n := by
  induction n with
  | zero => rfl
  | succ n ih =>
    rw [Growth.providers, Growth.emplace_back]
    split <;> simp [ih]

theorem Growing.storage_le_iff (h : Growing g v) : v.storage ≤ 1 ↔ v.size ≤ g.grow 0 := by
  constructor
  · exact fun hFirst => h.fits.trans (g.capacity_le hFirst)
  · intro hSize
    by_contra hLater
    obtain ⟨k, hk⟩ := Nat.exists_eq_add_of_lt (not_le.mp hLater)
    have hGrown := h.grown (k + 1) (by omega)
    exact absurd (hGrown.trans_le hSize) (not_lt.mpr (g.capacity_le (Nat.le_add_left 1 k)))

end Loop

section Finalize
variable {g : Growth} {s : Process} {p : Address}

theorem runCallback_none (callback : FinalizeCallback) (h : s.objects p = none) :
    (s.runCallback callback).objects p = none := by
  rw [Process.objects_runCallback, h, Option.map_none]

theorem runCallback_fault (callback : FinalizeCallback) (h : s.fault = some .danglingCallback) :
    (s.runCallback callback).fault = some .danglingCallback := by
  unfold Process.runCallback
  split
  · split
    · exact h
    · rfl
  · rfl

theorem finalize_none (h : s.objects p = none) : s.finalize.objects p = none := by
  have hObjects : s.finalize.objects p = _ := Process.objects_foldl_runCallback s.callbacks s p
  rw [hObjects, h, Option.map_none]

theorem foldl_runCallback_fault (callbacks : List FinalizeCallback) (hGone : s.objects p = none)
    (h : s.fault = some .danglingCallback ∨ ∃ callback ∈ callbacks, callback.p = p) :
    (callbacks.foldl Process.runCallback s).fault = some .danglingCallback := by
  induction callbacks generalizing s with
  | nil => exact h.resolve_right fun ⟨_, hMem, _⟩ => by cases hMem
  | cons callback callbacks ih =>
    refine ih (runCallback_none callback hGone) ?_
    rcases h with hFault | ⟨c, hMem, hp⟩
    · exact .inl (runCallback_fault callback hFault)
    · rcases List.mem_cons.mp hMem with rfl | hLater
      · left
        simp [Process.runCallback, hp, hGone]
      · exact .inr ⟨c, hLater, hp⟩

theorem finalize_fault (hExpects : s.Expects p) (hGone : s.objects p = none) :
    s.finalize.fault = some .danglingCallback := by
  obtain ⟨callback, hMem, _, hp⟩ := hExpects
  exact foldl_runCallback_fault s.callbacks hGone (.inr ⟨callback, hMem, hp⟩)

theorem fault_drop (s : Process) (this : Address) : (s.drop this).fault = s.fault := by
  unfold Process.drop
  split
  · unfold Process.destroy
    split <;> simp
  · rfl

theorem objects_drop (s : Process) (this : Address) :
    (s.drop this).objects = Function.update s.objects this none := by
  unfold Process.drop
  split
  · exact s.objects_destroy this _
  · next hNone => rw [← hNone, Function.update_eq_self]

theorem fault_dropAll (k : Nat) (s : Process) (i : Nat) : (g.dropAll k s i).fault = s.fault := by
  induction i with
  | zero => rfl
  | succ i ih => exact (fault_drop _ _).trans ih

theorem dropAll_none {k i : Nat} (h : (∀ j < i, p ≠ g.slot k j) → s.objects p = none) :
    (g.dropAll k s i).objects p = none := by
  induction i with
  | zero => exact h fun _ hj => (by cases hj)
  | succ i ih =>
    rw [Growth.dropAll, objects_drop]
    rcases eq_or_ne p (g.slot k i) with rfl | hp
    · exact Function.update_self ..
    · rw [Function.update_of_ne hp]
      refine ih fun hBefore => h fun j hj => ?_
      rcases Nat.lt_succ_iff_lt_or_eq.mp hj with hEarly | rfl
      · exact hBefore j hEarly
      · exact hp

end Finalize

/-- Finalization calls back live objects only and resets them all; then they are destroyed. -/
structure EndsWell (g : Growth) (n : Nat) : Prop where
  finalizes : StepsWell (g.providers n).process .finalize (g.providers n).process.finalize
  fault : (g.main n).fault = none
  destroyed : ∀ p, (g.main n).objects p = none

/-- A server of `n` providers ends well exactly if the first storage of the vector has room for all
of them. Otherwise the engine calls back a provider that has been moved and destroyed. -/
theorem server_ends_well_iff (g : Growth) (n : Nat) :
    ((∃ steps, Run ProviderStep .start steps (g.providers n).process) ∧
        (g.providers n).process.fault = none) ∧
      (EndsWell g n ↔ n ≤ g.grow 0) ∧
      (g.grow 0 < n → (g.main n).fault = some .danglingCallback) := by
  have hGrowing := providers_growing (g := g) n
  have hStorage := hGrowing.storage_le_iff
  rw [size_providers] at hStorage
  have hFault : g.grow 0 < n → (g.main n).fault = some .danglingCallback := by
    intro hMany
    have hLater := mt hStorage.mp (not_le.mpr hMany)
    obtain ⟨k, hk⟩ : ∃ k, (g.providers n).storage = k + 2 := ⟨(g.providers n).storage - 2, by omega⟩
    refine (fault_dropAll _ _ _).trans (finalize_fault (hGrowing.stale k hk) ?_)
    refine hGrowing.nowhere _ fun j hj => ?_
    rw [hk]
    exact (g.slot_ne (hj.trans_le (hk ▸ hGrowing.fits)) (capacity_succ_pos k)).symm
  refine ⟨⟨hGrowing.serving.run, hGrowing.serving.fault⟩, ⟨fun hWell => ?_, fun hFew => ?_⟩, hFault⟩
  · by_contra hMany
    have hNone := hWell.fault
    rw [hFault (not_le.mp hMany)] at hNone
    cases hNone
  · have hMatched := hGrowing.matched (hStorage.mpr hFew)
    have hStep : ProviderStep (g.providers n).process .finalize (g.providers n).process.finalize :=
      .finalize hGrowing.serving.fault hGrowing.serving.live
    have hFinalizes := hStep.stepsWell (fun _ => hMatched) trivial
    refine ⟨hFinalizes, (fault_dropAll _ _ _).trans hFinalizes.noFault, fun p => dropAll_none ?_⟩
    exact fun hNone => finalize_none (hGrowing.nowhere p hNone)

/-- The growth of libstdc++, where the second provider moves the first. -/
def doubling : Growth where
  grow n := n + max n 1
  grows n := by omega
  base k := 2 * capacities (fun n => n + max n 1) k
  apart k := by
    left
    simp only [capacities]
    omega

example : (doubling.main 1).fault = none ∧ (doubling.main 2).fault = some .danglingCallback := by decide

end Mobject
