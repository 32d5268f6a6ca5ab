import Mobject.AsyncRequest

/-! # How each operation on requests can end

`Outcome` lists, for every operation, its exits and the heap they leave. An implicit wait, the
prelude of the destructor and of both assignments, is a case analysis of its own.
-/
namespace Mobject
open SharedOwnership Unwinding AsyncRequest
open Proc (bind_normal bind_threw noexcept_normal noexcept_threw inScope_normal inScope_threw)
set_option autoImplicit false

namespace Heap
variable (s : Heap) (i : ImplId)

/-- What the next `m_async_response.wait()` returns. -/
def answer : RequestResult Int32 :=
  (s.impl i).m_async_response.answers (s.impl i).m_async_response.waits

def deliver : Heap :=
  let t := (s.record (.invoked i)).consume i
  if (s.answer i).success then
    match (s.impl i).result with
    | some result => t.store (some i) result (s.answer i).value
    | none => t
  else t

def settle : Heap := (s.deliver i).setWaited i

@[simp] theorem self_deliver : (s.deliver i).self = s.self := by
  unfold deliver
  split
  · split <;> rfl
  · rfl

@[simp] theorem next_deliver : (s.deliver i).next = s.next := by
  unfold deliver
  split
  · split <;> rfl
  · rfl

@[simp] theorem self_settle : (s.settle i).self = s.self := self_deliver s i
@[simp] theorem next_settle : (s.settle i).next = s.next := next_deliver s i

end Heap

/-- How a callback ends that is given this response. -/
def verdict (response : RequestResult Int32) : Exit Exception Unit :=
  if response.success then .normal () else .threw ⟨response.error⟩

variable (s : Heap)

theorem m_wait_callback_eq (i : ImplId) :
    m_wait_callback i s = (verdict (s.answer i), s.deliver i) := by
  simp only [m_wait_callback, Proc.modify_bind, Proc.get_bind, verdict, Heap.deliver]
  change (if (s.answer i).success = true then _ else _ : Client Unit) _ = _
  by_cases hSuccess : (s.answer i).success = true
  · rw [if_pos hSuccess, if_pos hSuccess, if_pos hSuccess]
    have hResult : (((s.record (.invoked i)).consume i).impl i).result = (s.impl i).result := by
      simp [Heap.consume, Heap.record]
    rw [Proc.get_bind, hResult]
    cases (s.impl i).result with
    | none => rfl
    | some result => rfl
  · rw [if_neg hSuccess, if_neg hSuccess, if_neg hSuccess]
    rfl

inductive WaitOutcome (this : Owner) : Exit Exception Unit → Heap → Prop
  | invalid : s.self.owner this = none →
      WaitOutcome this (.threw ⟨"Invalid mobject::AsyncRequest object"⟩) s
  | again (i : ImplId) : s.self.owner this = some i → (s.impl i).m_waited = true →
      WaitOutcome this (.normal ()) s
  | settled (i : ImplId) : s.self.owner this = some i → (s.impl i).m_waited = false →
      (s.answer i).success = true → WaitOutcome this (.normal ()) (s.settle i)
  | failed (i : ImplId) : s.self.owner this = some i → (s.impl i).m_waited = false →
      (s.answer i).success = false →
      WaitOutcome this (.threw ⟨(s.answer i).error⟩) (s.deliver i)

theorem wait_outcome (this : Owner) :
    WaitOutcome s this (AsyncRequest.wait this s).1 (AsyncRequest.wait this s).2 := by
  simp only [AsyncRequest.wait, AsyncRequest.self, Proc.get_bind]
  cases hSelf : s.self.owner this with
  | none => exact .invalid hSelf
  | some i =>
    simp only [Proc.get_bind]
    cases hWaited : (s.impl i).m_waited with
    | true => exact .again i hSelf hWaited
    | false =>
      simp only [Bool.false_eq_true, ↓reduceIte]
      cases hSuccess : (s.answer i).success with
      | true =>
        have hCallback : m_wait_callback i s = (.normal (), s.deliver i) := by
          simp [m_wait_callback_eq, verdict, hSuccess]
        rw [bind_normal hCallback]
        exact .settled i hSelf hWaited hSuccess
      | false =>
        have hCallback : m_wait_callback i s = (.threw ⟨(s.answer i).error⟩, s.deliver i) := by
          simp [m_wait_callback_eq, verdict, hSuccess]
        rw [bind_threw hCallback]
        exact .failed i hSelf hWaited hSuccess

theorem completed_invalid {this : Owner} (received : Bool) (h : s.self.owner this = none) :
    AsyncRequest.completed this received s =
      (.threw ⟨"Invalid mobject::AsyncRequest object"⟩, s) := by
  simp only [AsyncRequest.completed, AsyncRequest.self, Proc.get_bind, h]
  rfl

theorem completed_received {this : Owner} (received : Bool) {i : ImplId}
    (h : s.self.owner this = some i) :
    AsyncRequest.completed this received s = (.normal received, s.record (.received i)) := by
  simp only [AsyncRequest.completed, AsyncRequest.self, Proc.get_bind, h]
  rfl

/-- How `if(self && self.unique()) wait();` ends. -/
inductive Prelude (this : Owner) : Exit Exception Unit → Heap → Prop
  | idle : (∀ i, s.self.owner this = some i → s.self.uses i = 1 → (s.impl i).m_waited = true) →
      Prelude this (.normal ()) s
  | settled (i : ImplId) : s.self.owner this = some i → s.self.uses i = 1 →
      (s.impl i).m_waited = false → (s.answer i).success = true →
      Prelude this (.normal ()) (s.settle i)
  | failed (i : ImplId) : s.self.owner this = some i → s.self.uses i = 1 →
      (s.impl i).m_waited = false → (s.answer i).success = false →
      Prelude this (.threw ⟨(s.answer i).error⟩) (s.deliver i)

theorem waitIfUnique_prelude (this : Owner) :
    Prelude s this (waitIfUnique this s).1 (waitIfUnique this s).2 := by
  simp only [waitIfUnique, AsyncRequest.self, Proc.get_bind]
  cases hSelf : s.self.owner this with
  | none => exact .idle (by simp [hSelf])
  | some i =>
    simp only [Proc.get_bind]
    by_cases hUses : s.self.uses i = 1
    · rw [if_pos (by simpa using hUses)]
      have hWait := wait_outcome s this
      generalize (AsyncRequest.wait this s).1 = exit at hWait ⊢
      generalize (AsyncRequest.wait this s).2 = t at hWait ⊢
      cases hWait with
      | invalid hNone => rw [hSelf] at hNone; cases hNone
      | again j hSelf' hWaited =>
        refine .idle fun k hk _ => ?_
        rw [hSelf'] at hk
        exact Option.some.inj hk ▸ hWaited
      | settled j hSelf' hWaited hSuccess =>
        obtain rfl : i = j := Option.some.inj (hSelf.symm.trans hSelf')
        exact .settled i hSelf' hUses hWaited hSuccess
      | failed j hSelf' hWaited hSuccess =>
        obtain rfl : i = j := Option.some.inj (hSelf.symm.trans hSelf')
        exact .failed i hSelf' hUses hWaited hSuccess
    · rw [if_neg (by simpa using hUses)]
      refine .idle fun k hk hUses' => ?_
      rw [hSelf] at hk
      exact absurd (Option.some.inj hk ▸ hUses') hUses

theorem waitIfUnique_shared {this : Owner} (h : ∀ i, s.self.owner this = some i → s.self.uses i ≠ 1) :
    waitIfUnique this s = (.normal (), s) := by
  simp only [waitIfUnique, AsyncRequest.self, Proc.get_bind]
  cases hSelf : s.self.owner this with
  | none => rfl
  | some i => simp [h i hSelf]

theorem destructor_shared {this : Owner} (h : ∀ i, s.self.owner this = some i → s.self.uses i ≠ 1) :
    destructor this s = (.normal (), s.assign this none) := by
  apply noexcept_normal
  rw [bind_normal (waitIfUnique_shared s h)]
  rfl

inductive DestructorOutcome (this : Owner) : Exit Exception Unit → Heap → Prop
  | destroyed (t : Heap) : Prelude s this (.normal ()) t →
      DestructorOutcome this (.normal ()) (t.assign this none)
  | terminated (e : Exception) (t : Heap) : Prelude s this (.threw e) t →
      DestructorOutcome this .terminated t

theorem destructor_outcome (this : Owner) :
    DestructorOutcome s this (destructor this s).1 (destructor this s).2 := by
  have hPrelude := waitIfUnique_prelude s this
  cases hWait : waitIfUnique this s with
  | mk exit t =>
    rw [hWait] at hPrelude
    cases exit with
    | normal value =>
      have hDestructor : destructor this s = (.normal (), t.assign this none) :=
        noexcept_normal ((bind_normal hWait).trans rfl)
      rw [hDestructor]
      exact .destroyed t hPrelude
    | threw e =>
      have hDestructor : destructor this s = (.terminated, t) := noexcept_threw (bind_threw hWait)
      rw [hDestructor]
      exact .terminated e t hPrelude
    | terminated => cases hPrelude

namespace Heap

def copied (this other : Owner) : Heap := s.assign this (s.self.owner other)

def moved (this other : Owner) : Heap := (s.copied this other).assign other none

end Heap

/-- How an assignment ends whose last statements do `f`. -/
inductive AssignOutcome (this other : Owner) (f : Heap → Heap) : Exit Exception Unit → Heap → Prop
  | same : this = other ∨ s.self.owner this = s.self.owner other →
      AssignOutcome this other f (.normal ()) s
  | assigned (t : Heap) : this ≠ other → s.self.owner this ≠ s.self.owner other →
      Prelude s this (.normal ()) t → AssignOutcome this other f (.normal ()) (f t)
  | threw (e : Exception) (t : Heap) : this ≠ other → s.self.owner this ≠ s.self.owner other →
      Prelude s this (.threw e) t → AssignOutcome this other f (.threw e) t

theorem assignment_outcome (this other : Owner) (f : Heap → Heap) (finish : Client Unit)
    (hFinish : ∀ t, finish t = (.normal (), f t)) (assignment : Client Unit)
    (hAssignment : assignment s =
      if this = other ∨ s.self.owner this = s.self.owner other then (.normal (), s)
      else (waitIfUnique this >>= fun _ => finish) s) :
    AssignOutcome s this other f (assignment s).1 (assignment s).2 := by
  rw [hAssignment]
  by_cases hSame : this = other ∨ s.self.owner this = s.self.owner other
  · rw [if_pos hSame]
    exact .same hSame
  · rw [if_neg hSame]
    obtain ⟨hThis, hSelf⟩ := not_or.mp hSame
    have hPrelude := waitIfUnique_prelude s this
    cases hWait : waitIfUnique this s with
    | mk exit t =>
      rw [hWait] at hPrelude
      cases exit with
      | normal value =>
        rw [(bind_normal hWait).trans (hFinish t)]
        exact .assigned t hThis hSelf hPrelude
      | threw e =>
        rw [bind_threw hWait]
        exact .threw e t hThis hSelf hPrelude
      | terminated => cases hPrelude

theorem copyAssign_outcome (this other : Owner) :
    AssignOutcome s this other (fun t => t.copied this other)
      (copyAssign this other s).1 (copyAssign this other s).2 := by
  refine assignment_outcome s this other _ (copySelf this other) (fun t => rfl) _ ?_
  simp only [copyAssign, AsyncRequest.self, Proc.get_bind]
  split <;> rfl

theorem moveAssign_outcome (this other : Owner) :
    AssignOutcome s this other (fun t => t.moved this other)
      (moveAssign this other s).1 (moveAssign this other s).2 := by
  refine assignment_outcome s this other _ (moveSelf this other) (fun t => rfl) _ ?_
  simp only [moveAssign, AsyncRequest.self, Proc.get_bind]
  split <;> rfl

variable {s}

theorem Prelude.self_eq {this : Owner} {exit : Exit Exception Unit} {t : Heap}
    (h : Prelude s this exit t) : t.self = s.self := by
  cases h with
  | idle => rfl
  | settled | failed => simp

/-- Between two operations no call of `computeSum` is under way, and new impls are unowned. -/
structure Heap.Idle (s : Heap) : Prop where
  temporary : s.self.owner .temporary = none
  async_request_impl : s.self.owner .async_request_impl = none
  fresh : ∀ i, s.next ≤ i → s.self.uses i = 0

/-- The heap once `computeSum` has built the temporary that it is about to move from. -/
def Heap.requested (s : Heap) (answers : Nat → RequestResult Int32) (result : Option Pointer) :
    Heap :=
  ((s.make_shared answers result).assign .async_request_impl (some s.next)).assign .temporary
    (some s.next)

/-- Unwinding destroys the temporary, then the local variable. -/
def Heap.unwound (s : Heap) : Heap := (s.assign .temporary none).assign .async_request_impl none

section Requested
variable (hIdle : s.Idle) (answers : Nat → RequestResult Int32) (result : Option Pointer)
include hIdle

theorem Heap.Idle.unowned (o : Owner) : s.self.owner o ≠ some s.next :=
  s.self.unowned (hIdle.fresh s.next le_rfl) o

theorem Heap.Idle.uses_requested (i : ImplId) : (s.requested answers result).self.uses i =
    if i = s.next then 2 else s.self.uses i := by
  have hLocal := hIdle.async_request_impl
  have hTemporary := hIdle.temporary
  by_cases hi : i = s.next
  · subst hi
    simp [Heap.requested, Pool.uses_assign, Heap.make_shared, hLocal, hTemporary, hIdle.fresh]
  · simp [Heap.requested, Pool.uses_assign, Heap.make_shared, hLocal, hTemporary, hi, Ne.symm hi]

omit hIdle in
theorem Heap.owner_requested (o : Owner) : (s.requested answers result).self.owner o =
    match o with
    | .var v => s.self.owner (.var v)
    | .temporary => some s.next
    | .async_request_impl => some s.next := by
  cases o <;> simp [Heap.requested, Heap.make_shared]

end Requested

/-- How an accepted asynchronous call ends, from the heap that `requested` leaves. -/
inductive AsyncOutcome (t : Heap) (req : Nat) : Exit Exception Unit → Heap → Prop
  | accepted (u : Heap) : Prelude t (.var req) (.normal ()) u →
      AsyncOutcome t req (.normal ())
        ((u.moved (.var req) .temporary).assign .async_request_impl none)
  | dropped (e : Exception) (u : Heap) : Prelude t (.var req) (.threw e) u →
      AsyncOutcome t req (.threw e) u.unwound

theorem moveTemporary_outcome (hIdle : s.Idle) (answers : Nat → RequestResult Int32)
    (result : Option Pointer) (req : Nat) :
    AsyncOutcome (s.requested answers result) req
      (Proc.inScope (Proc.modify fun s => s.assign .async_request_impl none)
        (Proc.inScope (destructor .temporary) (moveAssign (.var req) .temporary))
        (s.requested answers result)).1
      (Proc.inScope (Proc.modify fun s => s.assign .async_request_impl none)
        (Proc.inScope (destructor .temporary) (moveAssign (.var req) .temporary))
        (s.requested answers result)).2 := by
  have hMove := moveAssign_outcome (s.requested answers result) (.var req) .temporary
  cases hResult : moveAssign (.var req) .temporary (s.requested answers result) with
  | mk exit u =>
    rw [hResult] at hMove
    cases hMove with
    | same hSame =>
      rcases hSame with hSame | hSame
      · cases hSame
      · rw [Heap.owner_requested, Heap.owner_requested] at hSame
        exact absurd hSame (hIdle.unowned _)
    | assigned t _ _ hPrelude =>
      have hTemporary : (t.moved (.var req) .temporary).self.owner .temporary = none := by
        simp [Heap.moved]
      have hUnused : ∀ i, (t.moved (.var req) .temporary).self.owner .temporary = some i →
          (t.moved (.var req) .temporary).self.uses i ≠ 1 := by
        simp [hTemporary]
      have hDestructor := destructor_shared _ hUnused
      rw [Heap.assign_none _ _ hTemporary] at hDestructor
      rw [inScope_normal (inScope_normal hResult hDestructor) (Proc.modify_apply _ _)]
      exact .accepted t hPrelude
    | threw e t _ _ hPrelude =>
      have hShared : ∀ i, u.self.owner .temporary = some i → u.self.uses i ≠ 1 := by
        intro i hi
        rw [hPrelude.self_eq, Heap.owner_requested] at hi
        rw [hPrelude.self_eq, hIdle.uses_requested, if_pos (Option.some.inj hi).symm]
        decide
      rw [inScope_threw (inScope_threw hResult (destructor_shared u hShared)) (Proc.modify_apply _ _)]
      exact .dropped e u hPrelude

def Heap.answered (s : Heap) (result : Option Pointer) (response : RequestResult Int32) : Heap :=
  if response.success then
    match result with
    | some result => s.store none result response.value
    | none => s
  else s

theorem computeSum_sync (handle : SequencerHandleImpl) (x y : Int32) (result : Option Pointer)
    (answers : Nat → RequestResult Int32) (s : Heap) :
    SequencerHandle.computeSum (some handle) x y result none answers s = (verdict (answers 0),
      (s.record (.sent handle.m_ph handle.m_sequencer_id x y)).answered result (answers 0)) := by
  simp only [SequencerHandle.computeSum, Proc.modify_bind, verdict, Heap.answered]
  by_cases hSuccess : (answers 0).success = true
  · rw [if_pos hSuccess, if_pos hSuccess, if_pos hSuccess]
    cases result with
    | none => rfl
    | some result => rfl
  · rw [if_neg hSuccess, if_neg hSuccess, if_neg hSuccess]
    rfl

theorem Heap.Idle.record (hIdle : s.Idle) (e : HeapEvent) : (s.record e).Idle :=
  ⟨hIdle.temporary, hIdle.async_request_impl, hIdle.fresh⟩

theorem computeSum_async (hIdle : s.Idle) (handle : SequencerHandleImpl) (x y : Int32)
    (result : Option Pointer) (req : Nat) (answers : Nat → RequestResult Int32) :
    AsyncOutcome ((s.record (.sent handle.m_ph handle.m_sequencer_id x y)).requested answers result)
      req (SequencerHandle.computeSum (some handle) x y result (some req) answers s).1
      (SequencerHandle.computeSum (some handle) x y result (some req) answers s).2 :=
  moveTemporary_outcome (hIdle.record (.sent handle.m_ph handle.m_sequencer_id x y)) answers result req

end Mobject
