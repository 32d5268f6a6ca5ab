import Mobject.Requests.Steps

/-! # The heap and its log

`Tallied` says that the log counts the waits of every impl, `Freed` that it names those whose use
count is back at zero, `Idle` that no call is under way. Every operation keeps all three, whatever
it throws.
-/
namespace Mobject
open SharedOwnership Unwinding Runs
set_option autoImplicit false

namespace Heap

/-- How often `m_async_response.wait()` has been called. -/
def waits (s : Heap) (i : ImplId) : Nat := (s.impl i).m_async_response.waits

def m_waited (s : Heap) (i : ImplId) : Bool := (s.impl i).m_waited

def response (s : Heap) (i : ImplId) : RequestResult Int32 := (s.impl i).m_async_response.answers 0

/-- The response has been read, and reports a failure: `wait` has thrown. -/
def Failed (s : Heap) (i : ImplId) : Prop := 0 < s.waits i ∧ (s.response i).success = false

def written (s : Heap) (i : ImplId) : List HeapEvent :=
  if (s.answer i).success then
    ((s.impl i).result.map fun result => .wrote (some i) result (s.answer i).value).toList
  else []

section Fields
variable (s : Heap) (i j : ImplId)

@[simp] theorem waits_record (e : HeapEvent) : (s.record e).waits i = s.waits i := rfl
@[simp] theorem waits_assign (o : Owner) (x : Option ImplId) :
    (s.assign o x).waits i = s.waits i := rfl
@[simp] theorem m_waited_record (e : HeapEvent) : (s.record e).m_waited i = s.m_waited i := rfl

theorem mem_written (e : HeapEvent) : e ∈ s.written i ↔ (s.answer i).success = true ∧
    ∃ result, (s.impl i).result = some result ∧ .wrote (some i) result (s.answer i).value = e := by
  unfold written
  split
  · next h => simp [h]
  · next h => simp [h]

theorem impl_deliver : (s.deliver i).impl = ((s.record (.invoked i)).consume i).impl := by
  unfold deliver
  split
  · split <;> rfl
  · rfl

theorem log_deliver : (s.deliver i).log = s.log ++ [.invoked i] ++ [.waited i] ++ s.written i := by
  simp only [deliver, written]
  split
  · cases (s.impl i).result <;> simp [record, consume, store]
  · simp [record, consume]

/-- Delivering a response reads it once more, and leaves the rest of every impl as it was. -/
theorem impl_deliver_apply : (s.deliver i).impl j = { s.impl j with
    m_async_response := { (s.impl j).m_async_response with
      waits := (s.impl j).m_async_response.waits + if j = i then 1 else 0 } } := by
  rw [impl_deliver, consume]
  by_cases h : j = i
  · subst h
    simp
  · simp [h]

@[simp] theorem waits_deliver :
    (s.deliver i).waits j = s.waits j + if j = i then 1 else 0 := by
  rw [waits, impl_deliver_apply]
  rfl

@[simp] theorem m_waited_deliver : (s.deliver i).m_waited j = s.m_waited j := by
  rw [m_waited, impl_deliver_apply]
  rfl

@[simp] theorem response_deliver : (s.deliver i).response j = s.response j := by
  rw [response, impl_deliver_apply]
  rfl

theorem answer_unread (h : s.waits i = 0) : s.answer i = s.response i := by
  rw [answer, show (s.impl i).m_async_response.waits = 0 from h]
  rfl

theorem impl_settle_apply : (s.settle i).impl j = { (s.deliver i).impl j with
    m_waited := decide (j = i) || ((s.deliver i).impl j).m_waited } := by
  rw [settle, setWaited]
  by_cases h : j = i
  · subst h
    simp
  · simp [h]

@[simp] theorem response_settle : (s.settle i).response j = s.response j := by
  rw [response, impl_settle_apply]
  exact response_deliver s i j

@[simp] theorem waits_settle : (s.settle i).waits j = s.waits j + if j = i then 1 else 0 := by
  rw [waits, impl_settle_apply]
  exact waits_deliver s i j

theorem m_waited_settle : (s.settle i).m_waited j = (decide (j = i) || s.m_waited j) := by
  rw [m_waited, impl_settle_apply, ← m_waited_deliver s i j]
  rfl

theorem log_settle : (s.settle i).log = (s.deliver i).log := rfl

theorem mem_freed_deliver : .freed j ∈ (s.deliver i).log ↔ .freed j ∈ s.log := by
  simp [log_deliver, mem_written]

theorem log_assign (o : Owner) (x : Option ImplId) : (s.assign o x).log =
    s.log ++ ((s.self.released o x).map HeapEvent.freed).toList := rfl

theorem mem_freed_iff (o : Owner) (x : Option ImplId) :
    .freed i ∈ ((s.self.released o x).map HeapEvent.freed).toList ↔
      s.self.uses i ≠ 0 ∧ (s.assign o x).self.uses i = 0 := by
  rw [self_assign, ← Pool.released_iff]
  simp

theorem log_assign_null {o : Owner} (h : s.self.owner o = none) (x : Option ImplId) :
    (s.assign o x).log = s.log := by
  simp [log_assign, Pool.released, h]

variable (answers : Nat → RequestResult Int32) (result : Option Pointer)

theorem impl_requested : (s.requested answers result).impl = Function.update s.impl s.next
    { m_async_response := { answers := answers }, result := result } := rfl

@[simp] theorem next_requested : (s.requested answers result).next = s.next + 1 := rfl

@[simp] theorem waits_requested : (s.requested answers result).waits i =
    if i = s.next then 0 else s.waits i := by
  by_cases h : i = s.next
  · subst h
    simp [waits, impl_requested]
  · simp [waits, impl_requested, h]

@[simp] theorem m_waited_requested : (s.requested answers result).m_waited i =
    if i = s.next then false else s.m_waited i := by
  by_cases h : i = s.next
  · subst h
    simp [m_waited, impl_requested]
  · simp [m_waited, impl_requested, h]

theorem response_requested (h : i ≠ s.next) :
    (s.requested answers result).response i = s.response i := by
  simp [response, impl_requested, h]

variable {s} in
theorem Idle.log_requested (hIdle : s.Idle) : (s.requested answers result).log = s.log := by
  have hLocal : (s.make_shared answers result).self.owner .async_request_impl = none :=
    hIdle.async_request_impl
  have hTemporary : ((s.make_shared answers result).assign .async_request_impl
      (some s.next)).self.owner .temporary = none := by
    simpa [make_shared] using hIdle.temporary
  rw [requested, log_assign_null _ hTemporary, log_assign_null _ hLocal]
  rfl

end Fields

/-- The log counts what was called on every response, and only a failure that was thrown leaves
a response read without `m_waited`. -/
structure Tallied (s : Heap) : Prop where
  invoked : ∀ i, s.log.count (.invoked i) = s.waits i
  waited : ∀ i, s.log.count (.waited i) = s.waits i
  unborn : ∀ i, s.next ≤ i → s.waits i = 0
  settled : ∀ i, s.m_waited i = true → 0 < s.waits i
  thrown : ∀ i, 0 < s.waits i → s.m_waited i = false → s.Failed i

namespace Tallied
variable {s : Heap} (h : s.Tallied) {i : ImplId}
include h

theorem invoked_mem : .invoked i ∈ s.log ↔ 0 < s.waits i := by
  rw [← List.count_pos_iff, h.invoked]

theorem waited_mem : .waited i ∈ s.log ↔ 0 < s.waits i := by
  rw [← List.count_pos_iff, h.waited]

theorem append {t : Heap} (hLog : ∃ new, t.log = s.log ++ new ∧
    ∀ i, .invoked i ∉ new ∧ .waited i ∉ new) (hImpl : t.impl = s.impl) (hNext : s.next ≤ t.next) :
    t.Tallied := by
  obtain ⟨new, hLog, hNone⟩ := hLog
  have hWaits : ∀ i, t.waits i = s.waits i := fun i => by rw [waits, hImpl, waits]
  have hWaited : ∀ i, t.m_waited i = s.m_waited i := fun i => by rw [m_waited, hImpl, m_waited]
  constructor
  · intro i
    rw [hLog, List.count_append, h.invoked, List.count_eq_zero.mpr (hNone i).1, hWaits]
    rfl
  · intro i
    rw [hLog, List.count_append, h.waited, List.count_eq_zero.mpr (hNone i).2, hWaits]
    rfl
  · intro i hi
    rw [hWaits]
    exact h.unborn i (hNext.trans hi)
  · intro i hi
    rw [hWaits]
    exact h.settled i (hWaited i ▸ hi)
  · intro i hRead hi
    rw [Failed, response, hImpl]
    exact ⟨hRead, (h.thrown i (hWaits i ▸ hRead) (hWaited i ▸ hi)).2⟩

theorem assign (o : Owner) (x : Option ImplId) : (s.assign o x).Tallied :=
  h.append ⟨_, s.log_assign o x, fun i => by simp⟩ rfl le_rfl

theorem record (e : HeapEvent) (he : ∀ i, e ≠ .invoked i ∧ e ≠ .waited i) :
    (s.record e).Tallied :=
  h.append ⟨[e], rfl, fun i => by simpa [eq_comm] using he i⟩ rfl le_rfl

theorem terminate : ({ s with terminated := true } : Heap).Tallied :=
  ⟨h.invoked, h.waited, h.unborn, h.settled, h.thrown⟩

theorem copied (this other : Owner) : (s.copied this other).Tallied := h.assign _ _

theorem moved (this other : Owner) : (s.moved this other).Tallied := (h.copied _ _).assign _ _

theorem count_deliver (i j : ImplId) :
    (s.deliver i).log.count (.invoked j) = s.waits j + (if j = i then 1 else 0) ∧
      (s.deliver i).log.count (.waited j) = s.waits j + (if j = i then 1 else 0) := by
  have hWritten : ∀ e ∈ s.written i, (∀ j, e ≠ .invoked j) ∧ ∀ j, e ≠ .waited j := by
    intro e he
    obtain ⟨_, result, _, rfl⟩ := (mem_written s i e).mp he
    simp
  have hInvoked : (s.written i).count (.invoked j) = 0 :=
    List.count_eq_zero.mpr fun hMem => (hWritten _ hMem).1 j rfl
  have hWaited : (s.written i).count (.waited j) = 0 :=
    List.count_eq_zero.mpr fun hMem => (hWritten _ hMem).2 j rfl
  rw [log_deliver]
  simp only [List.count_append, hInvoked, hWaited, h.invoked, h.waited]
  by_cases hj : j = i
  · simp [hj]
  · simp [hj, Ne.symm hj]

theorem deliver (hi : i < s.next) (hFailed : (s.answer i).success = false) :
    (s.deliver i).Tallied := by
  constructor
  · intro j
    rw [(h.count_deliver i j).1, waits_deliver]
  · intro j
    rw [(h.count_deliver i j).2, waits_deliver]
  · intro j hj
    rw [next_deliver] at hj
    rw [waits_deliver, h.unborn j hj, if_neg (hi.trans_le hj).ne']
  · intro j hj
    rw [m_waited_deliver] at hj
    rw [waits_deliver]
    exact Nat.add_pos_left (h.settled j hj) _
  · intro j hRead hj
    rw [m_waited_deliver] at hj
    refine ⟨hRead, ?_⟩
    rw [response_deliver]
    -- a first read is of `i`, whose answer is the failure
    rcases Nat.eq_zero_or_pos (s.waits j) with hUnread | hAgain
    · rw [waits_deliver, hUnread] at hRead
      have hji : j = i := by
        by_contra hNe
        simp [hNe] at hRead
      rw [hji, ← answer_unread s i (hji ▸ hUnread)]
      exact hFailed
    · exact (h.thrown j hAgain hj).2

theorem settle (hi : i < s.next) : (s.settle i).Tallied := by
  constructor
  · intro j
    rw [log_settle, (h.count_deliver i j).1, waits_settle]
  · intro j
    rw [log_settle, (h.count_deliver i j).2, waits_settle]
  · intro j hj
    rw [next_settle] at hj
    rw [waits_settle, h.unborn j hj, if_neg (hi.trans_le hj).ne']
  · intro j hj
    rw [m_waited_settle, Bool.or_eq_true, decide_eq_true_eq] at hj
    rw [waits_settle]
    rcases hj with rfl | hj
    · simp
    · exact Nat.add_pos_left (h.settled j hj) _
  · intro j hRead hj
    rw [m_waited_settle, Bool.or_eq_false_iff, decide_eq_false_iff_not] at hj
    rw [waits_settle, if_neg hj.1] at hRead
    rw [Failed, waits_settle, if_neg hj.1, response_settle]
    exact h.thrown j hRead hj.2

theorem requested (hIdle : s.Idle) (answers : Nat → RequestResult Int32) (result : Option Pointer) :
    (s.requested answers result).Tallied := by
  have hNew := h.unborn s.next le_rfl
  constructor
  · intro i
    rw [hIdle.log_requested, h.invoked, waits_requested]
    split
    · next hi => rw [hi, hNew]
    · rfl
  · intro i
    rw [hIdle.log_requested, h.waited, waits_requested]
    split
    · next hi => rw [hi, hNew]
    · rfl
  · intro i hi
    rw [next_requested] at hi
    rw [waits_requested, if_neg (Nat.ne_of_gt hi)]
    exact h.unborn i (Nat.le_of_succ_le hi)
  · intro i hi
    rw [m_waited_requested] at hi
    rw [waits_requested]
    split at hi
    · cases hi
    · next hOld =>
      rw [if_neg hOld]
      exact h.settled i hi
  · intro i hRead hi
    by_cases hNew : i = s.next
    · rw [waits_requested, if_pos hNew] at hRead
      cases hRead
    · rw [waits_requested, if_neg hNew] at hRead
      rw [m_waited_requested, if_neg hNew] at hi
      rw [Failed, waits_requested, if_neg hNew, response_requested s i answers result hNew]
      exact h.thrown i hRead hi

end Tallied

namespace Idle
variable {s t : Heap} (h : s.Idle)
include h

theorem born {o : Owner} {i : ImplId} (hOwner : s.self.owner o = some i) : i < s.next := by
  by_contra hNot
  have hZero := h.fresh i (not_lt.mp hNot)
  have hPos := s.self.uses_pos hOwner
  omega

theorem congr (hSelf : t.self = s.self) (hNext : s.next ≤ t.next) : t.Idle :=
  ⟨hSelf ▸ h.temporary, hSelf ▸ h.async_request_impl,
    fun i hi => hSelf ▸ h.fresh i (hNext.trans hi)⟩

end Idle

/-- The impls logged as freed are those that were shared and whose use count is zero again. -/
structure Freed (s : Heap) : Prop where
  fresh : ∀ i, s.next ≤ i → s.self.uses i = 0
  freed : ∀ i, .freed i ∈ s.log ↔ i < s.next ∧ s.self.uses i = 0

namespace Freed
variable {s t : Heap} (h : s.Freed)
include h

theorem assign (o : Owner) (x : Option ImplId) (hx : ∀ i, x = some i → s.self.uses i ≠ 0) :
    (s.assign o x).Freed := by
  have hZero : ∀ i, s.self.uses i = 0 → (s.assign o x).self.uses i = 0 := fun i hi =>
    s.self.uses_assign_unused hi fun hxi => hx i hxi hi
  constructor
  · exact fun i hi => hZero i (h.fresh i hi)
  · intro i
    rw [log_assign, List.mem_append, mem_freed_iff, h.freed, next_assign]
    constructor
    · rintro (⟨hBorn, hUses⟩ | ⟨hUses, hReleased⟩)
      · exact ⟨hBorn, hZero i hUses⟩
      · exact ⟨not_le.mp fun hNew => hUses (h.fresh i hNew), hReleased⟩
    · rintro ⟨hBorn, hReleased⟩
      rcases eq_or_ne (s.self.uses i) 0 with hUses | hUses
      · exact .inl ⟨hBorn, hUses⟩
      · exact .inr ⟨hUses, hReleased⟩

theorem copied (this other : Owner) : (s.copied this other).Freed :=
  h.assign _ _ fun _ hOwner => (s.self.uses_pos hOwner).ne'

theorem moved (this other : Owner) : (s.moved this other).Freed :=
  (h.copied this other).assign _ _ (by simp)

theorem congr (hSelf : t.self = s.self) (hNext : t.next = s.next)
    (hLog : ∀ i, .freed i ∈ t.log ↔ .freed i ∈ s.log) : t.Freed := by
  constructor
  · intro i hi
    rw [hSelf]
    exact h.fresh i (hNext ▸ hi)
  · intro i
    rw [hLog, h.freed, hSelf, hNext]

theorem requested (hIdle : s.Idle) (answers : Nat → RequestResult Int32) (result : Option Pointer) :
    (s.requested answers result).Freed := by
  constructor
  · intro i hi
    rw [next_requested] at hi
    rw [hIdle.uses_requested, if_neg (Nat.ne_of_gt hi)]
    exact h.fresh i (Nat.le_of_succ_le hi)
  · intro i
    rw [hIdle.log_requested, hIdle.uses_requested, next_requested, h.freed]
    split
    · next hNew => simp [hNew]
    · next hOld =>
      refine and_congr_left fun _ => ?_
      exact (Nat.lt_succ_iff_lt_or_eq.trans (or_iff_left hOld)).symm

end Freed

/-- What holds between two operations. -/
structure Sound (s : Heap) : Prop where
  idle : s.Idle
  tallied : s.Tallied
  freed : s.Freed

theorem start_sound (memory : Pointer → Int32) : (start memory).Sound where
  idle := ⟨rfl, rfl, fun _ _ => rfl⟩
  tallied := ⟨fun _ => rfl, fun _ => rfl, fun _ _ => rfl, fun _ h => (by cases h),
    fun _ h _ => (by cases h)⟩
  freed := ⟨fun _ _ => rfl, fun i => by simp [start]⟩

namespace Sound
variable {s : Heap} (h : s.Sound)
include h

theorem assign (v : Nat) (x : Option ImplId) (hx : ∀ i, x = some i → s.self.uses i ≠ 0) :
    (s.assign (.var v) x).Sound := by
  have hFreed := h.freed.assign (.var v) x hx
  refine ⟨⟨?_, ?_, hFreed.fresh⟩, h.tallied.assign _ _, hFreed⟩
  · simpa using h.idle.temporary
  · simpa using h.idle.async_request_impl

theorem copied (v other : Nat) : (s.copied (.var v) (.var other)).Sound :=
  h.assign v _ fun _ hOwner => (s.self.uses_pos hOwner).ne'

theorem moved (v other : Nat) : (s.moved (.var v) (.var other)).Sound :=
  (h.copied v other).assign other none (by simp)

theorem record (e : HeapEvent) (he : ∀ i, e ≠ .invoked i ∧ e ≠ .waited i ∧ e ≠ .freed i) :
    (s.record e).Sound where
  idle := h.idle.record e
  tallied := h.tallied.record e fun i => ⟨(he i).1, (he i).2.1⟩
  freed := by
    refine h.freed.congr rfl rfl fun i => ?_
    rw [log_record, List.mem_append, List.mem_singleton]
    exact or_iff_left fun hEq => (he i).2.2 hEq.symm

theorem answered (result : Option Pointer) (response : RequestResult Int32) :
    (s.answered result response).Sound := by
  unfold Heap.answered
  split
  · cases result with
    | none => exact h
    | some result =>
      refine ⟨h.idle.congr rfl le_rfl, ?_, h.freed.congr rfl rfl fun i => by simp [store]⟩
      exact h.tallied.append ⟨[.wrote none result response.value], rfl, by simp⟩ rfl le_rfl
  · exact h

end Sound

end Heap

section Outcomes
variable {s t : Heap}

theorem Prelude.next_eq {this : Owner} {exit : Exit Exception Unit} (h : Prelude s this exit t) :
    t.next = s.next := by
  cases h with
  | idle => rfl
  | settled | failed => simp

theorem Prelude.tallied {this : Owner} {exit : Exit Exception Unit} (h : Prelude s this exit t)
    (hTallied : s.Tallied) (hBorn : ∀ i, s.self.owner this = some i → i < s.next) : t.Tallied := by
  cases h with
  | idle => exact hTallied
  | settled i hSelf => exact hTallied.settle (hBorn i hSelf)
  | failed i hSelf _ _ hFailed => exact hTallied.deliver (hBorn i hSelf) hFailed

theorem Prelude.freed {this : Owner} {exit : Exit Exception Unit} (h : Prelude s this exit t)
    (hFreed : s.Freed) : t.Freed := by
  apply hFreed.congr h.self_eq h.next_eq
  intro j
  cases h with
  | idle => rfl
  | settled i => exact s.mem_freed_deliver i j
  | failed i => exact s.mem_freed_deliver i j

theorem Prelude.sound {v : Nat} {exit : Exit Exception Unit} (h : Prelude s (.var v) exit t)
    (hSound : s.Sound) : t.Sound where
  idle := hSound.idle.congr h.self_eq h.next_eq.ge
  tallied := h.tallied hSound.tallied fun _ => hSound.idle.born
  freed := h.freed hSound.freed

theorem AssignOutcome.sound {v other : Nat} {f : Heap → Heap} {exit : Exit Exception Unit}
    (h : AssignOutcome s (.var v) (.var other) f exit t) (hSound : s.Sound)
    (hFinish : ∀ t : Heap, t.Sound → (f t).Sound) : t.Sound := by
  cases h with
  | same => exact hSound
  | assigned t _ _ hPrelude => exact hFinish t (hPrelude.sound hSound)
  | threw e t _ _ hPrelude => exact hPrelude.sound hSound

theorem WaitOutcome.sound {v : Nat} {exit : Exit Exception Unit}
    (h : WaitOutcome s (.var v) exit t) (hSound : s.Sound) : t.Sound := by
  cases h with
  | invalid | again => exact hSound
  | settled i hSelf =>
    exact ⟨hSound.idle.congr (by simp) (by simp), hSound.tallied.settle (hSound.idle.born hSelf),
      hSound.freed.congr (by simp) (by simp) (s.mem_freed_deliver i)⟩
  | failed i hSelf _ hFailed =>
    exact ⟨hSound.idle.congr (by simp) (by simp),
      hSound.tallied.deliver (hSound.idle.born hSelf) hFailed,
      hSound.freed.congr (by simp) (by simp) (s.mem_freed_deliver i)⟩

theorem Heap.Idle.owner_requested_var (hIdle : s.Idle) (answers : Nat → RequestResult Int32)
    (result : Option Pointer) {v : Nat} {i : ImplId}
    (h : (s.requested answers result).self.owner (.var v) = some i) :
    s.self.owner (.var v) = some i ∧ i ≠ s.next := by
  rw [Heap.owner_requested] at h
  exact ⟨h, fun hi => hIdle.unowned _ (hi ▸ h)⟩

theorem AsyncOutcome.sound {answers : Nat → RequestResult Int32} {result : Option Pointer}
    {req : Nat} {exit : Exit Exception Unit}
    (h : AsyncOutcome (s.requested answers result) req exit t) (hSound : s.Sound) : t.Sound := by
  have hRequested := hSound.tallied.requested hSound.idle answers result
  have hBorn : ∀ i, (s.requested answers result).self.owner (.var req) = some i →
      i < (s.requested answers result).next := fun i hi =>
    Nat.lt_succ_of_lt (hSound.idle.born (hSound.idle.owner_requested_var answers result hi).1)
  have hFreed := hSound.freed.requested hSound.idle answers result
  cases h with
  | accepted u hPrelude =>
    have hFinal := ((hPrelude.freed hFreed).moved (.var req) .temporary).assign
      .async_request_impl none (by simp)
    exact ⟨⟨by simp [Heap.moved], by simp, hFinal.fresh⟩,
      ((hPrelude.tallied hRequested hBorn).moved _ _).assign _ _, hFinal⟩
  | dropped e u hPrelude =>
    have hFinal := ((hPrelude.freed hFreed).assign .temporary none (by simp)).assign
      .async_request_impl none (by simp)
    exact ⟨⟨by simp [Heap.unwound], by simp [Heap.unwound], hFinal.fresh⟩,
      ((hPrelude.tallied hRequested hBorn).assign _ _).assign _ _, hFinal⟩

theorem Stepped.sound {op : Operation} (h : Stepped s op t) (hSound : s.Sound) : t.Sound := by
  cases h with
  | construct | completedInvalid | invalidHandle => exact hSound
  | copyConstruct v other => exact hSound.copied v other
  | moveConstruct v other => exact hSound.moved v other
  | copyAssign v other exit t hAssign => exact hAssign.sound hSound fun t ht => ht.copied v other
  | moveAssign v other exit t hAssign => exact hAssign.sound hSound fun t ht => ht.moved v other
  | wait v exit t hWait => exact hWait.sound hSound
  | completed v received i => exact hSound.record _ (by simp)
  | destroyed v t hPrelude => exact (hPrelude.sound hSound).assign v none (by simp)
  | terminated v e t hPrelude =>
    have hSettled := hPrelude.sound hSound
    exact ⟨hSettled.idle.congr rfl le_rfl, hSettled.tallied.terminate,
      hSettled.freed.congr rfl rfl fun _ => Iff.rfl⟩
  | sync handle x y result answers => exact (hSound.record _ (by simp)).answered _ _
  | async handle x y result req answers exit t hAsync =>
    exact hAsync.sound (hSound.record _ (by simp))

theorem next_sound {op : Operation} (hSound : s.Sound) (h : Next s op t) : Stepped s op t ∧ t.Sound := by
  obtain ⟨_, hValid, rfl⟩ := h
  have hStepped := step_stepped hSound.idle op hValid
  exact ⟨hStepped, hStepped.sound hSound⟩

theorem run_sound {memory : Pointer → Int32} {steps : List (Step Heap Operation)}
    (hRun : Run Next (.start memory) steps s) : s.Sound :=
  hRun.invariant (Heap.start_sound memory) fun _ _ _ hSound hNext => (next_sound hSound hNext).2

end Outcomes

end Mobject
