import Mobject.Requests.Soundness

/-! # No response is lost, and none is read twice

Each property is one of the log. `Stepped.noneLost` and `Stepped.oneShot` say when an operation
keeps it; over a run the two conditions are then exact.
-/
namespace Mobject
open SharedOwnership Unwinding Runs Lifetimes
set_option autoImplicit false

/-- An impl is freed only after its callback was invoked. -/
def FreedAfterCallback (pre : List HeapEvent) : HeapEvent → Prop
  | .freed i => .invoked i ∈ pre
  | _ => True

def NoneLost : List HeapEvent → Prop := Throughout FreedAfterCallback

/-- A callback is invoked once, `m_async_response.wait()` is called once, and nothing is called on
a response after that. -/
def UsedInTurn (pre : List HeapEvent) : HeapEvent → Prop
  | .invoked i => .invoked i ∉ pre
  | .waited i => .waited i ∉ pre
  | .received i => .waited i ∉ pre
  | _ => True

def OneShot : List HeapEvent → Prop := Throughout UsedInTurn

/-- `self && self.unique()`, and `wait()` would not return at once. -/
def Heap.LastWait (s : Heap) (this : Owner) (i : ImplId) : Prop :=
  s.self.owner this = some i ∧ s.self.uses i = 1 ∧ s.m_waited i = false

variable {s t : Heap}

theorem noneLost_assign (hTallied : s.Tallied) (o : Owner) (x : Option ImplId) :
    NoneLost (s.assign o x).log ↔
      NoneLost s.log ∧ ∀ i, s.self.released o x = some i → 0 < s.waits i := by
  rw [Heap.log_assign]
  cases hReleased : s.self.released o x with
  | none => simp
  | some i =>
    simp only [Option.map_some, Option.toList_some, Option.some.injEq, forall_eq']
    rw [NoneLost, throughout_concat, FreedAfterCallback, hTallied.invoked_mem]

theorem noneLost_deliver (s : Heap) (i : ImplId) : NoneLost (s.deliver i).log ↔ NoneLost s.log := by
  rw [Heap.log_deliver, List.append_assoc, List.append_assoc]
  apply throughout_append s.log
  intro e hMem pre
  simp only [List.mem_append, List.mem_singleton, Heap.mem_written] at hMem
  obtain rfl | rfl | ⟨_, result, _, rfl⟩ := hMem <;> trivial

theorem oneShot_assign (s : Heap) (o : Owner) (x : Option ImplId) :
    OneShot (s.assign o x).log ↔ OneShot s.log := by
  rw [Heap.log_assign]
  apply throughout_append s.log
  intro e hMem pre
  simp only [Option.mem_toList, Option.map_eq_some_iff] at hMem
  obtain ⟨i, _, rfl⟩ := hMem
  trivial

/-- Delivering a response is using it, so that may happen once. -/
theorem oneShot_deliver (hTallied : s.Tallied) (i : ImplId) :
    OneShot (s.deliver i).log ↔ OneShot s.log ∧ s.waits i = 0 := by
  have hWritten : OneShot (s.deliver i).log ↔ OneShot (s.log ++ [.invoked i] ++ [.waited i]) := by
    rw [Heap.log_deliver]
    apply throughout_append _
    intro e hMem pre
    obtain ⟨_, result, _, rfl⟩ := (Heap.mem_written s i e).mp hMem
    trivial
  rw [hWritten, OneShot, throughout_concat, throughout_concat]
  simp only [UsedInTurn, List.mem_append, List.mem_singleton, reduceCtorEq, or_false,
    hTallied.invoked_mem, hTallied.waited_mem, Nat.pos_iff_ne_zero, not_not]
  tauto

theorem oneShot_deliver_only (hTallied : s.Tallied) {P : ImplId → Prop} {i : ImplId} (hP : P i)
    (hOnly : ∀ j, P j → j = i) :
    OneShot (s.deliver i).log ↔ OneShot s.log ∧ ∀ j, P j → s.waits j = 0 := by
  rw [oneShot_deliver hTallied]
  refine and_congr_right fun _ => ?_
  constructor
  · intro hUnread j hj
    rwa [hOnly j hj]
  · intro hAll
    exact hAll i hP

section Prelude
variable {this : Owner} {exit : Exit Exception Unit}

theorem Prelude.noneLost (h : Prelude s this exit t) : NoneLost t.log ↔ NoneLost s.log := by
  cases h with
  | idle => rfl
  | settled i => exact noneLost_deliver s i
  | failed i => exact noneLost_deliver s i

theorem Prelude.oneShot (h : Prelude s this exit t) (hTallied : s.Tallied) :
    OneShot t.log ↔ OneShot s.log ∧ ∀ i, s.LastWait this i → s.waits i = 0 := by
  cases h with
  | idle hIdle =>
    refine (and_iff_left ?_).symm
    rintro i ⟨hSelf, hUses, hWaited⟩
    rw [show s.m_waited i = true from hIdle i hSelf hUses] at hWaited
    cases hWaited
  | settled i hSelf hUses hWaited | failed i hSelf hUses hWaited =>
    refine oneShot_deliver_only hTallied ⟨hSelf, hUses, hWaited⟩ ?_
    rintro j ⟨hOther, _⟩
    exact Option.some.inj (hOther.symm.trans hSelf)

theorem Prelude.waited (h : Prelude s this (.normal ()) t) (hTallied : t.Tallied) {i : ImplId}
    (hSelf : s.self.owner this = some i) (hUses : s.self.uses i = 1) : 0 < t.waits i := by
  apply hTallied.settled i
  cases h with
  | idle hIdle => exact hIdle i hSelf hUses
  | settled j hSelf' =>
    rw [Heap.m_waited_settle, Option.some.inj (hSelf.symm.trans hSelf'), decide_eq_true rfl]
    rfl

theorem Prelude.success (h : Prelude s this (.normal ()) t) {i : ImplId} (hLast : s.LastWait this i) :
    (s.answer i).success = true := by
  obtain ⟨hSelf, hUses, hWaited⟩ := hLast
  cases h with
  | idle hIdle =>
    rw [show s.m_waited i = true from hIdle i hSelf hUses] at hWaited
    cases hWaited
  | settled j hSelf' _ _ hSuccess => exact Option.some.inj (hSelf'.symm.trans hSelf) ▸ hSuccess

end Prelude

theorem noneLost_assign_waited (hTallied : s.Tallied) {o : Owner} (x : Option ImplId)
    (hWaited : ∀ i, s.self.owner o = some i → s.self.uses i = 1 → 0 < s.waits i) :
    NoneLost (s.assign o x).log ↔ NoneLost s.log := by
  rw [noneLost_assign hTallied]
  refine and_iff_left fun i hReleased => ?_
  obtain ⟨hSelf, _, hUses⟩ := (Pool.released_eq_some _ _ _).mp hReleased
  exact hWaited i hSelf hUses

theorem noneLost_assign_shared (hTallied : s.Tallied) {o other : Owner} (x : Option ImplId)
    (hNe : o ≠ other) (hSame : s.self.owner other = s.self.owner o) :
    NoneLost (s.assign o x).log ↔ NoneLost s.log := by
  apply noneLost_assign_waited hTallied x
  intro i hSelf hUses
  exact absurd (s.self.sole hUses hSelf (hSame.trans hSelf)) hNe

theorem noneLost_moved (hTallied : s.Tallied) {this other : Owner} (hNe : this ≠ other)
    (hWaited : ∀ i, s.self.owner this = some i → s.self.uses i = 1 → 0 < s.waits i) :
    NoneLost (s.moved this other).log ↔ NoneLost s.log := by
  have hShared : (s.copied this other).self.owner this = (s.copied this other).self.owner other := by
    simp [Heap.copied, Function.update_of_ne (Ne.symm hNe)]
  rw [Heap.moved, noneLost_assign_shared (hTallied.copied _ _) none (Ne.symm hNe) hShared]
  exact noneLost_assign_waited hTallied _ hWaited

theorem AssignOutcome.noneLost {this other : Owner} {f : Heap → Heap} {exit : Exit Exception Unit}
    (h : AssignOutcome s this other f exit t) (hTallied : s.Tallied)
    (hBorn : ∀ i, s.self.owner this = some i → i < s.next)
    (hFinish : ∀ t : Heap, t.Tallied → this ≠ other →
      (∀ i, t.self.owner this = some i → t.self.uses i = 1 → 0 < t.waits i) →
      (NoneLost (f t).log ↔ NoneLost t.log)) : NoneLost t.log ↔ NoneLost s.log := by
  cases h with
  | same => rfl
  | assigned t hNe _ hPrelude =>
    have hSettled := hPrelude.tallied hTallied hBorn
    rw [hFinish t hSettled hNe, hPrelude.noneLost]
    intro i hSelf hUses
    rw [hPrelude.self_eq] at hSelf hUses
    exact hPrelude.waited hSettled hSelf hUses
  | threw e t _ _ hPrelude => exact hPrelude.noneLost

section Requested
variable (hIdle : s.Idle) (answers : Nat → RequestResult Int32) (result : Option Pointer)
include hIdle

theorem Heap.Idle.lastWait_requested (v : Nat) (i : ImplId) :
    (s.requested answers result).LastWait (.var v) i ↔ s.LastWait (.var v) i := by
  unfold Heap.LastWait
  rw [Heap.owner_requested, hIdle.uses_requested, Heap.m_waited_requested]
  refine and_congr_right fun hSelf => ?_
  have hOld : i ≠ s.next := fun hi => hIdle.unowned _ (hi ▸ hSelf)
  rw [if_neg hOld, if_neg hOld]

theorem Heap.Idle.answer_requested {o : Owner} {i : ImplId} (hSelf : s.self.owner o = some i) :
    (s.requested answers result).answer i = s.answer i := by
  have hOld : i ≠ s.next := fun hi => hIdle.unowned _ (hi ▸ hSelf)
  simp [Heap.answer, Heap.impl_requested, hOld]

end Requested

/-- The condition under which an operation loses no response: the variable given to `computeSum`
is not the last owner of an earlier request that is about to report a failure. -/
def KeepsResponse (s : Heap) : Operation → Prop
  | .computeSum (some _) _ _ _ (some req) _ =>
    ∀ i, s.LastWait (.var req) i → (s.answer i).success = true
  | _ => True

theorem AsyncOutcome.noneLost {answers : Nat → RequestResult Int32} {result : Option Pointer}
    {req : Nat} {exit : Exit Exception Unit}
    (h : AsyncOutcome (s.requested answers result) req exit t) (hSound : s.Sound) :
    NoneLost t.log ↔ NoneLost s.log ∧ ∀ i, s.LastWait (.var req) i → (s.answer i).success = true := by
  have hRequested := hSound.tallied.requested hSound.idle answers result
  have hOwned : ∀ i, (s.requested answers result).self.owner (.var req) = some i →
      s.self.owner (.var req) = some i ∧ i ≠ s.next :=
    fun i => hSound.idle.owner_requested_var answers result
  have hBorn : ∀ i, (s.requested answers result).self.owner (.var req) = some i →
      i < (s.requested answers result).next :=
    fun i hi => Nat.lt_succ_of_lt (hSound.idle.born (hOwned i hi).1)
  have hLog := hSound.idle.log_requested answers result
  cases h with
  | accepted u hPrelude =>
    have hSettled := hPrelude.tallied hRequested hBorn
    have hMoved : NoneLost (u.moved (.var req) .temporary).log ↔ NoneLost u.log := by
      refine noneLost_moved hSettled (by simp) fun i hSelf hUses => ?_
      rw [hPrelude.self_eq] at hSelf hUses
      exact hPrelude.waited hSettled hSelf hUses
    have hShared : (u.moved (.var req) .temporary).self.owner (.var req) =
        (u.moved (.var req) .temporary).self.owner .async_request_impl := by
      simp [Heap.moved, Heap.copied, hPrelude.self_eq, Heap.owner_requested]
    rw [noneLost_assign_shared (hSettled.moved _ _) none (by simp) hShared, hMoved,
      hPrelude.noneLost, hLog]
    refine (and_iff_left fun i hLast => ?_).symm
    rw [← hSound.idle.answer_requested answers result hLast.1]
    exact hPrelude.success ((hSound.idle.lastWait_requested answers result req i).mpr hLast)
  | dropped e u hPrelude =>
    have hSettled := hPrelude.tallied hRequested hBorn
    cases hPrelude with
    | failed i hSelf hUses hWaited hFailed =>
      obtain ⟨hOwner, hOld⟩ := hOwned i hSelf
      have hLast := (hSound.idle.lastWait_requested answers result req i).mp ⟨hSelf, hUses, hWaited⟩
      rw [hSound.idle.answer_requested answers result hOwner] at hFailed
      refine iff_of_false (fun hNone => ?_) fun h => by simp [h.2 i hLast] at hFailed
      -- unwinding has left the new impl with the local variable alone
      have hReleased : (((s.requested answers result).deliver i).assign .temporary none).self.released
          .async_request_impl none = some s.next := by
        refine (Pool.released_eq_some _ _ _).mpr ⟨?_, by simp, ?_⟩
        · simp [Heap.owner_requested]
        · simp [Pool.uses_assign, hSound.idle.uses_requested, Heap.owner_requested]
      have hWaits := ((noneLost_assign (hSettled.assign _ _) _ _).mp hNone).2
        s.next hReleased
      simp [Ne.symm hOld] at hWaits

theorem noneLost_record (s : Heap) (e : HeapEvent) (he : ∀ i, e ≠ .freed i) :
    NoneLost (s.record e).log ↔ NoneLost s.log := by
  apply throughout_append s.log
  intro e' hMem pre
  rw [List.mem_singleton.mp hMem]
  cases e with
  | freed i => exact absurd rfl (he i)
  | sent | invoked | waited | received | wrote => trivial

theorem noneLost_answered (s : Heap) (result : Option Pointer) (response : RequestResult Int32) :
    NoneLost (s.answered result response).log ↔ NoneLost s.log := by
  unfold Heap.answered
  split
  · cases result with
    | none => rfl
    | some result => exact noneLost_record s _ (by simp)
  · rfl

theorem WaitOutcome.noneLost {this : Owner} {exit : Exit Exception Unit}
    (h : WaitOutcome s this exit t) : NoneLost t.log ↔ NoneLost s.log := by
  cases h with
  | invalid | again => rfl
  | settled i => exact noneLost_deliver s i
  | failed i => exact noneLost_deliver s i

theorem noneLost_moveConstruct (hTallied : s.Tallied) {this : Owner} (other : Owner)
    (hNull : s.self.owner this = none) : NoneLost (s.moved this other).log ↔ NoneLost s.log := by
  by_cases hNe : this = other
  · subst hNe
    have hCopied : s.copied this this = s := by
      rw [Heap.copied, hNull, Heap.assign_none s this hNull]
    rw [Heap.moved, hCopied, Heap.assign_none s this hNull]
  · exact noneLost_moved hTallied hNe (by simp [hNull])

theorem Stepped.noneLost {op : Operation} (h : Stepped s op t) (hSound : s.Sound) :
    NoneLost t.log ↔ NoneLost s.log ∧ KeepsResponse s op := by
  have hTallied := hSound.tallied
  have hBorn : ∀ v i, s.self.owner (.var v) = some i → i < s.next := fun _ _ => hSound.idle.born
  -- only an asynchronous call has a condition to meet
  cases h with
  | construct | completedInvalid | invalidHandle => simp [KeepsResponse]
  | copyConstruct v other hNull =>
    simp only [KeepsResponse, and_true]
    exact noneLost_assign_waited hTallied _ (by simp [hNull])
  | moveConstruct v other hNull =>
    simp only [KeepsResponse, and_true]
    exact noneLost_moveConstruct hTallied _ hNull
  | copyAssign v other exit t hAssign =>
    simp only [KeepsResponse, and_true]
    apply hAssign.noneLost hTallied (hBorn v)
    intro t ht _ hWaited
    exact noneLost_assign_waited ht _ hWaited
  | moveAssign v other exit t hAssign =>
    simp only [KeepsResponse, and_true]
    apply hAssign.noneLost hTallied (hBorn v)
    intro t ht hNe hWaited
    exact noneLost_moved ht hNe hWaited
  | wait v exit t hWait =>
    simp only [KeepsResponse, and_true]
    exact hWait.noneLost
  | completed v received i =>
    simp only [KeepsResponse, and_true]
    exact noneLost_record s _ (by simp)
  | destroyed v t hPrelude =>
    have hSettled := hPrelude.tallied hTallied (hBorn v)
    simp only [KeepsResponse, and_true]
    rw [noneLost_assign_waited hSettled none, hPrelude.noneLost]
    intro i hSelf hUses
    rw [hPrelude.self_eq] at hSelf hUses
    exact hPrelude.waited hSettled hSelf hUses
  | terminated v e t hPrelude =>
    simp only [KeepsResponse, and_true]
    exact hPrelude.noneLost
  | sync handle x y result answers =>
    simp only [KeepsResponse, and_true]
    rw [noneLost_answered, noneLost_record _ _ (by simp)]
  | async handle x y result req answers exit t hAsync =>
    have hSent := hSound.record (.sent handle.m_ph handle.m_sequencer_id x y) (by simp)
    rw [hAsync.noneLost hSent, noneLost_record _ _ (by simp)]
    rfl

/-- An impl is logged as freed when its use count is back at zero, and no response is lost then,
exactly as long as no `computeSum` is given the last owner of a request that is about to report a
failure: the exception drops the new request on its way. -/
theorem none_lost_iff {memory : Pointer → Int32} {steps : List (Step Heap Operation)}
    (hRun : Run Next (.start memory) steps s) :
    (∀ i, .freed i ∈ s.log ↔ i < s.next ∧ s.self.uses i = 0) ∧
      ((∀ x ∈ steps, NoneLost x.after.log) ↔ ∀ x ∈ steps, KeepsResponse x.before x.label) := by
  have hInit : (Heap.start memory).Sound ∧ NoneLost (Heap.start memory).log :=
    ⟨Heap.start_sound memory, throughout_nil FreedAfterCallback⟩
  refine ⟨(run_sound hRun).freed.freed, ?_⟩
  refine hRun.exact_condition (I := fun s => s.Sound ∧ NoneLost s.log)
    (G := fun _ _ t => NoneLost t.log) hInit ?_ ?_
  · rintro s op t ⟨hSound, hNone⟩ hNext hKeeps
    obtain ⟨hStepped, hAfter⟩ := next_sound hSound hNext
    have hLog := (hStepped.noneLost hSound).mpr ⟨hNone, hKeeps⟩
    exact ⟨⟨hAfter, hLog⟩, hLog⟩
  · rintro s op t ⟨hSound, _⟩ hNext hNot hLog
    exact hNot (((next_sound hSound hNext).1.noneLost hSound).mp hLog).2

def asks (v : Nat) (response : RequestResult Int32) : Operation :=
  .computeSum (some ⟨.cleared, 0⟩) 42 51 (some 0) (some v) fun _ => response

def summed : RequestResult Int32 := { m_value := 93 }

def refusedSum : RequestResult Int32 := { m_success := false, m_error := "not found", m_value := 0 }

def freshHeap : Heap := .start fun _ => 0

theorem next_step (s : Heap) (op : Operation) (hLive : s.terminated = false) (hValid : op.Valid s) :
    Next s op (s.step op) := ⟨hLive, hValid, rfl⟩

def succeeding : Heap := freshHeap.step (asks 0 summed)

theorem next_succeeding : Next freshHeap (asks 0 summed) succeeding :=
  next_step freshHeap _ rfl trivial

theorem none_lost_twice :
    HeapEvent.freed 0 ∈ (succeeding.step (asks 0 summed)).log ∧
      NoneLost (succeeding.step (asks 0 summed)).log := by
  have hFirst : KeepsResponse freshHeap (asks 0 summed) := by
    rintro i ⟨hSelf, _⟩
    cases hSelf
  have hSecond : KeepsResponse succeeding (asks 0 summed) := by
    rintro i ⟨hSelf, _⟩
    obtain rfl : 0 = i := Option.some.inj hSelf
    rfl
  have hRun := Run.snoc (.snoc .nil next_succeeding) (next_step succeeding (asks 0 summed) rfl trivial)
  refine ⟨by decide, (none_lost_iff hRun).2.mpr (fun x hMem => ?_) _
    (List.mem_append_right _ (List.mem_singleton_self _))⟩
  rcases List.mem_append.mp hMem with hOld | hNew
  · rw [List.mem_singleton.mp hOld]
    exact hFirst
  · rw [List.mem_singleton.mp hNew]
    exact hSecond

def failing : Heap := freshHeap.step (asks 0 refusedSum)

theorem next_failing : Next freshHeap (asks 0 refusedSum) failing :=
  next_step freshHeap _ rfl trivial

def droppedCall : Heap := failing.step (asks 0 summed)

theorem second_response_lost :
    (∃ steps, Run Next freshHeap steps droppedCall) ∧ ¬ NoneLost droppedCall.log := by
  refine ⟨⟨_, .snoc (.snoc .nil next_failing) (next_step failing _ rfl trivial)⟩, fun hNone => ?_⟩
  have hInvoked : HeapEvent.invoked 1 ∈ droppedCall.log.dropLast :=
    hNone _ (.freed 1) [] (by decide)
  exact absurd hInvoked (by decide)

/-- The impl whose callback an operation invokes. -/
def Invokes (s : Heap) : Operation → ImplId → Prop
  | .wait v, i => s.self.owner (.var v) = some i ∧ s.m_waited i = false
  | .destroy v, i => s.LastWait (.var v) i
  | .copyAssign v other, i =>
    v ≠ other ∧ s.self.owner (.var v) ≠ s.self.owner (.var other) ∧ s.LastWait (.var v) i
  | .moveAssign v other, i =>
    v ≠ other ∧ s.self.owner (.var v) ≠ s.self.owner (.var other) ∧ s.LastWait (.var v) i
  | .computeSum (some _) _ _ _ (some req) _, i => s.LastWait (.var req) i
  | _, _ => False

def Polls (s : Heap) : Operation → ImplId → Prop
  | .completed v _, i => s.self.owner (.var v) = some i
  | _, _ => False

/-- An operation that uses no response on which `wait()` has been called. -/
def UsesUnread (s : Heap) (op : Operation) : Prop :=
  ∀ i, Invokes s op i ∨ Polls s op i → s.waits i = 0

/-- The condition under which an operation uses no response again: it neither waits for a request
that has thrown its failure, explicitly or for its last owner, nor polls one, and it does not poll
a request whose `m_waited` is set. -/
def AvoidsFailed (s : Heap) (op : Operation) : Prop :=
  ∀ i, (Invokes s op i ∨ Polls s op i → ¬ s.Failed i) ∧ (Polls s op i → s.m_waited i = false)

theorem Invokes.unwaited {op : Operation} {i : ImplId} (h : Invokes s op i) : s.m_waited i = false := by
  cases op with
  | wait v => exact h.2
  | destroy v => exact h.2.2
  | copyAssign v other | moveAssign v other => exact h.2.2.2.2
  | computeSum handle x y result req answers =>
    match handle, req with
    | some _, some _ => exact h.2.2
    | some _, none => cases h
    | none, _ => cases h
  | construct | copyConstruct | moveConstruct | completed => cases h

theorem usesUnread_iff (hTallied : s.Tallied) (op : Operation) :
    UsesUnread s op ↔ AvoidsFailed s op := by
  constructor
  · intro hUnread i
    constructor
    · intro hUses hFailed
      have hZero := hUnread i hUses
      have hRead := hFailed.1
      omega
    · intro hPolls
      by_contra hSet
      have hZero := hUnread i (.inr hPolls)
      have hRead := hTallied.settled i (by simpa using hSet)
      omega
  · intro hAvoids i hUses
    have hUnset : s.m_waited i = false := hUses.elim Invokes.unwaited (hAvoids i).2
    by_contra hRead
    exact (hAvoids i).1 hUses (hTallied.thrown i (Nat.pos_of_ne_zero hRead) hUnset)

theorem oneShot_record (s : Heap) (e : HeapEvent) :
    OneShot (s.record e).log ↔ OneShot s.log ∧ UsedInTurn s.log e := throughout_concat _ _ _

theorem oneShot_answered (s : Heap) (result : Option Pointer) (response : RequestResult Int32) :
    OneShot (s.answered result response).log ↔ OneShot s.log := by
  unfold Heap.answered
  split
  · cases result with
    | none => rfl
    | some result => exact (oneShot_record s _).trans (and_iff_left trivial)
  · rfl

theorem WaitOutcome.oneShot {this : Owner} {exit : Exit Exception Unit}
    (h : WaitOutcome s this exit t) (hTallied : s.Tallied) : OneShot t.log ↔
      OneShot s.log ∧ ∀ i, s.self.owner this = some i ∧ s.m_waited i = false → s.waits i = 0 := by
  cases h with
  | invalid hNull => exact (and_iff_left (by simp [hNull])).symm
  | again i hSelf hWaited =>
    refine (and_iff_left ?_).symm
    rintro j ⟨hOther, hUnwaited⟩
    rw [← Option.some.inj (hSelf.symm.trans hOther), Heap.m_waited, hWaited] at hUnwaited
    cases hUnwaited
  | settled i hSelf hWaited | failed i hSelf hWaited =>
    refine oneShot_deliver_only hTallied ⟨hSelf, hWaited⟩ ?_
    rintro j ⟨hOther, _⟩
    exact Option.some.inj (hOther.symm.trans hSelf)

theorem AssignOutcome.oneShot {v other : Nat} {f : Heap → Heap} {exit : Exit Exception Unit}
    (h : AssignOutcome s (.var v) (.var other) f exit t) (hTallied : s.Tallied)
    (hFinish : ∀ t : Heap, OneShot (f t).log ↔ OneShot t.log) : OneShot t.log ↔
      OneShot s.log ∧ ∀ i, v ≠ other ∧ s.self.owner (.var v) ≠ s.self.owner (.var other) ∧
        s.LastWait (.var v) i → s.waits i = 0 := by
  cases h with
  | same hSame =>
    refine (and_iff_left ?_).symm
    rintro i ⟨hNe, hSelf, _⟩
    rcases hSame with hEq | hEq
    · exact absurd (Owner.var.inj hEq) hNe
    · exact absurd hEq hSelf
  | assigned t hNe hSelf hPrelude =>
    rw [hFinish, hPrelude.oneShot hTallied]
    simp [show v ≠ other from fun hEq => hNe (hEq ▸ rfl), hSelf]
  | threw e t hNe hSelf hPrelude =>
    rw [hPrelude.oneShot hTallied]
    simp [show v ≠ other from fun hEq => hNe (hEq ▸ rfl), hSelf]

theorem oneShot_moved (s : Heap) (this other : Owner) :
    OneShot (s.moved this other).log ↔ OneShot s.log := by
  rw [Heap.moved, oneShot_assign, Heap.copied, oneShot_assign]

theorem AsyncOutcome.oneShot {answers : Nat → RequestResult Int32} {result : Option Pointer}
    {req : Nat} {exit : Exit Exception Unit}
    (h : AsyncOutcome (s.requested answers result) req exit t) (hSound : s.Sound) :
    OneShot t.log ↔ OneShot s.log ∧ ∀ i, s.LastWait (.var req) i → s.waits i = 0 := by
  have hRequested := hSound.tallied.requested hSound.idle answers result
  have hLast : (∀ i, (s.requested answers result).LastWait (.var req) i →
      (s.requested answers result).waits i = 0) ↔ ∀ i, s.LastWait (.var req) i → s.waits i = 0 := by
    apply forall_congr'
    intro i
    rw [hSound.idle.lastWait_requested]
    apply imp_congr_right
    intro hLast
    rw [Heap.waits_requested, if_neg fun hi => hSound.idle.unowned _ (hi ▸ hLast.1)]
  cases h with
  | accepted u hPrelude =>
    rw [oneShot_assign, oneShot_moved, hPrelude.oneShot hRequested, hLast, hSound.idle.log_requested]
  | dropped e u hPrelude =>
    rw [Heap.unwound, oneShot_assign, oneShot_assign, hPrelude.oneShot hRequested, hLast,
      hSound.idle.log_requested]

theorem Stepped.oneShot {op : Operation} (h : Stepped s op t) (hSound : s.Sound) :
    OneShot t.log ↔ OneShot s.log ∧ UsesUnread s op := by
  have hTallied := hSound.tallied
  unfold UsesUnread
  cases h with
  | construct | invalidHandle => simp [Invokes, Polls]
  | completedInvalid v received hNull => simp [Invokes, Polls, hNull]
  | copyConstruct v other =>
    rw [Heap.copied, oneShot_assign]
    simp [Invokes, Polls]
  | moveConstruct v other =>
    rw [oneShot_moved]
    simp [Invokes, Polls]
  | copyAssign v other exit t hAssign =>
    rw [hAssign.oneShot hTallied fun t => oneShot_assign t _ _]
    simp [Invokes, Polls]
  | moveAssign v other exit t hAssign =>
    rw [hAssign.oneShot hTallied fun t => oneShot_moved t _ _]
    simp [Invokes, Polls]
  | wait v exit t hWait =>
    rw [hWait.oneShot hTallied]
    simp [Invokes, Polls]
  | completed v received i hSelf =>
    rw [oneShot_record, UsedInTurn, hTallied.waited_mem]
    simp [Invokes, Polls, hSelf]
  | destroyed v t hPrelude =>
    rw [oneShot_assign, hPrelude.oneShot hTallied]
    simp [Invokes, Polls]
  | terminated v e t hPrelude =>
    rw [hPrelude.oneShot hTallied]
    simp [Invokes, Polls]
  | sync handle x y result answers =>
    rw [oneShot_answered, oneShot_record]
    simp [Invokes, Polls, UsedInTurn]
  | async handle x y result req answers exit t hAsync =>
    have hSent := hSound.record (.sent handle.m_ph handle.m_sequencer_id x y) (by simp)
    rw [hAsync.oneShot hSent, oneShot_record]
    simp [Invokes, Polls, UsedInTurn, Heap.LastWait]

/-- Every response is used as a one-shot object, exactly as long as nothing waits for a request
that has thrown its failure, since `m_waited` is not set then, or polls one that was waited for. -/
theorem one_shot_iff {memory : Pointer → Int32} {steps : List (Step Heap Operation)}
    (hRun : Run Next (.start memory) steps s) :
    (∀ x ∈ steps, OneShot x.after.log) ↔ ∀ x ∈ steps, AvoidsFailed x.before x.label := by
  have hInit : (Heap.start memory).Sound ∧ OneShot (Heap.start memory).log :=
    ⟨Heap.start_sound memory, throughout_nil UsedInTurn⟩
  refine hRun.exact_condition (I := fun s => s.Sound ∧ OneShot s.log)
    (G := fun _ _ t => OneShot t.log) hInit ?_ ?_
  · rintro s op t ⟨hSound, hOnce⟩ hNext hAvoids
    obtain ⟨hStepped, hAfter⟩ := next_sound hSound hNext
    have hUnread := (usesUnread_iff hSound.tallied op).mpr hAvoids
    have hLog := (hStepped.oneShot hSound).mpr ⟨hOnce, hUnread⟩
    exact ⟨⟨hAfter, hLog⟩, hLog⟩
  · rintro s op t ⟨hSound, _⟩ hNext hNot hLog
    have hUnread := (((next_sound hSound hNext).1.oneShot hSound).mp hLog).2
    exact hNot ((usesUnread_iff hSound.tallied op).mp hUnread)

theorem one_shot_once :
    AvoidsFailed freshHeap (asks 0 refusedSum) ∧ AvoidsFailed failing (.wait 0) ∧
      OneShot (failing.step (.wait 0)).log := by
  have hAsked : AvoidsFailed freshHeap (asks 0 refusedSum) := by
    intro i
    constructor
    · rintro (hInvokes | hPolls)
      · cases hInvokes.1
      · cases hPolls
    · intro hPolls
      cases hPolls
  have hAwaited : AvoidsFailed failing (.wait 0) := by
    intro i
    constructor
    · rintro (hInvokes | hPolls) hFailed
      · obtain rfl : 0 = i := Option.some.inj hInvokes.1
        exact absurd hFailed.1 (by decide)
      · cases hPolls
    · intro hPolls
      cases hPolls
  have hRun := Run.snoc (.snoc .nil next_failing) (next_step failing (.wait 0) rfl trivial)
  refine ⟨hAsked, hAwaited, (one_shot_iff hRun).mpr (fun x hMem => ?_) _
    (List.mem_append_right _ (List.mem_singleton_self _))⟩
  rcases List.mem_append.mp hMem with hFirst | hSecond
  · rw [List.mem_singleton.mp hFirst]
    exact hAsked
  · rw [List.mem_singleton.mp hSecond]
    exact hAwaited

def caughtFailure : Heap := (failing.step (.wait 0)).step (.destroy 0)

theorem failed_response_waited_twice :
    (∃ steps, Run Next freshHeap steps caughtFailure) ∧ ¬ OneShot caughtFailure.log := by
  refine ⟨⟨_, .snoc (.snoc (.snoc .nil next_failing) (next_step failing (.wait 0) rfl trivial))
    (next_step _ (.destroy 0) rfl trivial)⟩, fun hOnce => ?_⟩
  have hWaited : HeapEvent.waited 0 ∉ caughtFailure.log.dropLast :=
    hOnce _ (.waited 0) [] (by decide)
  exact hWaited (by decide)

end Mobject
