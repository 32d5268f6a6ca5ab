import Mobject.Requests.Soundness

/-! # What one call changes, and what becomes of the requests that exist

`Evolves` says what never changes about a request that exists, and that memory changes by the
writes of the log alone. A call of `computeSum` sends one RPC, however it ends.
-/
namespace Mobject
open SharedOwnership Unwinding Runs
set_option autoImplicit false

/-- What a call does with its response: `if(result) *result = response.value();` on success. -/
def writeBack (result : Option Pointer) (response : RequestResult Int32) (memory : Pointer → Int32) :
    Pointer → Int32 :=
  if response.success then
    match result with
    | some result => Function.update memory result response.value
    | none => memory
  else memory

def replay (log : List HeapEvent) (memory : Pointer → Int32) : Pointer → Int32 :=
  log.foldl (fun memory e =>
    match e with
    | .wrote _ result value => Function.update memory result value
    | _ => memory) memory

variable {s t u : Heap}

theorem memory_deliver (s : Heap) (i : ImplId) :
    (s.deliver i).memory = writeBack (s.impl i).result (s.answer i) s.memory := by
  unfold Heap.deliver writeBack
  split
  · cases (s.impl i).result <;> rfl
  · rfl

theorem memory_answered (s : Heap) (result : Option Pointer) (response : RequestResult Int32) :
    (s.answered result response).memory = writeBack result response s.memory := by
  unfold Heap.answered writeBack
  split
  · cases result <;> rfl
  · rfl

theorem replay_append (log log' : List HeapEvent) (memory : Pointer → Int32) :
    replay (log ++ log') memory = replay log' (replay log memory) := List.foldl_append

theorem replay_written (s : Heap) (i : ImplId) (memory : Pointer → Int32) :
    replay (s.written i) memory = writeBack (s.impl i).result (s.answer i) memory := by
  unfold Heap.written writeBack
  split
  · cases (s.impl i).result <;> rfl
  · rfl

theorem replay_apply (log : List HeapEvent) (memory : Pointer → Int32) (p : Pointer)
    (h : ∀ source value, .wrote source p value ∉ log) : replay log memory p = memory p := by
  induction log generalizing memory with
  | nil => rfl
  | cons e log ih =>
    have hRest : ∀ source value, .wrote source p value ∉ log :=
      fun source value hMem => h source value (List.mem_cons_of_mem _ hMem)
    cases e with
    | wrote source result value =>
      have hNe : p ≠ result := by
        rintro rfl
        exact h source value List.mem_cons_self
      exact (ih _ hRest).trans (Function.update_of_ne hNe _ _)
    | sent | invoked | waited | received | freed => exact ih memory hRest

/-- What becomes of the requests that exist, and of memory, from one heap to a later one. -/
structure Evolves (s t : Heap) : Prop where
  next : s.next ≤ t.next
  result : ∀ i < s.next, (t.impl i).result = (s.impl i).result
  response : ∀ i < s.next, t.response i = s.response i
  waits : ∀ i < s.next, s.waits i ≤ t.waits i
  waited : ∀ i < s.next, s.m_waited i = true → t.m_waited i = true ∧ t.waits i = s.waits i
  log : ∃ new, t.log = s.log ++ new ∧ t.memory = replay new s.memory ∧
    ∀ i < s.next, t.waits i = s.waits i → ∀ p value, .wrote (some i) p value ∉ new

namespace Evolves

theorem trans (h : Evolves s t) (h' : Evolves t u) : Evolves s u := by
  have hBefore : ∀ i, i < s.next → i < t.next := fun i hi => hi.trans_le h.next
  obtain ⟨new, hLog, hMemory, hNone⟩ := h.log
  obtain ⟨new', hLog', hMemory', hNone'⟩ := h'.log
  refine ⟨h.next.trans h'.next, fun i hi => ?_, fun i hi => ?_, fun i hi => ?_, fun i hi hw => ?_,
    new ++ new', ?_, ?_, fun i hi hSame p value hMem => ?_⟩
  · rw [h'.result i (hBefore i hi), h.result i hi]
  · rw [h'.response i (hBefore i hi), h.response i hi]
  · exact (h.waits i hi).trans (h'.waits i (hBefore i hi))
  · obtain ⟨hw', hSame⟩ := h.waited i hi hw
    obtain ⟨hw'', hSame'⟩ := h'.waited i (hBefore i hi) hw'
    exact ⟨hw'', hSame'.trans hSame⟩
  · rw [hLog', hLog, List.append_assoc]
  · rw [hMemory', hMemory, replay_append]
  · -- the count of waits cannot have gone up and down again
    have hFirst := h.waits i hi
    have hSecond := h'.waits i (hBefore i hi)
    rcases List.mem_append.mp hMem with hMem | hMem
    · exact hNone i hi (le_antisymm (hSame ▸ hSecond) hFirst) p value hMem
    · exact hNone' i (hBefore i hi) (le_antisymm (hSame ▸ hFirst) hSecond) p value hMem

theorem of_impl (hImpl : t.impl = s.impl) (hNext : s.next ≤ t.next) (new : List HeapEvent)
    (hLog : t.log = s.log ++ new) (hMemory : t.memory = replay new s.memory)
    (hNone : ∀ i p value, .wrote (some i) p value ∉ new) : Evolves s t := by
  refine ⟨hNext, fun i _ => by rw [hImpl], fun i _ => ?_, fun i _ => ?_, fun i _ hw => ⟨?_, ?_⟩, new, hLog,
    hMemory, fun i _ _ => hNone i⟩
  · rw [Heap.response, hImpl, Heap.response]
  · rw [Heap.waits, Heap.waits, hImpl]
  · rwa [Heap.m_waited, hImpl]
  · rw [Heap.waits, Heap.waits, hImpl]

theorem refl (s : Heap) : Evolves s s :=
  of_impl rfl le_rfl [] (by simp) rfl (by simp)

theorem assign (s : Heap) (o : Owner) (x : Option ImplId) : Evolves s (s.assign o x) := by
  refine of_impl rfl le_rfl _ (s.log_assign o x) ?_ (by simp)
  cases s.self.released o x <;> rfl

theorem copied (s : Heap) (this other : Owner) : Evolves s (s.copied this other) := assign s _ _

theorem moved (s : Heap) (this other : Owner) : Evolves s (s.moved this other) :=
  (copied s this other).trans (assign _ _ _)

theorem record (s : Heap) (e : HeapEvent) (he : ∀ source p value, e ≠ .wrote source p value) :
    Evolves s (s.record e) := by
  refine of_impl rfl le_rfl [e] rfl ?_ fun i p value hMem =>
    he _ p value (List.mem_singleton.mp hMem).symm
  cases e with
  | wrote source p value => exact absurd rfl (he source p value)
  | sent | invoked | waited | received | freed => rfl

theorem answered (s : Heap) (result : Option Pointer) (response : RequestResult Int32) :
    Evolves s (s.answered result response) := by
  unfold Heap.answered
  split
  · cases result with
    | none => exact refl s
    | some result => exact of_impl rfl le_rfl [.wrote none result response.value] rfl rfl (by simp)
  · exact refl s

theorem deliver {i : ImplId} (hWaited : (s.impl i).m_waited = false) : Evolves s (s.deliver i) := by
  refine ⟨by simp, fun j _ => ?_, fun j _ => by simp, fun j _ => by simp, fun j _ hj => ?_,
    .invoked i :: .waited i :: s.written i, ?_, ?_, fun j _ hSame p value hMem => ?_⟩
  · rw [Heap.impl_deliver_apply]
  · have hNe : j ≠ i := by
      rintro rfl
      rw [Heap.m_waited, hWaited] at hj
      cases hj
    simp [hj, hNe]
  · simp [Heap.log_deliver]
  · rw [memory_deliver, ← replay_written]
    rfl
  · have hNe : j ≠ i := by
      rintro rfl
      simp at hSame
    simp only [List.mem_cons, reduceCtorEq, Heap.mem_written, false_or] at hMem
    obtain ⟨_, result, _, hEq⟩ := hMem
    exact hNe (Option.some.inj (HeapEvent.wrote.inj hEq).1).symm

theorem settle {i : ImplId} (hWaited : (s.impl i).m_waited = false) : Evolves s (s.settle i) := by
  refine (deliver hWaited).trans ⟨le_rfl, fun j _ => ?_, fun j _ => by simp, fun j _ => by simp,
    fun j _ hj => ?_, [], by simp [Heap.log_settle], rfl, by simp⟩
  · rw [Heap.impl_settle_apply]
  · rw [Heap.m_waited_deliver] at hj
    simp [Heap.m_waited_settle, hj]

theorem requested (hIdle : s.Idle) (answers : Nat → RequestResult Int32) (result : Option Pointer) :
    Evolves s (s.requested answers result) := by
  refine ⟨by simp, fun j hj => ?_, fun j hj => ?_, fun j hj => ?_, fun j hj hw => ?_, [], ?_, rfl,
    by simp⟩
  · rw [Heap.impl_requested, Function.update_of_ne hj.ne]
  · exact Heap.response_requested s j answers result hj.ne
  · rw [Heap.waits_requested, if_neg hj.ne]
  · rw [Heap.m_waited_requested, Heap.waits_requested, if_neg hj.ne, if_neg hj.ne]
    exact ⟨hw, rfl⟩
  · rw [hIdle.log_requested, List.append_nil]

end Evolves

theorem Prelude.evolves {this : Owner} {exit : Exit Exception Unit} (h : Prelude s this exit t) :
    Evolves s t := by
  cases h with
  | idle => exact .refl s
  | settled i _ _ hWaited => exact .settle hWaited
  | failed i _ _ hWaited => exact .deliver hWaited

theorem WaitOutcome.evolves {this : Owner} {exit : Exit Exception Unit}
    (h : WaitOutcome s this exit t) : Evolves s t := by
  cases h with
  | invalid | again => exact .refl s
  | settled i _ hWaited => exact .settle hWaited
  | failed i _ hWaited => exact .deliver hWaited

theorem AssignOutcome.evolves {this other : Owner} {f : Heap → Heap} {exit : Exit Exception Unit}
    (h : AssignOutcome s this other f exit t) (hFinish : ∀ t, Evolves t (f t)) : Evolves s t := by
  cases h with
  | same => exact .refl s
  | assigned t _ _ hPrelude => exact hPrelude.evolves.trans (hFinish t)
  | threw e t _ _ hPrelude => exact hPrelude.evolves

theorem AsyncOutcome.evolves {req : Nat} {exit : Exit Exception Unit}
    (h : AsyncOutcome s req exit t) : Evolves s t := by
  cases h with
  | accepted u hPrelude => exact hPrelude.evolves.trans ((Evolves.moved u _ _).trans (.assign _ _ _))
  | dropped e u hPrelude => exact hPrelude.evolves.trans ((Evolves.assign u _ _).trans (.assign _ _ _))

theorem Stepped.evolves {op : Operation} (h : Stepped s op t) (hIdle : s.Idle) : Evolves s t := by
  cases h with
  | construct | completedInvalid | invalidHandle => exact .refl s
  | copyConstruct v other => exact .copied s _ _
  | moveConstruct v other => exact .moved s _ _
  | copyAssign v other exit t hAssign => exact hAssign.evolves fun t => .copied t _ _
  | moveAssign v other exit t hAssign => exact hAssign.evolves fun t => .moved t _ _
  | wait v exit t hWait => exact hWait.evolves
  | completed v received i => exact .record s _ (by simp)
  | destroyed v t hPrelude => exact hPrelude.evolves.trans (.assign t _ _)
  | terminated v e t hPrelude =>
    exact hPrelude.evolves.trans (.of_impl rfl le_rfl [] (by simp) rfl (by simp))
  | sync handle x y result answers => exact (Evolves.record s _ (by simp)).trans (.answered _ _ _)
  | async handle x y result req answers exit t hAsync =>
    exact ((Evolves.record s _ (by simp)).trans (.requested (hIdle.record _) _ _)).trans hAsync.evolves

theorem run_evolves {steps : List (Step Heap Operation)} (hSound : s.Sound)
    (hRun : Run Next s steps t) : t.Sound ∧ Evolves s t := by
  refine hRun.invariant (I := fun t => t.Sound ∧ Evolves s t) ⟨hSound, .refl s⟩ ?_
  rintro t op u ⟨hBefore, hEvolves⟩ hNext
  obtain ⟨hStepped, hAfter⟩ := next_sound hBefore hNext
  exact ⟨hAfter, hEvolves.trans (hStepped.evolves hBefore.idle)⟩

/-- The provider handle, the id and the operands of a `mobject_compute_sum` that is sent. -/
def HeapEvent.rpc : HeapEvent → Option (Nat × UUID × Int32 × Int32)
  | .sent m_ph sequencer_id x y => some (m_ph, sequencer_id, x, y)
  | _ => none

def Heap.rpcs (s : Heap) : List (Nat × UUID × Int32 × Int32) := s.log.filterMap HeapEvent.rpc

section Sent

theorem Heap.rpcs_append {new : List HeapEvent} (hLog : t.log = s.log ++ new)
    (hNone : ∀ e ∈ new, HeapEvent.rpc e = none) : t.rpcs = s.rpcs := by
  rw [rpcs, hLog, List.filterMap_append, List.filterMap_eq_nil_iff.mpr hNone, List.append_nil, rpcs]

theorem Heap.rpcs_assign (s : Heap) (o : Owner) (x : Option ImplId) : (s.assign o x).rpcs = s.rpcs :=
  rpcs_append (s.log_assign o x) (by simp [HeapEvent.rpc])

theorem Heap.rpcs_deliver (s : Heap) (i : ImplId) : (s.deliver i).rpcs = s.rpcs := by
  have hLog : (s.deliver i).log = s.log ++ ([.invoked i, .waited i] ++ s.written i) := by
    simp [s.log_deliver]
  refine rpcs_append hLog fun e hMem => ?_
  rcases List.mem_append.mp hMem with hWait | hWritten
  · simp only [List.mem_cons, List.not_mem_nil, or_false] at hWait
    rcases hWait with rfl | rfl <;> rfl
  · obtain ⟨_, result, _, rfl⟩ := (s.mem_written i e).mp hWritten
    rfl

theorem Heap.rpcs_answered (s : Heap) (result : Option Pointer) (response : RequestResult Int32) :
    (s.answered result response).rpcs = s.rpcs := by
  unfold answered
  split
  · cases result with
    | none => rfl
    | some result =>
      have hLog : (s.store none result response.value).log =
          s.log ++ [.wrote none result response.value] := rfl
      exact rpcs_append hLog (by simp [HeapEvent.rpc])
  · rfl

theorem Prelude.rpcs_eq {this : Owner} {exit : Exit Exception Unit} (h : Prelude s this exit t) :
    t.rpcs = s.rpcs := by
  cases h with
  | idle => rfl
  | settled i => exact s.rpcs_deliver i
  | failed i => exact s.rpcs_deliver i

theorem AsyncOutcome.rpcs_eq {req : Nat} {exit : Exit Exception Unit}
    (h : AsyncOutcome s req exit t) : t.rpcs = s.rpcs := by
  cases h with
  | accepted u hPrelude =>
    rw [Heap.rpcs_assign, Heap.moved, Heap.rpcs_assign, Heap.copied, Heap.rpcs_assign, hPrelude.rpcs_eq]
  | dropped e u hPrelude =>
    rw [Heap.unwound, Heap.rpcs_assign, Heap.rpcs_assign, hPrelude.rpcs_eq]

/-- Either form of the call sends one RPC, also where it throws for an earlier request. -/
theorem computeSum_rpcs (hIdle : s.Idle) (handle : SequencerHandleImpl) (x y : Int32)
    (result : Option Pointer) (req : Option Nat) (answers : Nat → RequestResult Int32) :
    (SequencerHandle.computeSum (some handle) x y result req answers s).2.rpcs =
      s.rpcs ++ [(handle.m_ph, handle.m_sequencer_id, x, y)] := by
  have hSent : (s.record (.sent handle.m_ph handle.m_sequencer_id x y)).rpcs =
      s.rpcs ++ [(handle.m_ph, handle.m_sequencer_id, x, y)] := List.filterMap_append
  rw [← hSent]
  cases req with
  | none =>
    rw [computeSum_sync]
    exact Heap.rpcs_answered _ _ _
  | some req =>
    rw [(computeSum_async hIdle handle x y result req answers).rpcs_eq, Heap.rpcs,
      (hIdle.record _).log_requested, Heap.rpcs]

end Sent

end Mobject
