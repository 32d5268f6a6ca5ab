import Mobject.Requests.Evolution
import Mobject.Requests.Responses
import Mathlib.Data.List.Perm.Basic

/-! # The asynchronous call refines the synchronous one

A first wait does what the synchronous call does, wherever it comes in a run and through whichever
copy. Outstanding requests can be waited for in any order.
-/
namespace Mobject
open SharedOwnership Unwinding Runs
set_option autoImplicit false

variable {s t u : Heap}

/-- The variable holds a request that nobody has waited for. -/
structure Pending (s : Heap) (v : Nat) (i : ImplId) : Prop where
  self : s.self.owner (.var v) = some i
  unread : s.waits i = 0

section FirstWait
variable {v : Nat} {i : ImplId}

theorem Pending.unwaited (h : Pending s v i) (hTallied : s.Tallied) : s.m_waited i = false := by
  cases hWaited : s.m_waited i with
  | false => rfl
  | true => exact absurd h.unread (Nat.pos_iff_ne_zero.mp (hTallied.settled i hWaited))

theorem Pending.wait (h : Pending s v i) (hTallied : s.Tallied) :
    (AsyncRequest.wait (.var v) s).1 = verdict (s.response i) ∧
      (AsyncRequest.wait (.var v) s).2.memory =
        writeBack (s.impl i).result (s.response i) s.memory ∧
      (AsyncRequest.wait (.var v) s).2.self = s.self ∧
      ∀ j, j ≠ i → (AsyncRequest.wait (.var v) s).2.impl j = s.impl j := by
  have hOutcome := wait_outcome s (.var v)
  have hWaited : (s.impl i).m_waited = false := h.unwaited hTallied
  generalize (AsyncRequest.wait (.var v) s).1 = exit at hOutcome ⊢
  generalize (AsyncRequest.wait (.var v) s).2 = t at hOutcome ⊢
  rw [← s.answer_unread i h.unread]
  have hDeliver : ∀ j, j ≠ i → (s.deliver i).impl j = s.impl j := fun j hj => by
    simp [Heap.impl_deliver_apply, hj]
  cases hOutcome with
  | invalid hNull => rw [h.self] at hNull; cases hNull
  | again j hSelf hAgain =>
    rw [← Option.some.inj (h.self.symm.trans hSelf), hWaited] at hAgain
    cases hAgain
  | settled j hSelf _ hSuccess =>
    obtain rfl : i = j := Option.some.inj (h.self.symm.trans hSelf)
    refine ⟨by simp [verdict, hSuccess], memory_deliver s i, s.self_settle i, fun j hj => ?_⟩
    rw [← hDeliver j hj]
    exact Function.update_of_ne hj _ _
  | failed j hSelf _ hFailed =>
    obtain rfl : i = j := Option.some.inj (h.self.symm.trans hSelf)
    exact ⟨by simp [verdict, hFailed], memory_deliver s i, s.self_deliver i, hDeliver⟩

end FirstWait

/-- How a copy or a move into `v` ends that is to leave it with the request `i`. An assignment
throws instead where `v` is the last handle of a request whose failure its implicit wait reads. -/
def Obtains (s : Heap) (v : Nat) (i : ImplId) (exit : Exit Exception Unit) (t : Heap) : Prop :=
  exit = .normal () ∧ t.self.owner (.var v) = some i ∨
    ∃ j, j ≠ i ∧ s.LastWait (.var v) j ∧ (s.answer j).success = false ∧
      exit = .threw ⟨(s.answer j).error⟩ ∧ t.self = s.self

section Copies
variable {v w : Nat} {i : ImplId}

theorem owner_copied_this (s : Heap) (this other : Owner) :
    (s.copied this other).self.owner this = s.self.owner other :=
  Function.update_self _ _ _

theorem owner_moved_this (s : Heap) {this other : Owner} (hNe : this ≠ other) :
    (s.moved this other).self.owner this = s.self.owner other :=
  (Function.update_of_ne hNe _ _).trans (owner_copied_this s this other)

theorem AssignOutcome.obtains {f : Heap → Heap} {exit : Exit Exception Unit}
    (h : AssignOutcome s (.var v) (.var w) f exit t) (hOwner : s.self.owner (.var w) = some i)
    (hFinish : ∀ u : Heap, Owner.var v ≠ .var w →
      (f u).self.owner (.var v) = u.self.owner (.var w)) : Obtains s v i exit t := by
  cases h with
  | same hSame =>
    refine .inl ⟨rfl, ?_⟩
    rcases hSame with hVar | hShared
    · rw [hVar]
      exact hOwner
    · rw [hShared]
      exact hOwner
  | assigned u hNe _ hPrelude =>
    refine .inl ⟨rfl, ?_⟩
    rw [hFinish u hNe, hPrelude.self_eq]
    exact hOwner
  | threw e u _ hSelf hPrelude =>
    have hSame := hPrelude.self_eq
    cases hPrelude with
    | failed j hLast hUses hWaited hFailed =>
      refine .inr ⟨j, ?_, ⟨hLast, hUses, hWaited⟩, hFailed, rfl, hSame⟩
      rintro rfl
      exact hSelf (hLast.trans hOwner.symm)

theorem copies_obtain {op : Operation} (hOwner : s.self.owner (.var w) = some i)
    (hOp : op ∈ [Operation.copyConstruct v w, .moveConstruct v w, .copyAssign v w, .moveAssign v w])
    (hValid : op.Valid s) : Obtains s v i (op.run s).1 (s.step op) := by
  simp only [List.mem_cons, List.not_mem_nil, or_false] at hOp
  rcases hOp with rfl | rfl | rfl | rfl
  · exact .inl ⟨rfl, (owner_copied_this s _ _).trans hOwner⟩
  · have hNe : Owner.var v ≠ .var w := by
      intro hEq
      rw [← hEq, show s.self.owner (.var v) = none from hValid] at hOwner
      cases hOwner
    exact .inl ⟨rfl, (owner_moved_this s hNe).trans hOwner⟩
  · have h := copyAssign_outcome s (.var v) (.var w)
    rw [step_of_run (.copyAssign v w) h.not_terminated]
    exact h.obtains hOwner fun u _ => owner_copied_this u _ _
  · have h := moveAssign_outcome s (.var v) (.var w)
    rw [step_of_run (.moveAssign v w) h.not_terminated]
    exact h.obtains hOwner fun u hNe => owner_moved_this u hNe

end Copies

section AnyOrder

def Heap.request (s : Heap) (v : Nat) : ImplId := (s.self.owner (.var v)).getD 0

/-- Two different requests with different result pointers. -/
def Heap.Apart (s : Heap) (i j : ImplId) : Prop :=
  i ≠ j ∧ ∀ p, ¬ ((s.impl i).result = some p ∧ (s.impl j).result = some p)

instance (s : Heap) : Std.Symm s.Apart :=
  ⟨fun _ _ hApart => ⟨hApart.1.symm, fun p hBoth => hApart.2 p hBoth.symm⟩⟩

/-- Variables that hold outstanding requests, all different and with different result pointers. -/
structure Family (s : Heap) (vs : List Nat) : Prop where
  pending : ∀ v ∈ vs, Pending s v (s.request v)
  apart : (vs.map s.request).Pairwise s.Apart

/-- One wait for each request, each exception caught by the caller. -/
def waitEach : List Nat → Heap → List (ImplId × Exit Exception Unit) × Heap
  | [], s => ([], s)
  | v :: vs, s =>
    let result := AsyncRequest.wait (.var v) s
    let rest := waitEach vs result.2
    ((s.request v, result.1) :: rest.1, rest.2)

def Heap.firstWrite (s : Heap) (memory : Pointer → Int32) (i : ImplId) : Pointer → Int32 :=
  writeBack (s.impl i).result (s.response i) memory

theorem firstWrite_comm {i j : ImplId} (h : s.Apart i j) (memory : Pointer → Int32) :
    s.firstWrite (s.firstWrite memory i) j = s.firstWrite (s.firstWrite memory j) i := by
  unfold Heap.firstWrite writeBack
  by_cases hi : (s.response i).success = true <;> by_cases hj : (s.response j).success = true
  · rw [if_pos hi, if_pos hi, if_pos hj, if_pos hj]
    cases hpi : (s.impl i).result with
    | none => rfl
    | some p =>
      cases hpj : (s.impl j).result with
      | none => rfl
      | some q =>
        have hNe : p ≠ q := fun hEq => h.2 p ⟨hpi, hEq ▸ hpj⟩
        exact Function.update_comm hNe _ _ _
  all_goals simp [hi, hj]

theorem waitEach_eq {vs : List Nat} (hSound : s.Sound) (hFamily : Family s vs) :
    (waitEach vs s).1 = (vs.map s.request).map (fun i => (i, verdict (s.response i))) ∧
      (waitEach vs s).2.memory = (vs.map s.request).foldl s.firstWrite s.memory := by
  induction vs generalizing s with
  | nil => exact ⟨rfl, rfl⟩
  | cons v vs ih =>
    have hApart : (s.request v :: vs.map s.request).Pairwise s.Apart := hFamily.apart
    obtain ⟨hFirst, hRest⟩ := List.pairwise_cons.mp hApart
    have hOutcome := wait_outcome s (.var v)
    obtain ⟨hExit, hMemory, hSelf, hImpl⟩ :=
      (hFamily.pending v List.mem_cons_self).wait hSound.tallied
    simp only [waitEach, List.map_cons, List.foldl_cons]
    generalize AsyncRequest.wait (.var v) s = waited at *
    obtain ⟨exit, t⟩ := waited
    -- the first wait leaves the other requests of the family as they were
    have hRequest : t.request = s.request := funext fun w => by rw [Heap.request, hSelf]; rfl
    have hOther : ∀ i ∈ vs.map s.request, t.impl i = s.impl i :=
      fun i hMem => hImpl i (hFirst i hMem).1.symm
    have hResponse : ∀ i ∈ vs.map s.request, t.response i = s.response i :=
      fun i hMem => by rw [Heap.response, hOther i hMem, Heap.response]
    have hFamily' : Family t vs := by
      refine ⟨fun w hMem => ?_, ?_⟩
      · have hPending := hFamily.pending w (List.mem_cons_of_mem _ hMem)
        rw [hRequest]
        refine ⟨hSelf ▸ hPending.self, ?_⟩
        rw [Heap.waits, hOther _ (List.mem_map_of_mem hMem)]
        exact hPending.unread
      · rw [hRequest]
        refine hRest.imp_of_mem fun {i j} hi hj hBoth => ?_
        unfold Heap.Apart
        rw [hOther i hi, hOther j hj]
        exact hBoth
    obtain ⟨hExits, hFinal⟩ := ih (hOutcome.sound hSound) hFamily'
    rw [hRequest] at hExits hFinal
    refine ⟨?_, ?_⟩
    · rw [hExits, show exit = verdict (s.response (s.request v)) from hExit]
      congr 1
      exact List.map_congr_left fun i hMem => by rw [hResponse i hMem]
    · rw [hFinal, show t.memory = s.firstWrite s.memory (s.request v) from hMemory]
      apply List.foldl_ext _ _ _
      intro memory i hMem
      rw [Heap.firstWrite, Heap.firstWrite, hResponse i hMem, hOther i hMem]

/-- Neither the order of the first waits nor the copies they go through make a difference. -/
theorem waitEach_perm {vs ws : List Nat} (hSound : s.Sound) (hFamily : Family s vs)
    (hPending : ∀ w ∈ ws, Pending s w (s.request w))
    (hPerm : (vs.map s.request).Perm (ws.map s.request)) :
    (waitEach vs s).1.Perm (waitEach ws s).1 ∧
      (waitEach vs s).2.memory = (waitEach ws s).2.memory := by
  have hFamily' : Family s ws :=
    ⟨hPending, (hPerm.pairwise_iff fun {_ _} hApart => Std.Symm.symm _ _ hApart).mp hFamily.apart⟩
  obtain ⟨hExits, hMemory⟩ := waitEach_eq hSound hFamily
  obtain ⟨hExits', hMemory'⟩ := waitEach_eq hSound hFamily'
  rw [hExits, hExits', hMemory, hMemory']
  refine ⟨hPerm.map _, hPerm.foldl_eq' (fun i hi j hj memory => ?_) _⟩
  by_cases hij : i = j
  · rw [hij]
  · exact firstWrite_comm (hFamily.apart.forall hi hj hij) memory

end AnyOrder

/-- What is said of one call, made in the heap `s` on the variable `v`. -/
structure RefinesSync (s : Heap) (handle : SequencerHandleImpl) (x y : Int32)
    (result : Option Pointer) (v : Nat) (answers : Nat → RequestResult Int32) (s₁ : Heap) : Prop where
  issued : (SequencerHandle.computeSum (some handle) x y result (some v) answers s).1 = .normal () ∧
    s₁.self.owner (.var v) = some s.next ∧ s₁.memory = s.memory
  /-- The asynchronous call sends what the synchronous one sends, and sends it once. -/
  sent : s₁.rpcs = s.rpcs ++ [(handle.m_ph, handle.m_sequencer_id, x, y)] ∧
    ∀ steps t, Run Next s₁ steps t →
      (SequencerHandle.computeSum (some handle) x y result none answers t).2.rpcs =
        t.rpcs ++ [(handle.m_ph, handle.m_sequencer_id, x, y)]
  untouched : ∀ steps t, Run Next s₁ steps t → t.waits s.next = 0 →
    ∃ new, t.log = s₁.log ++ new ∧ (∀ p value, .wrote (some s.next) p value ∉ new) ∧
      ∀ p, (∀ source value, .wrote source p value ∉ new) → t.memory p = s₁.memory p
  /-- Copies of the request are made by the copies and moves of a variable that refers to it. -/
  copies : ∀ steps t w w' op, Run Next s₁ steps t → t.self.owner (.var w) = some s.next →
    op ∈ [Operation.copyConstruct w' w, .moveConstruct w' w, .copyAssign w' w, .moveAssign w' w] →
    op.Valid t → Obtains t w' s.next (op.run t).1 (t.step op)
  firstWait : ∀ steps t w, Run Next s₁ steps t → Pending t w s.next →
    (AsyncRequest.wait (.var w) t).1 = verdict (answers 0) ∧
      (AsyncRequest.wait (.var w) t).2.memory = writeBack result (answers 0) t.memory ∧
      (SequencerHandle.computeSum (some handle) x y result none answers t).1 = verdict (answers 0) ∧
      (SequencerHandle.computeSum (some handle) x y result none answers t).2.memory =
        writeBack result (answers 0) t.memory
  laterWaits : ∀ steps t w, Run Next s₁ steps t → t.self.owner (.var w) = some s.next →
    (AsyncRequest.wait (.var w) t).1 = .normal () →
    ∀ steps' u w', Run Next (t.step (.wait w)) steps' u → u.self.owner (.var w') = some s.next →
      AsyncRequest.wait (.var w') u = (.normal (), u) ∧
        ∃ new, u.log = (t.step (.wait w)).log ++ new ∧ ∀ p value, .wrote (some s.next) p value ∉ new

section Call
variable (handle : SequencerHandleImpl) (x y : Int32) (result : Option Pointer) {v : Nat}
  (answers : Nat → RequestResult Int32)

def Heap.issued (s : Heap) (v : Nat) : Heap :=
  (((s.record (.sent handle.m_ph handle.m_sequencer_id x y)).requested answers result).moved
    (.var v) .temporary).assign .async_request_impl none

theorem computeSum_issued (hIdle : s.Idle) (hEmpty : s.self.owner (.var v) = none) :
    SequencerHandle.computeSum (some handle) x y result (some v) answers s =
      (.normal (), s.issued handle x y result answers v) := by
  have hAsync := computeSum_async hIdle handle x y result v answers
  have hNull : ((s.record (.sent handle.m_ph handle.m_sequencer_id x y)).requested
      answers result).self.owner (.var v) = none := by
    rw [Heap.owner_requested]
    exact hEmpty
  cases hCall : SequencerHandle.computeSum (some handle) x y result (some v) answers s with
  | mk exit t =>
    rw [hCall] at hAsync
    cases hAsync with
    | accepted u hPrelude =>
      cases hPrelude with
      | idle => rfl
      | settled i hSelf => rw [hNull] at hSelf; cases hSelf
    | dropped e u hPrelude =>
      cases hPrelude with
      | failed i hSelf => rw [hNull] at hSelf; cases hSelf

theorem impl_issued : (s.issued handle x y result answers v).impl s.next =
    { m_async_response := { answers := answers }, result := result } := by
  change Function.update s.impl s.next _ s.next = _
  exact Function.update_self _ _ _

theorem owner_issued : (s.issued handle x y result answers v).self.owner (.var v) = some s.next := by
  simp [Heap.issued, Heap.moved, Heap.copied, Heap.owner_requested]

/-- Whatever happened to the earlier request of the variable, the new one keeps what it was made
with. -/
theorem asked_evolves {req : Nat} {steps : List (Step Heap Operation)} (hSound : s.Sound)
    (hRun : Run Next (s.step (.computeSum (some handle) x y result (some req) answers)) steps t) :
    t.Sound ∧ t.response s.next = answers 0 ∧ (t.impl s.next).result = result ∧
      s.next < t.next := by
  have hAsync := computeSum_async hSound.idle handle x y result req answers
  have hAsked := (step_stepped hSound.idle
    (.computeSum (some handle) x y result (some req) answers) trivial).sound hSound
  rw [step_of_run (.computeSum (some handle) x y result (some req) answers)
    hAsync.not_terminated] at hRun hAsked
  obtain ⟨hAfter, hLater⟩ := run_evolves hAsked hRun
  have hEvolves := hAsync.evolves.trans hLater
  have hBorn : s.next < ((s.record (.sent handle.m_ph handle.m_sequencer_id x y)).requested
      answers result).next := Nat.lt_succ_self _
  have hImpl : ((s.record (.sent handle.m_ph handle.m_sequencer_id x y)).requested
      answers result).impl s.next = { m_async_response := { answers := answers }, result := result } := by
    rw [Heap.impl_requested]
    exact Function.update_self _ _ _
  refine ⟨hAfter, ?_, ?_, hBorn.trans_le hEvolves.next⟩
  · rw [hEvolves.response _ hBorn, Heap.response, hImpl]
  · rw [hEvolves.result _ hBorn, hImpl]

/-- The first wait for a request delivers the response it was made with. -/
theorem asked_wait {req w : Nat} {steps : List (Step Heap Operation)} (hSound : s.Sound)
    (hRun : Run Next (s.step (.computeSum (some handle) x y result (some req) answers)) steps t)
    (hPending : Pending t w s.next) :
    (AsyncRequest.wait (.var w) t).1 = verdict (answers 0) ∧
      (AsyncRequest.wait (.var w) t).2.memory = writeBack result (answers 0) t.memory := by
  obtain ⟨hAfter, hResponse, hResult, _⟩ := asked_evolves handle x y result answers hSound hRun
  obtain ⟨hExit, hMemory, _⟩ := hPending.wait hAfter.tallied
  rw [hResponse] at hExit hMemory
  rw [hResult] at hMemory
  exact ⟨hExit, hMemory⟩

/-- A call that returns leaves the new request to the variable. A call that throws has written
nothing: the exception is that of the earlier request. -/
theorem asked_exit (hSound : s.Sound) (req : Nat) :
    (SequencerHandle.computeSum (some handle) x y result (some req) answers s).1 = .normal () ∧
        Pending (s.step (.computeSum (some handle) x y result (some req) answers)) req s.next ∨
      ∃ e, (SequencerHandle.computeSum (some handle) x y result (some req) answers s).1 = .threw e ∧
        (SequencerHandle.computeSum (some handle) x y result (some req) answers s).2.memory =
          s.memory := by
  have hAsync := computeSum_async hSound.idle handle x y result req answers
  rw [step_of_run (.computeSum (some handle) x y result (some req) answers)
    hAsync.not_terminated, Operation.run]
  generalize (SequencerHandle.computeSum (some handle) x y result (some req) answers s).1 = exit
    at hAsync ⊢
  generalize (SequencerHandle.computeSum (some handle) x y result (some req) answers s).2 = t
    at hAsync ⊢
  cases hAsync with
  | accepted u hPrelude =>
    refine .inl ⟨rfl, ?_, ?_⟩
    · simp [Heap.moved, Heap.copied, hPrelude.self_eq, Heap.owner_requested]
    · -- an implicit wait is for another request
      have hWaits : u.waits s.next = 0 := by
        cases hPrelude with
        | idle => simp
        | settled i hSelf =>
          have hOld : i ≠ s.next := ((hSound.idle.record
            (.sent handle.m_ph handle.m_sequencer_id x y)).owner_requested_var answers result hSelf).2
          simp [Ne.symm hOld]
      exact hWaits
  | dropped e u hPrelude =>
    refine .inr ⟨e, rfl, ?_⟩
    cases hPrelude with
    | failed i _ _ _ hFailed =>
      apply (memory_deliver _ i).trans
      simp only [writeBack, hFailed, Bool.false_eq_true, ↓reduceIte]
      rfl

/-- What a call of `computeSum` sends, and what it and the first wait for it, where it is
asynchronous, do with this response. -/
structure DeliversSum (s : Heap) (handle : SequencerHandleImpl) (x y : Int32)
    (result : Option Pointer) (answers : Nat → RequestResult Int32) (response : RequestResult Int32) :
    Prop where
  sent : ∀ req, (SequencerHandle.computeSum (some handle) x y result req answers s).2.rpcs =
    s.rpcs ++ [(handle.m_ph, handle.m_sequencer_id, x, y)]
  sync : (SequencerHandle.computeSum (some handle) x y result none answers s).1 = verdict response ∧
    (SequencerHandle.computeSum (some handle) x y result none answers s).2.memory =
      writeBack result response s.memory
  issued : ∀ req,
    (SequencerHandle.computeSum (some handle) x y result (some req) answers s).1 = .normal () ∧
        Pending (s.step (.computeSum (some handle) x y result (some req) answers)) req s.next ∨
      ∃ e, (SequencerHandle.computeSum (some handle) x y result (some req) answers s).1 = .threw e ∧
        (SequencerHandle.computeSum (some handle) x y result (some req) answers s).2.memory = s.memory
  firstWait : ∀ req steps t w,
    Run Next (s.step (.computeSum (some handle) x y result (some req) answers)) steps t →
    Pending t w s.next →
    (AsyncRequest.wait (.var w) t).1 = verdict response ∧
      (AsyncRequest.wait (.var w) t).2.memory = writeBack result response t.memory

theorem delivers_sum (hSound : s.Sound) :
    DeliversSum s handle x y result answers (answers 0) where
  sent req := computeSum_rpcs hSound.idle handle x y result req answers
  sync := by
    rw [computeSum_sync, memory_answered]
    exact ⟨rfl, rfl⟩
  issued := asked_exit handle x y result answers hSound
  firstWait _ _ _ _ hRun hPending := asked_wait handle x y result answers hSound hRun hPending

/-- After a wait that returned, the request is done for good. -/
theorem wait_again {i : ImplId} {w w' : Nat} {steps : List (Step Heap Operation)} (hSound : s.Sound)
    (hOwner : s.self.owner (.var w) = some i) (hNormal : (AsyncRequest.wait (.var w) s).1 = .normal ())
    (hRun : Run Next (s.step (.wait w)) steps u) (hOwner' : u.self.owner (.var w') = some i) :
    AsyncRequest.wait (.var w') u = (.normal (), u) ∧
      ∃ new, u.log = (s.step (.wait w)).log ++ new ∧ ∀ p value, .wrote (some i) p value ∉ new := by
  have hOutcome := wait_outcome s (.var w)
  have hStep : s.step (.wait w) = (AsyncRequest.wait (.var w) s).2 :=
    step_of_run (.wait w) hOutcome.not_terminated
  rw [hStep] at hRun ⊢
  rw [hNormal] at hOutcome
  generalize (AsyncRequest.wait (.var w) s).2 = t at hOutcome hRun ⊢
  have hBorn : i < t.next := (hSound.idle.born hOwner).trans_le hOutcome.evolves.next
  have hWaited : t.m_waited i = true := by
    cases hOutcome with
    | again j hSelf hAgain => exact Option.some.inj (hSelf.symm.trans hOwner) ▸ hAgain
    | settled j hSelf =>
      rw [Heap.m_waited_settle, Option.some.inj (hSelf.symm.trans hOwner), decide_eq_true rfl]
      rfl
  obtain ⟨_, hEvolves⟩ := run_evolves (hOutcome.sound hSound) hRun
  obtain ⟨hStill, hSame⟩ := hEvolves.waited i hBorn hWaited
  obtain ⟨new, hLog, _, hNone⟩ := hEvolves.log
  refine ⟨?_, new, hLog, hNone i hBorn hSame⟩
  have hFinal := wait_outcome u (.var w')
  cases hWait : AsyncRequest.wait (.var w') u with
  | mk exit z =>
    rw [hWait] at hFinal
    cases hFinal with
    | invalid hNull => rw [hOwner'] at hNull; cases hNull
    | again => rfl
    | settled j hSelf hUnwaited =>
      rw [Option.some.inj (hSelf.symm.trans hOwner'), ← Heap.m_waited, hStill] at hUnwaited
      cases hUnwaited
    | failed j hSelf hUnwaited =>
      rw [Option.some.inj (hSelf.symm.trans hOwner'), ← Heap.m_waited, hStill] at hUnwaited
      cases hUnwaited

theorem issued_refinesSync (hSound : s.Sound) (hEmpty : s.self.owner (.var v) = none) :
    RefinesSync s handle x y result v answers
      (s.step (.computeSum (some handle) x y result (some v) answers)) := by
  have hCall := computeSum_issued handle x y result answers hSound.idle hEmpty
  have hAsync := computeSum_async hSound.idle handle x y result v answers
  have hStep : s.step (.computeSum (some handle) x y result (some v) answers) =
      s.issued handle x y result answers v := by
    rw [step_of_run (.computeSum (some handle) x y result (some v) answers)
      hAsync.not_terminated, Operation.run, hCall]
  have hIssued : (s.issued handle x y result answers v).Sound := by
    rw [← hStep]
    exact (step_stepped hSound.idle (.computeSum (some handle) x y result (some v) answers)
      trivial).sound hSound
  rw [hStep]
  constructor
  · exact ⟨by rw [hCall], owner_issued handle x y result answers, rfl⟩
  · refine ⟨?_, fun steps t hRun => ?_⟩
    · rw [← computeSum_rpcs hSound.idle handle x y result (some v) answers, hCall]
    · exact computeSum_rpcs (run_evolves hIssued hRun).1.idle handle x y result none answers
  · intro steps t hRun hUnread
    obtain ⟨new, hLog, hMemory, hNone⟩ := (run_evolves hIssued hRun).2.log
    refine ⟨new, hLog, hNone s.next (Nat.lt_succ_self _) ?_, fun p hUntouched => ?_⟩
    · rw [hUnread, Heap.waits, impl_issued]
    · rw [hMemory]
      exact replay_apply new _ p hUntouched
  · intro steps t w w' op _ hOwner hOp hValid
    exact copies_obtain hOwner hOp hValid
  · intro steps t w hRun hPending
    rw [← hStep] at hRun
    obtain ⟨hExit, hMemory⟩ := asked_wait handle x y result answers hSound hRun hPending
    refine ⟨hExit, hMemory, ?_, ?_⟩
    · rw [computeSum_sync]
    · rw [computeSum_sync, memory_answered]
      rfl
  · intro steps t w hRun hOwner hNormal steps' u w' hRun' hOwner'
    rw [← hStep] at hRun
    exact wait_again (asked_evolves handle x y result answers hSound hRun).1 hOwner hNormal hRun'
      hOwner'

/-- The asynchronous call on a variable that holds no request, and the first wait through any copy
at any later time, do what the synchronous call does; later waits do nothing; and outstanding
requests can be waited for in any order. -/
theorem async_refines_sync {memory : Pointer → Int32} {steps : List (Step Heap Operation)}
    (hRun : Run Next (.start memory) steps s) (hEmpty : s.self.owner (.var v) = none) :
    SequencerHandle.computeSum none x y result (some v) answers s =
        SequencerHandle.computeSum none x y result none answers s ∧
      RefinesSync s handle x y result v answers
        (s.step (.computeSum (some handle) x y result (some v) answers)) ∧
      ∀ vs ws, Family s vs → (∀ w ∈ ws, Pending s w (s.request w)) →
        (vs.map s.request).Perm (ws.map s.request) →
        (waitEach vs s).1.Perm (waitEach ws s).1 ∧
          (waitEach vs s).2.memory = (waitEach ws s).2.memory :=
  ⟨rfl, issued_refinesSync handle x y result answers (run_sound hRun) hEmpty,
    fun _ _ hFamily hPending hPerm => waitEach_perm (run_sound hRun) hFamily hPending hPerm⟩

end Call

def asksSecond : Operation :=
  .computeSum (some ⟨.cleared, 0⟩) 1 2 (some 1) (some 1) fun _ => refusedSum

/-- Two outstanding requests, the second of which has failed, and a copy of the first. -/
def twoOutstanding : Heap :=
  ((freshHeap.step (asks 0 summed)).step asksSecond).step (.copyConstruct 2 0)

theorem twoOutstanding_reached : ∃ steps, Run Next freshHeap steps twoOutstanding :=
  ⟨_, .snoc (.snoc (.snoc .nil (next_step freshHeap (asks 0 summed) rfl trivial))
    (next_step _ asksSecond rfl trivial)) (next_step _ (.copyConstruct 2 0) rfl rfl)⟩

theorem twoOutstanding_family : Family twoOutstanding [0, 1] := by
  refine ⟨fun v hMem => ?_, ?_⟩
  · rcases List.mem_pair.mp hMem with rfl | rfl
    · exact ⟨rfl, rfl⟩
    · exact ⟨rfl, rfl⟩
  · refine List.pairwise_pair.mpr ⟨by decide, ?_⟩
    rintro p ⟨hFirst, hSecond⟩
    exact absurd (Option.some.inj (hFirst.trans hSecond.symm)) (by decide)

theorem async_refines_sync_family :
    (waitEach [0, 1] twoOutstanding).1 = [(0, .normal ()), (1, .threw ⟨"not found"⟩)] ∧
      (waitEach [0, 1] twoOutstanding).1.Perm (waitEach [1, 2] twoOutstanding).1 ∧
      (waitEach [0, 1] twoOutstanding).2.memory = (waitEach [1, 2] twoOutstanding).2.memory ∧
      RefinesSync twoOutstanding ⟨.cleared, 0⟩ 3 4 (some 2) 3 (fun _ => summed)
        (twoOutstanding.step
          (.computeSum (some ⟨.cleared, 0⟩) 3 4 (some 2) (some 3) fun _ => summed)) := by
  obtain ⟨steps, hRun⟩ := twoOutstanding_reached
  obtain ⟨_, hRefines, hAnyOrder⟩ :=
    async_refines_sync ⟨.cleared, 0⟩ 3 4 (some 2) (v := 3) (fun _ => summed) hRun rfl
  have hPending : ∀ w ∈ [1, 2], Pending twoOutstanding w (twoOutstanding.request w) := by
    intro w hMem
    rcases List.mem_pair.mp hMem with rfl | rfl
    · exact ⟨rfl, rfl⟩
    · exact ⟨rfl, rfl⟩
  obtain ⟨hExits, hMemory⟩ :=
    hAnyOrder [0, 1] [1, 2] twoOutstanding_family hPending (List.Perm.swap _ _ _)
  exact ⟨rfl, hExits, hMemory, hRefines⟩

end Mobject
