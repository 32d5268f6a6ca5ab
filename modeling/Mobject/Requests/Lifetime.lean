import Mobject.Library.Reclaim
import Mobject.Requests.Responses

/-! # Impls are freed once, when nobody owns them any more

In every run, also one in which an implicit wait throws out of an assignment or of `computeSum`,
the impls that have been freed are those that no variable owns, and nothing is done with an impl
after that.
-/
namespace Mobject
open SharedOwnership Unwinding Runs
set_option autoImplicit false

/-- The impl that an event reads, writes for or frees. -/
def HeapEvent.impl : HeapEvent → Option ImplId
  | .sent .. => none
  | .invoked impl => some impl
  | .waited impl => some impl
  | .received impl => some impl
  | .wrote source _ _ => source
  | .freed impl => some impl

/-- What is freed stays untouched, and is not freed again. -/
def Untouched (log : List HeapEvent) : Prop :=
  log.Pairwise fun e e' => ∀ i, e = .freed i → e'.impl ≠ some i

theorem Untouched.of_kept {log : List HeapEvent} (h : ∀ e ∈ log, ∀ i, e ≠ .freed i) : Untouched log :=
  List.pairwise_of_forall_mem_list fun e hMem _ _ i hFreed => absurd hFreed (h e hMem i)

structure Heap.Released (s : Heap) : Prop where
  freed : s.Freed
  untouched : Untouched s.log

namespace Heap.Released
variable {s t : Heap} (h : s.Released)
include h

theorem append {new : List HeapEvent} (hLog : t.log = s.log ++ new) (hFreed : t.Freed)
    (hOwned : ∀ e ∈ new, ∀ i, e.impl = some i → s.self.uses i ≠ 0) (hNew : Untouched new) :
    t.Released := by
  refine ⟨hFreed, ?_⟩
  rw [hLog]
  refine List.pairwise_append.mpr ⟨h.untouched, hNew, ?_⟩
  rintro _ hGone e hMem i rfl hImpl
  exact hOwned e hMem i hImpl ((h.freed.freed i).mp hGone).2

theorem assign (o : Owner) (x : Option ImplId) (hx : ∀ i, x = some i → s.self.uses i ≠ 0) :
    (s.assign o x).Released := by
  refine h.append (s.log_assign o x) (h.freed.assign o x hx) ?_ ?_
  · intro e hMem i hImpl
    simp only [Option.mem_toList, Option.map_eq_some_iff] at hMem
    obtain ⟨j, hReleased, rfl⟩ := hMem
    obtain rfl : j = i := Option.some.inj hImpl
    exact ((s.self.released_iff o x).mp hReleased).1
  · cases s.self.released o x with
    | none => exact .nil
    | some i => exact List.pairwise_singleton _ _

theorem copied (this other : Owner) : (s.copied this other).Released :=
  h.assign _ _ fun _ hOwner => (s.self.uses_pos hOwner).ne'

theorem moved (this other : Owner) : (s.moved this other).Released :=
  (h.copied this other).assign _ _ (by simp)

theorem deliver {i : ImplId} (hOwned : s.self.uses i ≠ 0) : (s.deliver i).Released := by
  have hEvents : ∀ e ∈ [.invoked i] ++ [.waited i] ++ s.written i,
      e.impl = some i ∧ ∀ j, e ≠ .freed j := by
    intro e hMem
    simp only [List.mem_append, List.mem_singleton, mem_written] at hMem
    rcases hMem with (rfl | rfl) | ⟨_, result, _, rfl⟩ <;> simp [HeapEvent.impl]
  refine h.append (by rw [log_deliver, List.append_assoc, List.append_assoc, List.append_assoc])
    (h.freed.congr (s.self_deliver i) (s.next_deliver i) (s.mem_freed_deliver i)) ?_
    (.of_kept fun e hMem => (hEvents e hMem).2)
  intro e hMem j hImpl
  rw [(hEvents e hMem).1] at hImpl
  exact Option.some.inj hImpl ▸ hOwned

theorem settle {i : ImplId} (hOwned : s.self.uses i ≠ 0) : (s.settle i).Released :=
  ⟨(h.deliver hOwned).freed.congr rfl rfl fun _ => Iff.rfl, (h.deliver hOwned).untouched⟩

theorem record {e : HeapEvent} (hKept : ∀ i, e ≠ .freed i)
    (hOwned : ∀ i, e.impl = some i → s.self.uses i ≠ 0) : (s.record e).Released := by
  refine h.append rfl (h.freed.congr rfl rfl fun i => ?_) (by simpa using hOwned)
    (.of_kept (by simpa using hKept))
  rw [log_record, List.mem_append, List.mem_singleton]
  exact or_iff_left (Ne.symm (hKept i))

theorem answered (result : Option Pointer) (response : RequestResult Int32) :
    (s.answered result response).Released := by
  unfold Heap.answered
  split
  · cases result with
    | none => exact h
    | some result =>
      refine h.append (t := s.store none result response.value) rfl ?_ (by simp [HeapEvent.impl])
        (.of_kept (by simp))
      exact h.freed.congr rfl rfl fun i => by simp [store]
  · exact h

theorem requested (hIdle : s.Idle) (answers : Nat → RequestResult Int32) (result : Option Pointer) :
    (s.requested answers result).Released :=
  ⟨h.freed.requested hIdle answers result, by
    rw [hIdle.log_requested]
    exact h.untouched⟩

end Heap.Released

section Outcomes
variable {s t : Heap}

theorem Prelude.released {this : Owner} {exit : Exit Exception Unit} (h : Prelude s this exit t)
    (hReleased : s.Released) : t.Released := by
  cases h with
  | idle => exact hReleased
  | settled i hSelf => exact hReleased.settle (s.self.uses_pos hSelf).ne'
  | failed i hSelf => exact hReleased.deliver (s.self.uses_pos hSelf).ne'

theorem WaitOutcome.released {this : Owner} {exit : Exit Exception Unit}
    (h : WaitOutcome s this exit t) (hReleased : s.Released) : t.Released := by
  cases h with
  | invalid | again => exact hReleased
  | settled i hSelf => exact hReleased.settle (s.self.uses_pos hSelf).ne'
  | failed i hSelf => exact hReleased.deliver (s.self.uses_pos hSelf).ne'

theorem AssignOutcome.released {this other : Owner} {f : Heap → Heap} {exit : Exit Exception Unit}
    (h : AssignOutcome s this other f exit t) (hReleased : s.Released)
    (hFinish : ∀ t : Heap, t.Released → (f t).Released) : t.Released := by
  cases h with
  | same => exact hReleased
  | assigned t _ _ hPrelude => exact hFinish t (hPrelude.released hReleased)
  | threw e t _ _ hPrelude => exact hPrelude.released hReleased

theorem AsyncOutcome.released {req : Nat} {exit : Exit Exception Unit} (h : AsyncOutcome s req exit t)
    (hReleased : s.Released) : t.Released := by
  cases h with
  | accepted u hPrelude =>
    exact ((hPrelude.released hReleased).moved (.var req) .temporary).assign _ _ (by simp)
  | dropped e u hPrelude =>
    exact ((hPrelude.released hReleased).assign .temporary none (by simp)).assign _ _ (by simp)

theorem Stepped.released {op : Operation} (h : Stepped s op t) (hIdle : s.Idle)
    (hReleased : s.Released) : t.Released := by
  have hSent : ∀ m_ph sequencer_id x y, (s.record (.sent m_ph sequencer_id x y)).Released :=
    fun _ _ _ _ => hReleased.record (by simp) (by simp [HeapEvent.impl])
  cases h with
  | construct | completedInvalid | invalidHandle => exact hReleased
  | copyConstruct v other => exact hReleased.copied _ _
  | moveConstruct v other => exact hReleased.moved _ _
  | copyAssign v other exit t hAssign => exact hAssign.released hReleased fun t ht => ht.copied _ _
  | moveAssign v other exit t hAssign => exact hAssign.released hReleased fun t ht => ht.moved _ _
  | wait v exit t hWait => exact hWait.released hReleased
  | completed v received i hSelf =>
    refine hReleased.record (by simp) fun j hImpl => ?_
    exact Option.some.inj hImpl ▸ (s.self.uses_pos hSelf).ne'
  | destroyed v t hPrelude => exact (hPrelude.released hReleased).assign _ none (by simp)
  | terminated v e t hPrelude =>
    have hUntil := hPrelude.released hReleased
    exact ⟨hUntil.freed.congr rfl rfl fun _ => Iff.rfl, hUntil.untouched⟩
  | sync handle x y result answers => exact (hSent _ _ _ _).answered _ _
  | async handle x y result req answers exit t hAsync =>
    exact hAsync.released ((hSent _ _ _ _).requested (hIdle.record _) answers result)

end Outcomes

/-- No impl leaks and none is used or freed once it has been freed. -/
structure ImplsSafe (s : Heap) : Prop where
  untouched : Untouched s.log
  freed_iff : ∀ i, .freed i ∈ s.log ↔ i < s.next ∧ ∀ v, s.self.owner (.var v) ≠ some i

theorem Heap.Idle.uses_eq_zero_iff {s : Heap} (hIdle : s.Idle) (i : ImplId) :
    s.self.uses i = 0 ↔ ∀ v, s.self.owner (.var v) ≠ some i := by
  rw [s.self.uses_eq_zero_iff]
  refine ⟨fun hNone v => hNone (.var v), fun hNone o => ?_⟩
  cases o with
  | var v => exact hNone v
  | temporary => simp [hIdle.temporary]
  | async_request_impl => simp [hIdle.async_request_impl]

theorem impls_safe {s : Heap} {memory : Pointer → Int32} {steps : List (Step Heap Operation)}
    (hRun : Run Next (.start memory) steps s) : ImplsSafe s := by
  have hStart := Heap.start_sound memory
  have hBoth : s.Sound ∧ s.Released := by
    refine hRun.invariant (I := fun s => s.Sound ∧ s.Released) ⟨hStart, hStart.freed, .nil⟩ ?_
    rintro s op t ⟨hSound, hReleased⟩ hNext
    obtain ⟨hStepped, hAfter⟩ := next_sound hSound hNext
    exact ⟨hAfter, hStepped.released hSound.idle hReleased⟩
  refine ⟨hBoth.2.untouched, fun i => ?_⟩
  rw [hBoth.1.freed.freed, hBoth.1.idle.uses_eq_zero_iff]

/-- The move out of the temporary throws, since it waits for a failure that is still in the
variable; the new impl is freed on the way out, and the old one kept. -/
theorem dropped_impl_safe : ImplsSafe (failing.step (asks 0 summed)) :=
  impls_safe (.snoc (.snoc .nil next_failing) (next_step failing (asks 0 summed) rfl trivial))

end Mobject
