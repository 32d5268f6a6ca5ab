import Mobject.Requests.Outcomes
import Mobject.Library.Lifetimes
import Mobject.Library.Runs

/-! # The heap over runs of operations

`Stepped` lists what one operation does to the heap, and `Sound` ties the heap to its log. Both
hold of every run, whatever the provider answers and whoever catches what is thrown.
-/
namespace Mobject
open SharedOwnership Unwinding Runs
set_option autoImplicit false

variable {s t : Heap}

/-- What one operation does to the heap `s`. -/
inductive Stepped (s : Heap) : Operation → Heap → Prop
  | construct (v : Nat) : Stepped s (.construct v) s
  | copyConstruct (v other : Nat) : s.self.owner (.var v) = none →
      Stepped s (.copyConstruct v other) (s.copied (.var v) (.var other))
  | moveConstruct (v other : Nat) : s.self.owner (.var v) = none →
      Stepped s (.moveConstruct v other) (s.moved (.var v) (.var other))
  | copyAssign (v other : Nat) (exit : Exit Exception Unit) (t : Heap) :
      AssignOutcome s (.var v) (.var other) (fun t => t.copied (.var v) (.var other)) exit t →
      Stepped s (.copyAssign v other) t
  | moveAssign (v other : Nat) (exit : Exit Exception Unit) (t : Heap) :
      AssignOutcome s (.var v) (.var other) (fun t => t.moved (.var v) (.var other)) exit t →
      Stepped s (.moveAssign v other) t
  | wait (v : Nat) (exit : Exit Exception Unit) (t : Heap) : WaitOutcome s (.var v) exit t →
      Stepped s (.wait v) t
  | completedInvalid (v : Nat) (received : Bool) : s.self.owner (.var v) = none →
      Stepped s (.completed v received) s
  | completed (v : Nat) (received : Bool) (i : ImplId) : s.self.owner (.var v) = some i →
      Stepped s (.completed v received) (s.record (.received i))
  | destroyed (v : Nat) (t : Heap) : Prelude s (.var v) (.normal ()) t →
      Stepped s (.destroy v) (t.assign (.var v) none)
  | terminated (v : Nat) (e : Exception) (t : Heap) : Prelude s (.var v) (.threw e) t →
      Stepped s (.destroy v) { t with terminated := true }
  | invalidHandle (x y : Int32) (result : Option Pointer) (req : Option Nat)
      (answers : Nat → RequestResult Int32) :
      Stepped s (.computeSum none x y result req answers) s
  | sync (handle : SequencerHandleImpl) (x y : Int32) (result : Option Pointer)
      (answers : Nat → RequestResult Int32) :
      Stepped s (.computeSum (some handle) x y result none answers)
        ((s.record (.sent handle.m_ph handle.m_sequencer_id x y)).answered result (answers 0))
  | async (handle : SequencerHandleImpl) (x y : Int32) (result : Option Pointer) (req : Nat)
      (answers : Nat → RequestResult Int32) (exit : Exit Exception Unit) (t : Heap) :
      AsyncOutcome ((s.record (.sent handle.m_ph handle.m_sequencer_id x y)).requested answers result)
        req exit t →
      Stepped s (.computeSum (some handle) x y result (some req) answers) t

theorem step_of_run (op : Operation) (hExit : (op.run s).1 ≠ .terminated) :
    s.step op = (op.run s).2 := by
  unfold Heap.step
  split
  · next h => rw [h]
  · next h => rw [h]
  · next h => rw [h] at hExit; exact absurd rfl hExit

theorem step_of_terminated {op : Operation} (h : op.run s = (.terminated, t)) :
    s.step op = { t with terminated := true } := by
  rw [Heap.step, h]

theorem AssignOutcome.not_terminated {this other : Owner} {f : Heap → Heap}
    {exit : Exit Exception Unit} (h : AssignOutcome s this other f exit t) : exit ≠ .terminated := by
  cases h <;> simp

theorem WaitOutcome.not_terminated {this : Owner} {exit : Exit Exception Unit}
    (h : WaitOutcome s this exit t) : exit ≠ .terminated := by
  cases h <;> simp

theorem AsyncOutcome.not_terminated {req : Nat} {exit : Exit Exception Unit}
    (h : AsyncOutcome s req exit t) : exit ≠ .terminated := by
  cases h <;> simp

theorem verdict_ne_terminated (response : RequestResult Int32) : verdict response ≠ .terminated := by
  unfold verdict
  split <;> simp

theorem step_stepped (hIdle : s.Idle) (op : Operation) (hValid : op.Valid s) :
    Stepped s op (s.step op) := by
  cases op with
  | construct v =>
    have hStep : s.step (.construct v) = s := Heap.assign_none s _ hValid
    rw [hStep]
    exact .construct v
  | copyConstruct v other => exact .copyConstruct v other hValid
  | moveConstruct v other => exact .moveConstruct v other hValid
  | copyAssign v other =>
    have h := copyAssign_outcome s (.var v) (.var other)
    rw [step_of_run (.copyAssign v other) h.not_terminated]
    exact .copyAssign v other _ _ h
  | moveAssign v other =>
    have h := moveAssign_outcome s (.var v) (.var other)
    rw [step_of_run (.moveAssign v other) h.not_terminated]
    exact .moveAssign v other _ _ h
  | wait v =>
    have h := wait_outcome s (.var v)
    rw [step_of_run (.wait v) h.not_terminated]
    exact .wait v _ _ h
  | completed v received =>
    cases hSelf : s.self.owner (.var v) with
    | none =>
      have hRun : (Operation.completed v received).run s = (.threw _, s) :=
        Proc.bind_threw (completed_invalid s received hSelf)
      rw [step_of_run _ (by simp [hRun]), hRun]
      exact .completedInvalid v received hSelf
    | some i =>
      have hRun : (Operation.completed v received).run s = (.normal (), s.record (.received i)) :=
        (Proc.bind_normal (completed_received s received hSelf)).trans rfl
      rw [step_of_run _ (by simp [hRun]), hRun]
      exact .completed v received i hSelf
  | destroy v =>
    have h : DestructorOutcome s (.var v) ((Operation.destroy v).run s).1
        ((Operation.destroy v).run s).2 := destructor_outcome s (.var v)
    cases hResult : (Operation.destroy v).run s with
    | mk exit t =>
      rw [hResult] at h
      cases h with
      | destroyed t hPrelude =>
        rw [step_of_run _ (by simp [hResult]), hResult]
        exact .destroyed v t hPrelude
      | terminated e t hPrelude =>
        rw [step_of_terminated hResult]
        exact .terminated v e t hPrelude
  | computeSum handle x y result req answers =>
    cases handle with
    | none => exact .invalidHandle x y result req answers
    | some handle =>
      cases req with
      | none =>
        have h := computeSum_sync handle x y result answers s
        have hExit := verdict_ne_terminated (answers 0)
        rw [step_of_run _ (by rwa [Operation.run, h]), Operation.run, h]
        exact .sync handle x y result answers
      | some req =>
        have h := computeSum_async hIdle handle x y result req answers
        rw [step_of_run (.computeSum (some handle) x y result (some req) answers)
          h.not_terminated]
        exact .async handle x y result req answers _ _ h

end Mobject
