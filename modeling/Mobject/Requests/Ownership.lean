import Mobject.Requests.Responses

/-! # Destructors that return, and assignments that transfer

A destructor ends the program exactly when its implicit wait throws. An assignment is exact in
every reachable heap, but for a move between two handles of one request, which keeps its source.
-/
namespace Mobject
open SharedOwnership Unwinding Runs
set_option autoImplicit false

variable {s t : Heap}

namespace Heap
variable (s : Heap) (i : ImplId) (o : Owner) (x : Option ImplId) (e : HeapEvent)

@[simp] theorem terminated_record : (s.record e).terminated = s.terminated := rfl
@[simp] theorem terminated_assign : (s.assign o x).terminated = s.terminated := rfl

@[simp] theorem terminated_deliver : (s.deliver i).terminated = s.terminated := by
  unfold deliver
  split
  · split <;> rfl
  · rfl

@[simp] theorem terminated_settle : (s.settle i).terminated = s.terminated := s.terminated_deliver i

@[simp] theorem terminated_answered (result : Option Pointer) (response : RequestResult Int32) :
    (s.answered result response).terminated = s.terminated := by
  unfold answered
  split
  · split <;> rfl
  · rfl

@[simp] theorem terminated_requested (answers : Nat → RequestResult Int32) (result : Option Pointer) :
    (s.requested answers result).terminated = s.terminated := rfl

end Heap

theorem Prelude.terminated_eq {this : Owner} {exit : Exit Exception Unit}
    (h : Prelude s this exit t) : t.terminated = s.terminated := by
  cases h with
  | idle => rfl
  | settled | failed => simp

theorem AssignOutcome.terminated_eq {this other : Owner} {f : Heap → Heap}
    {exit : Exit Exception Unit} (h : AssignOutcome s this other f exit t)
    (hFinish : ∀ t : Heap, (f t).terminated = t.terminated) : t.terminated = s.terminated := by
  cases h with
  | same => rfl
  | assigned t _ _ hPrelude => exact (hFinish t).trans hPrelude.terminated_eq
  | threw e t _ _ hPrelude => exact hPrelude.terminated_eq

theorem WaitOutcome.terminated_eq {this : Owner} {exit : Exit Exception Unit}
    (h : WaitOutcome s this exit t) : t.terminated = s.terminated := by
  cases h with
  | invalid | again => rfl
  | settled | failed => simp

theorem AsyncOutcome.terminated_eq {req : Nat} {exit : Exit Exception Unit}
    (h : AsyncOutcome s req exit t) : t.terminated = s.terminated := by
  -- the temporary is destroyed empty, or while `async_request_impl` shares its request
  cases h with
  | accepted u hPrelude | dropped e u hPrelude => exact hPrelude.terminated_eq

/-- The condition under which a destructor returns: where its object is the last handle of a
request whose `m_waited` is not set, what the implicit wait reads is a success. -/
def DropsSuccess (s : Heap) : Operation → Prop
  | .destroy v => ∀ i, s.LastWait (.var v) i → (s.answer i).success = true
  | _ => True

theorem Prelude.failure {this : Owner} {e : Exception} (h : Prelude s this (.threw e) t) :
    ∃ i, s.LastWait this i ∧ (s.answer i).success = false := by
  cases h with
  | failed i hSelf hUses hWaited hFailed => exact ⟨i, ⟨hSelf, hUses, hWaited⟩, hFailed⟩

theorem Stepped.terminated_iff {op : Operation} (h : Stepped s op t) :
    t.terminated = false ↔ s.terminated = false ∧ DropsSuccess s op := by
  cases h with
  | construct | completedInvalid | invalidHandle => simp [DropsSuccess]
  | copyConstruct | moveConstruct => simp [DropsSuccess, Heap.copied, Heap.moved]
  | copyAssign v other exit t hAssign =>
    rw [hAssign.terminated_eq fun _ => rfl]
    simp [DropsSuccess]
  | moveAssign v other exit t hAssign =>
    rw [hAssign.terminated_eq fun _ => rfl]
    simp [DropsSuccess]
  | wait v exit t hWait =>
    rw [hWait.terminated_eq]
    simp [DropsSuccess]
  | completed => simp [DropsSuccess]
  | destroyed v t hPrelude =>
    rw [Heap.terminated_assign, hPrelude.terminated_eq]
    exact (and_iff_left fun i hLast => hPrelude.success hLast).symm
  | terminated v e t hPrelude =>
    obtain ⟨i, hLast, hFailed⟩ := hPrelude.failure
    refine iff_of_false (by simp) fun hReturns => ?_
    rw [hReturns.2 i hLast] at hFailed
    cases hFailed
  | sync => simp [DropsSuccess]
  | async handle x y result req answers exit t hAsync =>
    rw [hAsync.terminated_eq]
    simp [DropsSuccess]

/-- No exception leaves a destructor, of a variable or of a temporary, exactly as long as no
variable is destroyed that is the last handle of a request whose response, not yet waited for or
thrown before, is a failure. -/
theorem destructors_return_iff {memory : Pointer → Int32} {steps : List (Step Heap Operation)}
    (hRun : Run Next (.start memory) steps s) :
    (∀ x ∈ steps, x.after.terminated = false) ↔ ∀ x ∈ steps, DropsSuccess x.before x.label := by
  refine hRun.exact_condition (I := fun s => s.Sound) (G := fun _ _ t => t.terminated = false)
    (Heap.start_sound memory) ?_ ?_
  · intro s op t hSound hNext hDrops
    obtain ⟨hStepped, hAfter⟩ := next_sound hSound hNext
    exact ⟨hAfter, hStepped.terminated_iff.mpr ⟨hNext.1, hDrops⟩⟩
  · intro s op t hSound hNext hNot hLive
    exact hNot ((next_sound hSound hNext).1.terminated_iff.mp hLive).2

theorem destructor_returns_once :
    DropsSuccess succeeding (.destroy 0) ∧ (succeeding.step (.destroy 0)).terminated = false := by
  have hDrops : DropsSuccess succeeding (.destroy 0) := by
    rintro i ⟨hSelf, _⟩
    obtain rfl : 0 = i := Option.some.inj hSelf
    rfl
  have hRun := Run.snoc (.snoc .nil next_succeeding) (next_step succeeding (.destroy 0) rfl trivial)
  refine ⟨hDrops, (destructors_return_iff hRun).mpr (fun x hMem => ?_) _
    (List.mem_append_right _ (List.mem_singleton_self _))⟩
  rcases List.mem_append.mp hMem with hFirst | hSecond
  · rw [List.mem_singleton.mp hFirst]
    trivial
  · rw [List.mem_singleton.mp hSecond]
    exact hDrops

/-- Dropping a failed request ends the program, whether or not its exception was caught before. -/
theorem failed_request_terminates :
    (∃ steps, Run Next freshHeap steps (failing.step (.destroy 0))) ∧
      (failing.step (.destroy 0)).terminated = true ∧
      (∃ steps, Run Next freshHeap steps caughtFailure) ∧ caughtFailure.terminated = true := by
  refine ⟨⟨_, .snoc (.snoc .nil next_failing) (next_step failing (.destroy 0) rfl trivial)⟩, rfl,
    ⟨_, .snoc (.snoc (.snoc .nil next_failing) (next_step failing (.wait 0) rfl trivial))
      (next_step _ (.destroy 0) rfl trivial)⟩, rfl⟩

/-- What an assignment to `v` owes its caller that is to leave `left` in `other`. -/
structure AssignsExactly (s : Heap) (v other : Nat) (left : Option ImplId)
    (exit : Exit Exception Unit) (t : Heap) : Prop where
  returns : exit ≠ .terminated
  self : v = other → exit = .normal () ∧ t = s
  transferred : v ≠ other → exit = .normal () → t.self.owner =
    Function.update (Function.update s.self.owner (.var other) left) (.var v)
      (s.self.owner (.var other))
  threw : ∀ e, exit = .threw e → t.self.owner = s.self.owner
  counted : ∀ i, {w | t.self.owner (.var w) = some i}.encard = t.self.uses i

def AssignsWell (s : Heap) (op : Operation) (t : Heap) : Prop :=
  match op with
  | .copyAssign v other => AssignsExactly s v other (s.self.owner (.var other)) (op.run s).1 t
  | .moveAssign v other => AssignsExactly s v other none (op.run s).1 t
  | _ => True

/-- The condition under which an assignment is exact: it does not move between two variables that
share a request. -/
def MovesUnshared (s : Heap) : Operation → Prop
  | .moveAssign v other =>
    v ≠ other → s.self.owner (.var v) = s.self.owner (.var other) → s.self.owner (.var other) = none
  | _ => True

theorem Heap.Idle.counted (hIdle : s.Idle) (i : ImplId) :
    {w | s.self.owner (.var w) = some i}.encard = s.self.uses i := by
  have hInjective : Function.Injective Owner.var := fun _ _ => Owner.var.inj
  have hImage : {o | s.self.owner o = some i} = Owner.var '' {w | s.self.owner (.var w) = some i} := by
    ext o
    cases o with
    | var w => simp
    | temporary => simp [hIdle.temporary]
    | async_request_impl => simp [hIdle.async_request_impl]
  rw [← s.self.counted i, hImage, hInjective.encard_image]

theorem owner_copied (s : Heap) (v other : Nat) :
    (s.copied (.var v) (.var other)).self.owner =
      Function.update (Function.update s.self.owner (.var other) (s.self.owner (.var other))) (.var v)
        (s.self.owner (.var other)) := by
  rw [Function.update_eq_self]
  rfl

theorem owner_moved (s : Heap) {v other : Nat} (hNe : v ≠ other) :
    (s.moved (.var v) (.var other)).self.owner =
      Function.update (Function.update s.self.owner (.var other) none) (.var v)
        (s.self.owner (.var other)) := by
  have hOwner : Owner.var v ≠ .var other := fun hEq => hNe (Owner.var.inj hEq)
  exact Function.update_comm hOwner _ _ _

/-- Two handles of one request are told apart by what the assignment is to leave in the second. -/
theorem AssignOutcome.exact_iff {v other : Nat} {f : Heap → Heap} {left : Option ImplId}
    {exit : Exit Exception Unit} (h : AssignOutcome s (.var v) (.var other) f exit t)
    (hSound : t.Sound) (hFinish : ∀ u : Heap, u.self = s.self → v ≠ other →
      (f u).self.owner = Function.update (Function.update s.self.owner (.var other) left) (.var v)
        (s.self.owner (.var other))) :
    AssignsExactly s v other left exit t ↔
      (v ≠ other → s.self.owner (.var v) = s.self.owner (.var other) →
        s.self.owner (.var other) = left) := by
  have hVar : Owner.var v = .var other ↔ v = other := ⟨Owner.var.inj, fun hEq => hEq ▸ rfl⟩
  cases h with
  | same hSame =>
    -- the early return, for one object and for two handles of one request
    constructor
    · intro hExact hNe _
      have hOwner := congrFun (hExact.transferred hNe rfl) (.var other)
      simpa [Ne.symm hNe] using hOwner
    · intro hLeft
      refine ⟨by simp, fun _ => ⟨rfl, rfl⟩, fun hNe _ => ?_, by simp, hSound.idle.counted⟩
      have hShared : s.self.owner (.var v) = s.self.owner (.var other) :=
        hSame.resolve_left (mt hVar.mp hNe)
      rw [← hLeft hNe hShared, Function.update_eq_self, ← hShared, Function.update_eq_self]
  | assigned u hNe hSelf hPrelude =>
    refine iff_of_true ?_ fun _ hShared => absurd hShared hSelf
    refine ⟨by simp, fun hEq => absurd (hVar.mpr hEq) hNe, fun hOther _ => ?_, by simp,
      hSound.idle.counted⟩
    exact hFinish u hPrelude.self_eq hOther
  | threw e _ hNe hSelf hPrelude =>
    refine iff_of_true ?_ fun _ hShared => absurd hShared hSelf
    exact ⟨by simp, fun hEq => absurd (hVar.mpr hEq) hNe, by simp,
      fun _ _ => by rw [hPrelude.self_eq], hSound.idle.counted⟩

theorem assignsWell_iff (hSound : s.Sound) (op : Operation) :
    AssignsWell s op (s.step op) ↔ MovesUnshared s op := by
  cases op with
  | copyAssign v other =>
    have h : AssignOutcome s (.var v) (.var other) (fun t => t.copied (.var v) (.var other))
        ((Operation.copyAssign v other).run s).1 ((Operation.copyAssign v other).run s).2 :=
      copyAssign_outcome s (.var v) (.var other)
    have hAfter := h.sound hSound fun t ht => ht.copied v other
    rw [AssignsWell, step_of_run _ h.not_terminated,
      h.exact_iff hAfter fun u hSelf _ => hSelf ▸ owner_copied u v other]
    exact iff_of_true (fun _ _ => rfl) trivial
  | moveAssign v other =>
    have h : AssignOutcome s (.var v) (.var other) (fun t => t.moved (.var v) (.var other))
        ((Operation.moveAssign v other).run s).1 ((Operation.moveAssign v other).run s).2 :=
      moveAssign_outcome s (.var v) (.var other)
    have hAfter := h.sound hSound fun t ht => ht.moved v other
    rw [AssignsWell, step_of_run _ h.not_terminated]
    exact h.exact_iff hAfter fun u hSelf hNe => hSelf ▸ owner_moved u hNe
  | construct | copyConstruct | moveConstruct | wait | completed | destroy | computeSum => exact Iff.rfl

/-- In every reachable heap every assignment transfers ownership exactly, or throws and transfers
nothing, but for a move between two variables that share a request: the operator returns at once
there, where its last statement and the move constructor empty the source. -/
theorem assignments_exact_iff {memory : Pointer → Int32} {steps : List (Step Heap Operation)}
    (hRun : Run Next (.start memory) steps s) :
    (∀ op, AssignsWell s op (s.step op) ↔ MovesUnshared s op) ∧
      ((∀ x ∈ steps, AssignsWell x.before x.label x.after) ↔
        ∀ x ∈ steps, MovesUnshared x.before x.label) := by
  refine ⟨assignsWell_iff (run_sound hRun), ?_⟩
  refine hRun.exact_condition (I := fun s => s.Sound) (G := AssignsWell)
    (Heap.start_sound memory) ?_ ?_
  · intro s op t hSound hNext hUnshared
    refine ⟨(next_sound hSound hNext).2, ?_⟩
    rw [hNext.2.2]
    exact (assignsWell_iff hSound op).mpr hUnshared
  · intro s op t hSound hNext hNot hWell
    rw [hNext.2.2] at hWell
    exact hNot ((assignsWell_iff hSound op).mp hWell)

theorem assignment_exact_once : AssignsWell failing (.moveAssign 1 0) (failing.step (.moveAssign 1 0)) :=
  ((assignments_exact_iff (.snoc .nil next_failing)).1 (.moveAssign 1 0)).mpr
    fun _ hShared => (by cases hShared)

def shared : Heap := succeeding.step (.copyConstruct 1 0)

theorem shared_source_kept :
    (∃ steps, Run Next freshHeap steps shared) ∧
      ¬ AssignsWell shared (.moveAssign 0 1) (shared.step (.moveAssign 0 1)) := by
  refine ⟨⟨_, .snoc (.snoc .nil next_succeeding)
    (next_step succeeding (.copyConstruct 1 0) rfl rfl)⟩, fun hWell => ?_⟩
  have hOwner := congrFun (hWell.transferred (by decide) rfl) (.var 1)
  exact absurd hOwner (by decide)

end Mobject
