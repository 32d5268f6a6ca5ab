import Mobject.Library.Interleaving

/-! # The shape of a program

What all paths through a program have in common, read off the program by recursion: certain events
never come, or come exactly once on the way to the end, or the way is not longer than so many
actions. In a run each participant follows a path, so the run inherits these facts.
-/
namespace Interleaving
set_option autoImplicit false

namespace Prog
variable {A : Type} {R : A → Type} {α : Type}

def Never (Q : Event R → Prop) : Prog A R α → Prop
  | .pure _ => True
  | .act a next => ∀ r, ¬ Q ⟨a, r⟩ ∧ Never Q (next r)

/-- On every way to the end exactly one event is in `Q`. -/
def Once (Q : Event R → Prop) : Prog A R α → Prop
  | .pure _ => False
  | .act a next => ∀ r, Q ⟨a, r⟩ ∧ Never Q (next r) ∨ ¬ Q ⟨a, r⟩ ∧ Once Q (next r)

/-- Wherever the program ends, `Q` holds of all its events, the first of them being `t`. -/
def Ensures (Q : List (Event R) → Prop) : Prog A R α → List (Event R) → Prop
  | .pure _, t => Q t
  | .act a next, t => ∀ r, Ensures Q (next r) (t ++ [⟨a, r⟩])

/-- No way to the end is longer than this. -/
def Within : Nat → Prog A R α → Prop
  | _, .pure _ => True
  | 0, .act .. => False
  | n + 1, .act _ next => ∀ r, Within n (next r)

end Prog

section Paths
variable {A : Type} {R : A → Type} {α : Type} {Q : Event R → Prop} {p q : Prog A R α}
  {t : List (Event R)}

theorem Path.never (h : Path p t q) (hNever : p.Never Q) : (∀ e ∈ t, ¬ Q e) ∧ q.Never Q := by
  induction h with
  | nil p => exact ⟨by simp, hNever⟩
  | @cons a next r t q _ ih =>
    obtain ⟨hHead, hRest⟩ := hNever r
    obtain ⟨hNone, hLeft⟩ := ih hRest
    exact ⟨List.forall_mem_cons.mpr ⟨hHead, hNone⟩, hLeft⟩

theorem Path.once (h : Path p t q) (hOnce : p.Once Q) :
    (∀ e ∈ t, ¬ Q e) ∧ q.Once Q ∨ ∃ pre e post, t = pre ++ e :: post ∧ Q e ∧
      (∀ e' ∈ pre, ¬ Q e') ∧ (∀ e' ∈ post, ¬ Q e') ∧ q.Never Q := by
  induction h with
  | nil p => exact .inl ⟨by simp, hOnce⟩
  | @cons a next r t q hTail ih =>
    rcases hOnce r with ⟨hHead, hNever⟩ | ⟨hHead, hRest⟩
    · obtain ⟨hNone, hLeft⟩ := hTail.never hNever
      exact .inr ⟨[], ⟨a, r⟩, t, rfl, hHead, by simp, hNone, hLeft⟩
    · rcases ih hRest with ⟨hNone, hLeft⟩ | ⟨pre, e, post, rfl, he, hPre, hPost, hLeft⟩
      · exact .inl ⟨List.forall_mem_cons.mpr ⟨hHead, hNone⟩, hLeft⟩
      · exact .inr ⟨⟨a, r⟩ :: pre, e, post, rfl, he, List.forall_mem_cons.mpr ⟨hHead, hPre⟩, hPost,
          hLeft⟩

theorem Path.once_pairwise (h : Path p t q) (hOnce : p.Once Q) :
    t.Pairwise fun e e' => ¬ (Q e ∧ Q e') := by
  rcases h.once hOnce with ⟨hNone, _⟩ | ⟨pre, e, post, rfl, _, hPre, hPost, _⟩
  · exact List.pairwise_of_forall_mem_list fun e hMem e' _ hBoth => hNone e hMem hBoth.1
  · refine List.pairwise_append.mpr ⟨?_, List.pairwise_cons.mpr ⟨?_, ?_⟩, ?_⟩
    · exact List.pairwise_of_forall_mem_list fun e' hMem _ _ hBoth => hPre e' hMem hBoth.1
    · exact fun e' hMem hBoth => hPost e' hMem hBoth.2
    · exact List.pairwise_of_forall_mem_list fun e' hMem _ _ hBoth => hPost e' hMem hBoth.1
    · exact fun e' hMem _ _ hBoth => hPre e' hMem hBoth.1

theorem Path.once_finished {value : α} (h : Path p t (.pure value)) (hOnce : p.Once Q) :
    ∃ pre e post, t = pre ++ e :: post ∧ Q e ∧ (∀ e' ∈ pre, ¬ Q e') ∧ ∀ e' ∈ post, ¬ Q e' := by
  rcases h.once hOnce with ⟨_, hLeft⟩ | ⟨pre, e, post, hSplit, he, hPre, hPost, _⟩
  · cases hLeft
  · exact ⟨pre, e, post, hSplit, he, hPre, hPost⟩

theorem Path.ensures {Q : List (Event R) → Prop} {value : α} (h : Path p t (.pure value))
    (pre : List (Event R)) (hEnsures : p.Ensures Q pre) : Q (pre ++ t) := by
  generalize hq : Prog.pure value = q at h
  induction h generalizing pre with
  | nil p =>
    subst hq
    rwa [List.append_nil]
  | @cons a next r t q _ ih =>
    have hRest := ih (pre ++ [⟨a, r⟩]) (hEnsures r) hq
    rwa [List.append_assoc] at hRest

theorem Path.along_mem {Q : List (Event R) → A → Prop} (h : Path p t q) {pre : List (Event R)}
    (hQ : Along Q p pre) : ∀ e ∈ t, ∃ before, Q before e.1 := by
  induction h generalizing pre with
  | nil p => simp
  | @cons a next r t q _ ih => exact List.forall_mem_cons.mpr ⟨⟨pre, hQ.1⟩, ih (hQ.2 r)⟩

theorem Path.within {n : Nat} (h : Path p t q) (hWithin : p.Within n) :
    t.length ≤ n ∧ q.Within (n - t.length) := by
  induction h generalizing n with
  | nil p => exact ⟨Nat.zero_le n, hWithin⟩
  | @cons a next r t q _ ih =>
    cases n with
    | zero => cases hWithin
    | succ n =>
      obtain ⟨hLength, hLeft⟩ := ih (hWithin r)
      exact ⟨Nat.succ_le_succ hLength, by simpa [Nat.succ_sub_succ] using hLeft⟩

theorem Prog.Within.mono {n n' : Nat} (h : p.Within n) (hLe : n ≤ n') : p.Within n' := by
  induction p generalizing n n' with
  | pure value => cases n' <;> trivial
  | act a next ih =>
    cases n with
    | zero => cases h
    | succ n =>
      obtain ⟨m, rfl⟩ := Nat.exists_eq_add_of_le' (Nat.lt_of_lt_of_le (Nat.succ_pos n) hLe)
      exact fun r => ih r (h r) (Nat.le_of_succ_le_succ hLe)

end Paths

section Turns
variable {ι S E A : Type} {R : A → Type} {α : Type} [DecidableEq ι] {m : Machine S E A R}

def turns (k : ι) (schedule : List (ι × E)) : Nat := schedule.countP fun l => l.1 = k

theorem Machine.run_halted (c : Config ι S A R α) (schedule : List (ι × E))
    (h : m.halted c.shared = true) : m.run c schedule = c :=
  List.foldl_fixed' (fun l => by rw [Machine.step, if_pos h]) schedule

/-- Whatever the others do, a program gets on by one action in each of its turns. -/
theorem Machine.run_within (k : ι) (schedule : List (ι × E)) (c : Config ι S A R α) {n : Nat}
    (hWithin : (c.rest k).Within n) (hLive : m.halted (m.run c schedule).shared = false) :
    ((m.run c schedule).rest k).Within (n - turns k schedule) := by
  induction schedule generalizing c n with
  | nil => exact hWithin
  | cons l schedule ih =>
    have hNow : m.halted c.shared = false := by
      by_contra hHalted
      rw [m.run_halted c _ (by simpa using hHalted)] at hLive
      exact hHalted hLive
    have hNext : ((m.step c l).rest k).Within (n - if l.1 = k then 1 else 0) := by
      rw [Machine.step, hNow]
      cases hRest : c.rest l.1 with
      | pure value =>
        by_cases hk : l.1 = k
        · subst hk
          simp only [Bool.false_eq_true, ↓reduceIte, hRest]
          cases n - 1 <;> trivial
        · simpa [hk] using hWithin
      | act a next =>
        by_cases hk : l.1 = k
        · subst hk
          rw [hRest] at hWithin
          cases n with
          | zero => cases hWithin
          | succ n => simpa using hWithin _
        · simpa [hk, Function.update_of_ne (Ne.symm hk)] using hWithin
    have hTail := ih (m.step c l) hNext hLive
    have hTurns : n - turns k (l :: schedule) =
        (n - if l.1 = k then 1 else 0) - turns k schedule := by
      rw [turns, turns, List.countP_cons, Nat.sub_sub, Nat.add_comm]
      simp
    rw [hTurns]
    exact hTail

theorem Machine.run_finished (k : ι) (schedule : List (ι × E)) (c : Config ι S A R α) {n : Nat}
    (hWithin : (c.rest k).Within n) (hTurns : n ≤ turns k schedule)
    (hLive : m.halted (m.run c schedule).shared = false) :
    ∃ value, (m.run c schedule).rest k = .pure value := by
  have hDone := m.run_within k schedule c hWithin hLive
  rw [Nat.sub_eq_zero_of_le hTurns] at hDone
  cases hRest : (m.run c schedule).rest k with
  | pure value => exact ⟨value, rfl⟩
  | act a next => rw [hRest] at hDone; cases hDone

end Turns

end Interleaving
