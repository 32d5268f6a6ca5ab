import Mathlib.Algebra.Order.BigOperators.Group.Finset
import Mobject.Library.Critical

/-! # Fair rounds

A schedule in rounds, each of which names every participant, gets all of them to the end: the mutex
is never held by somebody who waits, so a round in which nobody gets on finds everybody finished.
-/
namespace Interleaving
set_option autoImplicit false

variable {ι F E A B : Type} {R : A → Type} {Q : B → Type} {α : Type}

/-- At most `n` turns are left, where a section has `b` accesses at most. -/
def Stage.Within (b n : Nat) : Stage A B R Q α → Prop
  | .outside rest => ∃ m, rest.Within m ∧ m * (b + 2) ≤ n
  | .inside _ next left => ∃ m l, (∀ r, (next r).Within m) ∧ left.Within l ∧ l + 1 + m * (b + 2) ≤ n

def Stage.Finished (stage : Stage A B R Q α) : Prop := ∃ value, stage = .outside (.pure value)

/-- `k` is finished, or waits for the mutex. -/
def LockConfig.Waits (c : LockConfig ι F A B R Q α) (k : ι) : Prop :=
  (c.stage k).Finished ∨ c.holder ≠ none ∧ ∃ p, c.stage k = .outside p

/-- Whoever has the mutex is in a section. -/
def LockConfig.Held (c : LockConfig ι F A B R Q α) : Prop :=
  ∀ k, c.holder = some k → ∃ a next left, c.stage k = .inside a next left

/-- All participants together have at most `N` turns left. -/
def LockConfig.Left [Fintype ι] (b N : Nat) (c : LockConfig ι F A B R Q α) : Prop :=
  ∃ n : ι → Nat, (∀ k, (c.stage k).Within b (n k)) ∧ ∑ k, n k ≤ N

theorem Stage.Within.finished {b : Nat} {stage : Stage A B R Q α} (h : stage.Within b 0) :
    stage.Finished := by
  cases stage with
  | outside rest =>
    obtain ⟨m, hRest, hLe⟩ := h
    obtain rfl : m = 0 := (Nat.mul_eq_zero.mp (Nat.le_zero.mp hLe)).resolve_right (Nat.succ_ne_zero _)
    cases rest with
    | pure value => exact ⟨value, rfl⟩
    | act a next => cases hRest
  | inside a next left =>
    obtain ⟨m, l, _, _, hLe⟩ := h
    omega

theorem LockConfig.Left.mono [Fintype ι] {b N N' : Nat} {c : LockConfig ι F A B R Q α} (h : c.Left b N)
    (hLe : N ≤ N') : c.Left b N' := by
  obtain ⟨n, hWithin, hSum⟩ := h
  exact ⟨n, hWithin, hSum.trans hLe⟩

theorem LockConfig.Held.finished {c : LockConfig ι F A B R Q α} (hHeld : c.Held)
    (hWaits : ∀ k, c.Waits k) (k : ι) : (c.stage k).Finished := by
  rcases hWaits k with hDone | ⟨hHolder, _⟩
  · exact hDone
  · obtain ⟨j, hj⟩ := Option.ne_none_iff_exists'.mp hHolder
    obtain ⟨a, next, left, hInside⟩ := hHeld j hj
    -- the holder itself does not wait
    rcases hWaits j with ⟨value, hOutside⟩ | ⟨_, p, hOutside⟩
    · cases hInside.symm.trans hOutside
    · cases hInside.symm.trans hOutside

section Rounds
variable [DecidableEq ι] {sec : Sections F E A B R Q} {c : LockConfig ι F A B R Q α} {b : Nat}

theorem LockConfig.Held.step (h : c.Held) (l : ι × E) : (sec.step c l).Held := by
  obtain ⟨k, env⟩ := l
  have hMoves := sec.step_moves c k env
  generalize sec.step c (k, env) = c' at hMoves ⊢
  intro j hHolder
  cases hMoves with
  | stays => exact h j hHolder
  | acts a next _ hStage =>
    obtain ⟨_, _, _, hInside⟩ := h j hHolder
    have hNe : j ≠ k := by
      rintro rfl
      cases hInside.symm.trans hStage
    exact ⟨_, _, _, update_other hNe hInside⟩
  | enters a next body =>
    obtain rfl : k = j := Option.some.inj hHolder
    exact ⟨_, _, _, Function.update_self ..⟩
  | accesses a next b left =>
    by_cases hj : j = k
    · subst hj
      exact ⟨_, _, _, Function.update_self ..⟩
    · obtain ⟨_, _, _, hInside⟩ := h j hHolder
      exact ⟨_, _, _, update_other hj hInside⟩
  | leaves => cases hHolder

theorem Sections.run_halted (schedule : List (ι × E)) (h : sec.halted c.shared = true) :
    sec.run c schedule = c :=
  List.foldl_fixed' (fun l => by rw [Sections.step, if_pos h]) schedule

theorem Sections.run_finished (schedule : List (ι × E)) (h : ∀ k, (c.stage k).Finished) :
    sec.run c schedule = c := by
  refine List.foldl_fixed' (fun l => ?_) schedule
  obtain ⟨value, hDone⟩ := h l.1
  simp [Sections.step, hDone]

theorem LockConfig.Held.run (h : c.Held) (schedule : List (ι × E)) : (sec.run c schedule).Held := by
  induction schedule generalizing c with
  | nil => exact h
  | cons l schedule ih => exact ih (h.step l)

variable (hBody : ∀ a body, sec.body a = some body → body.Within b)
include hBody

theorem Sections.step_within {k : ι} {env : E} {n : Nat} (hLive : sec.halted c.shared = false)
    (hWithin : (c.stage k).Within b n) :
    0 < n ∧ ((sec.step c (k, env)).stage k).Within b (n - 1) ∨
      sec.step c (k, env) = c ∧ c.Waits k := by
  cases hStage : c.stage k with
  | outside rest =>
    rw [hStage] at hWithin
    obtain ⟨m, hRest, hLe⟩ := hWithin
    cases rest with
    | pure value => exact .inr ⟨by simp [Sections.step, hLive, hStage], .inl ⟨value, hStage⟩⟩
    | act a next =>
      cases m with
      | zero => cases hRest
      | succ m =>
        rw [Nat.succ_mul] at hLe
        cases hGuarded : sec.body a with
        | none =>
          refine .inl ⟨by omega, ?_⟩
          simp only [Sections.step, hLive, hStage, hGuarded, Bool.false_eq_true, ↓reduceIte,
            Function.update_self]
          exact ⟨m, hRest _, by omega⟩
        | some body =>
          cases hHolder : c.holder with
          | some j =>
            refine .inr ⟨by simp [Sections.step, hLive, hStage, hGuarded, hHolder], .inr ⟨?_, _, hStage⟩⟩
            simp [hHolder]
          | none =>
            refine .inl ⟨by omega, ?_⟩
            simp only [Sections.step, hLive, hStage, hGuarded, hHolder, Bool.false_eq_true, ↓reduceIte,
              Function.update_self]
            exact ⟨m, b, hRest, hBody a body hGuarded, by omega⟩
  | inside a next left =>
    rw [hStage] at hWithin
    obtain ⟨m, l, hNext, hLeft, hLe⟩ := hWithin
    refine .inl ⟨by omega, ?_⟩
    cases left with
    | pure r =>
      simp only [Sections.step, hLive, hStage, Bool.false_eq_true, ↓reduceIte, Function.update_self]
      exact ⟨m, hNext r, by omega⟩
    | act access left =>
      cases l with
      | zero => cases hLeft
      | succ l =>
        simp only [Sections.step, hLive, hStage, Bool.false_eq_true, ↓reduceIte, Function.update_self]
        exact ⟨m, l, hNext, hLeft _, by omega⟩

variable [Fintype ι]

theorem LockConfig.Left.step {N : Nat} (h : c.Left b N) (hLive : sec.halted c.shared = false)
    (l : ι × E) :
    0 < N ∧ (sec.step c l).Left b (N - 1) ∨ sec.step c l = c ∧ c.Waits l.1 := by
  obtain ⟨k, env⟩ := l
  obtain ⟨n, hWithin, hSum⟩ := h
  refine (sec.step_within hBody hLive (hWithin k)).imp (fun ⟨hPos, hOn⟩ => ?_) id
  have hLess : ∑ j, Function.update n k (n k - 1) j < ∑ j, n j := by
    refine Finset.sum_lt_sum (fun j _ => ?_) ⟨k, Finset.mem_univ k, ?_⟩
    · by_cases hj : j = k
      · subst hj
        simp
      · simp [hj]
    · rw [Function.update_self]
      exact Nat.sub_lt hPos Nat.one_pos
  refine ⟨by omega, Function.update n k (n k - 1), fun j => ?_, by omega⟩
  by_cases hj : j = k
  · subst hj
    simpa using hOn
  · rw [sec.stage_other c (k, env) (Ne.symm hj), Function.update_of_ne hj]
    exact hWithin j

/-- A round either halts the system, or brings somebody on, or finds all it names waiting. -/
theorem LockConfig.Left.round {N : Nat} (h : c.Left b N) (schedule : List (ι × E)) :
    sec.halted (sec.run c schedule).shared = true ∨
      0 < N ∧ (sec.run c schedule).Left b (N - 1) ∨
      sec.run c schedule = c ∧ ∀ l ∈ schedule, c.Waits l.1 := by
  induction schedule generalizing c N with
  | nil => exact .inr (.inr ⟨rfl, by simp⟩)
  | cons l schedule ih =>
    cases hHalted : sec.halted c.shared with
    | true =>
      left
      rwa [sec.run_halted _ hHalted]
    | false =>
      rw [Sections.run, List.foldl_cons]
      rcases h.step hBody hHalted l with ⟨hPos, hOn⟩ | ⟨hStay, hWaits⟩
      · rcases ih hOn with hHalts | ⟨_, hMore⟩ | ⟨hStays, _⟩
        · exact .inl hHalts
        · exact .inr (.inl ⟨hPos, hMore.mono (Nat.sub_le _ _)⟩)
        · have hSame : schedule.foldl sec.step (sec.step c l) = sec.step c l := hStays
          rw [hSame]
          exact .inr (.inl ⟨hPos, hOn⟩)
      · rw [hStay]
        rcases ih h with hHalts | hMore | ⟨hStays, hRest⟩
        · exact .inl hHalts
        · exact .inr (.inl hMore)
        · exact .inr (.inr ⟨hStays, List.forall_mem_cons.mpr ⟨hWaits, hRest⟩⟩)

/-- As many rounds as there are turns left finish everybody, unless the system is halted. -/
theorem Sections.rounds_finish {N : Nat} (hLeft : c.Left b N) (hHeld : c.Held)
    (rounds : List (List (ι × E))) (hFair : ∀ round ∈ rounds, ∀ k, ∃ env, (k, env) ∈ round)
    (hEnough : N ≤ rounds.length) :
    sec.halted (sec.run c rounds.flatten).shared = true ∨
      ∀ k, ((sec.run c rounds.flatten).stage k).Finished := by
  induction rounds generalizing c N with
  | nil =>
    obtain ⟨n, hWithin, hSum⟩ := hLeft
    refine .inr fun k => Stage.Within.finished (b := b) ?_
    have hNone : n k = 0 := Nat.le_zero.mp
      ((Finset.single_le_sum (fun _ _ => Nat.zero_le _) (Finset.mem_univ k)).trans (hSum.trans hEnough))
    exact hNone ▸ hWithin k
  | cons round rounds ih =>
    obtain ⟨hHere, hLater⟩ := List.forall_mem_cons.mp hFair
    rw [List.flatten_cons, Sections.run, List.foldl_append]
    rcases hLeft.round hBody round with hHalts | ⟨hPos, hOn⟩ | ⟨hStays, hWaits⟩
    · have hSame : rounds.flatten.foldl sec.step (round.foldl sec.step c) = round.foldl sec.step c :=
        sec.run_halted rounds.flatten hHalts
      left
      rw [hSame]
      exact hHalts
    · refine ih hOn (hHeld.run round) hLater ?_
      rw [List.length_cons] at hEnough
      omega
    · -- a round that changes nothing finds everybody finished
      have hDone : ∀ k, (c.stage k).Finished := hHeld.finished fun k => by
        obtain ⟨env, hMem⟩ := hHere k
        exact hWaits (k, env) hMem
      right
      have hRound : round.foldl sec.step c = c := hStays
      have hRest : rounds.flatten.foldl sec.step c = c := sec.run_finished _ hDone
      rw [hRound, hRest]
      exact hDone

end Rounds

end Interleaving
