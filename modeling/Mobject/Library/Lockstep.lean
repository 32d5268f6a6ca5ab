import Mathlib.Data.List.Forall2
import Mobject.Library.Interleaving

/-! # Runs in lockstep

Two runs of the same participants in the same order, whose environments differ in something that
reaches answers but never the shared state. As long as the programs stay in step, so do the runs,
event by event.
-/
namespace Interleaving
set_option autoImplicit false

section Programs
variable {A : Type} {R : A → Type} {α : Type}

/-- The programs perform corresponding actions as long as their answers correspond. -/
inductive InStep (Pair : A → A → Prop) (Sim : Event R → Event R → Prop) :
    Prog A R α → Prog A R α → Prop
  | pure (value : α) : InStep Pair Sim (.pure value) (.pure value)
  | act {a a' : A} {next : R a → Prog A R α} {next' : R a' → Prog A R α} : Pair a a' →
      (∀ r r', Sim ⟨a, r⟩ ⟨a', r'⟩ → InStep Pair Sim (next r) (next' r')) →
      InStep Pair Sim (.act a next) (.act a' next')

/-- A program is in step with itself where its actions and their answers correspond to themselves
only. -/
theorem InStep.refl_of_along {Pair : A → A → Prop} {Sim : Event R → Event R → Prop} {Q : A → Prop}
    (hPair : ∀ a, Q a → Pair a a) (hSim : ∀ a r r', Q a → Sim ⟨a, r⟩ ⟨a, r'⟩ → r = r')
    (p : Prog A R α) (t : List (Event R)) (h : Along (fun _ a => Q a) p t) : InStep Pair Sim p p := by
  induction p generalizing t with
  | pure value => exact .pure value
  | act a next ih =>
    refine .act (hPair a h.1) fun r r' hAnswers => ?_
    obtain rfl := hSim a r r' h.1 hAnswers
    exact ih r _ (h.2 r)

end Programs

section Runs
variable {ι S E A : Type} {R : A → Type} {α : Type} [DecidableEq ι] {m : Machine S E A R}
  {Env : E → E → Prop} {Pair : A → A → Prop} {Sim : Event R → Event R → Prop}

/-- The machine takes corresponding actions to corresponding answers and to one state. -/
structure Machine.Keeps (m : Machine S E A R) (Env : E → E → Prop) (Pair : A → A → Prop)
    (Sim : Event R → Event R → Prop) : Prop where
  answer : ∀ a a' env env' s, Pair a a' → Env env env' →
    Sim ⟨a, (m.perform a env s).1⟩ ⟨a', (m.perform a' env' s).1⟩
  shared : ∀ a a' env env' s, Pair a a' → Env env env' →
    (m.perform a' env' s).2 = (m.perform a env s).2

structure Lockstep (Pair : A → A → Prop) (Sim : Event R → Event R → Prop)
    (c c' : Config ι S A R α) : Prop where
  shared : c'.shared = c.shared
  rest : ∀ k, InStep Pair Sim (c.rest k) (c'.rest k)
  log : List.Forall₂ (fun e e' => e.1 = e'.1 ∧ Sim e.2 e'.2) c.log c'.log

variable {c c' : Config ι S A R α}

theorem Lockstep.step (hKeeps : m.Keeps Env Pair Sim) (h : Lockstep Pair Sim c c') {l l' : ι × E}
    (hTurn : l.1 = l'.1) (hEnv : Env l.2 l'.2) : Lockstep Pair Sim (m.step c l) (m.step c' l') := by
  obtain ⟨k, env⟩ := l
  obtain ⟨k', env'⟩ := l'
  obtain rfl : k = k' := hTurn
  have hRest := h.rest k
  unfold Machine.step
  rw [h.shared]
  split
  · exact h
  · simp only
    cases hHere : c.rest k with
    | pure value =>
      rw [hHere] at hRest
      cases hThere : c'.rest k with
      | pure value' => exact h
      | act a' next' => rw [hThere] at hRest; cases hRest
    | act a next =>
      rw [hHere] at hRest
      cases hThere : c'.rest k with
      | pure value' => rw [hThere] at hRest; cases hRest
      | act a' next' =>
        rw [hThere] at hRest
        cases hRest with
        | act hPair hNext =>
          -- the answers correspond, so the two rests of the program do
          have hAnswer := hKeeps.answer a a' env env' c.shared hPair hEnv
          refine ⟨hKeeps.shared a a' env env' c.shared hPair hEnv, fun j => ?_, ?_⟩
          · by_cases hj : j = k
            · subst hj
              simpa using hNext _ _ hAnswer
            · simpa [Function.update_of_ne hj] using h.rest j
          · exact List.rel_append h.log (.cons ⟨rfl, hAnswer⟩ .nil)

theorem Lockstep.run (hKeeps : m.Keeps Env Pair Sim) {schedule schedule' : List (ι × E)}
    (hSchedule : List.Forall₂ (fun l l' => l.1 = l'.1 ∧ Env l.2 l'.2) schedule schedule')
    (h : Lockstep Pair Sim c c') : Lockstep Pair Sim (m.run c schedule) (m.run c' schedule') := by
  induction hSchedule generalizing c c' with
  | nil => exact h
  | cons hHead _ ih => exact ih (h.step hKeeps hHead.1 hHead.2)

theorem Lockstep.project (h : Lockstep Pair Sim c c') (k : ι) :
    List.Forall₂ Sim (project k c.log) (project k c'.log) := by
  refine List.rel_filterMap ?_ h.log
  rintro ⟨j, e⟩ ⟨_, e'⟩ ⟨rfl, hSim⟩
  by_cases hj : j = k
  · simpa [hj] using hSim
  · simp [hj]

end Runs

section Observation
variable {X Y : Type} {r : X → X → Prop} {f : X → Option Y} {l l' : List X}

theorem filterMap_eq_of_forall₂ (h : List.Forall₂ r l l') (hEq : ∀ x ∈ l, ∀ x', r x x' → f x = f x') :
    l.filterMap f = l'.filterMap f := by
  induction h with
  | nil => rfl
  | @cons x x' l l' hHead _ ih =>
    rw [List.filterMap_cons, List.filterMap_cons, hEq x List.mem_cons_self x' hHead,
      ih fun y hMem => hEq y (List.mem_cons_of_mem _ hMem)]

theorem filterMap_cons_eq {x x' : X} (hPlace : (f x).isSome = (f x').isSome)
    (h : (x :: l).filterMap f = (x' :: l').filterMap f) :
    f x = f x' ∧ l.filterMap f = l'.filterMap f := by
  cases hHere : f x with
  | none =>
    have hThere : f x' = none := by simpa [hHere] using hPlace
    rw [List.filterMap_cons_none hHere, List.filterMap_cons_none hThere] at h
    exact ⟨hThere.symm, h⟩
  | some y =>
    obtain ⟨y', hThere⟩ : ∃ y', f x' = some y' :=
      Option.isSome_iff_exists.mp (by rw [← hPlace, hHere]; rfl)
    rw [List.filterMap_cons_some hHere, List.filterMap_cons_some hThere] at h
    obtain ⟨rfl, hTail⟩ := List.cons.inj h
    exact ⟨hThere.symm, hTail⟩

/-- Lists observed at the same places differ where one observation differs. -/
theorem filterMap_ne_of_forall₂ (h : List.Forall₂ r l l')
    (hPlace : ∀ x x', r x x' → (f x).isSome = (f x').isSome) {x : X} (hMem : x ∈ l)
    (hNe : ∀ x', r x x' → f x ≠ f x') : l.filterMap f ≠ l'.filterMap f := by
  induction h with
  | nil => cases hMem
  | @cons y y' l l' hHead _ ih =>
    intro hEq
    obtain ⟨hFirst, hRest⟩ := filterMap_cons_eq (hPlace y y' hHead) hEq
    rcases List.mem_cons.mp hMem with rfl | hTail
    · exact hNe y' hHead hFirst
    · exact ih hTail hRest

end Observation

end Interleaving
