import Mathlib.Data.List.Basic
import Mathlib.Data.List.Induction
import Mathlib.Logic.Function.Basic

/-! # Interleaved sequential programs over one shared state

A program is a tree of atomic actions, each continued by the answer it gets. A machine answers
an action from the shared state and from whatever the environment decides at that step. Any
number of programs run against one machine in any order; the log records who did what and what
came back. Facts about one program are facts about its own path through the tree, facts about
the shared state are inductions over the log, and the two meet in `Reaches`.
-/
namespace Interleaving
set_option autoImplicit false

inductive Prog (A : Type) (R : A → Type) (α : Type) where
  | pure (value : α)
  | act (a : A) (next : R a → Prog A R α)

abbrev Event {A : Type} (R : A → Type) := (a : A) × R a

namespace Prog
variable {A : Type} {R : A → Type} {α β : Type}

def bind (p : Prog A R α) (f : α → Prog A R β) : Prog A R β :=
  match p with
  | .pure value => f value
  | .act a next => .act a fun r => (next r).bind f

instance : Monad (Prog A R) where
  pure := .pure
  bind := .bind

def call (a : A) : Prog A R (R a) := .act a .pure

end Prog

section Paths
variable {A : Type} {R : A → Type} {α : Type}

/-- `Path p t q`: after the events `t`, what remains of `p` is `q`. -/
inductive Path : Prog A R α → List (Event R) → Prog A R α → Prop
  | nil (p : Prog A R α) : Path p [] p
  | cons {a : A} {next : R a → Prog A R α} {r : R a} {t : List (Event R)} {q : Prog A R α} :
      Path (next r) t q → Path (.act a next) (⟨a, r⟩ :: t) q

theorem Path.snoc {p : Prog A R α} {t : List (Event R)} {a : A} {next : R a → Prog A R α}
    (h : Path p t (.act a next)) (r : R a) : Path p (t ++ [⟨a, r⟩]) (next r) := by
  generalize hq : Prog.act a next = q at h
  induction h with
  | nil p =>
    subst hq
    exact .cons (.nil _)
  | cons _ ih => exact .cons (ih hq)

/-- `Q` holds of the events so far and the next action wherever the program can stand. -/
def Along (Q : List (Event R) → A → Prop) : Prog A R α → List (Event R) → Prop
  | .pure _, _ => True
  | .act a next, t => Q t a ∧ ∀ r, Along Q (next r) (t ++ [⟨a, r⟩])

theorem Path.along {Q : List (Event R) → A → Prop} {p : Prog A R α} {t : List (Event R)}
    {a : A} {next : R a → Prog A R α} (h : Path p t (.act a next))
    (pre : List (Event R)) (hQ : Along Q p pre) : Q (pre ++ t) a := by
  generalize hq : Prog.act a next = q at h
  induction h generalizing pre with
  | nil p =>
    subst hq
    rw [List.append_nil]
    exact hQ.1
  | @cons b _ r t q _ ih =>
    have hRest := ih (pre ++ [⟨b, r⟩]) (hQ.2 r) hq
    rwa [List.append_assoc] at hRest

theorem Path.of_act {a : A} {next : R a → Prog A R α} {t : List (Event R)} {value : α}
    (h : Path (.act a next) t (.pure value)) :
    ∃ r rest, t = ⟨a, r⟩ :: rest ∧ Path (next r) rest (.pure value) := by
  cases h with
  | cons hRest => exact ⟨_, _, rfl, hRest⟩

theorem Path.of_pure {value : α} {t : List (Event R)} {q : Prog A R α} (h : Path (.pure value) t q) :
    t = [] := by
  cases h
  rfl

theorem Along.imp {Q Q' : List (Event R) → A → Prop} (hImp : ∀ t a, Q t a → Q' t a)
    {p : Prog A R α} {t : List (Event R)} (h : Along Q p t) : Along Q' p t := by
  induction p generalizing t with
  | pure value => trivial
  | act a next ih => exact ⟨hImp t a h.1, fun r => ih r (h.2 r)⟩

end Paths

/-- How the shared state answers an action. A halted machine performs nothing any more. -/
structure Machine (S E A : Type) (R : A → Type) where
  perform : (a : A) → E → S → R a × S
  halted : S → Bool

structure Config (ι S A : Type) (R : A → Type) (α : Type) where
  shared : S
  rest : ι → Prog A R α
  log : List (ι × Event R)

section Runs
variable {ι S E A : Type} {R : A → Type} {α : Type} [DecidableEq ι]

def project (k : ι) (log : List (ι × Event R)) : List (Event R) :=
  log.filterMap fun e => if e.1 = k then some e.2 else none

theorem project_append (k : ι) (log log' : List (ι × Event R)) :
    project k (log ++ log') = project k log ++ project k log' := List.filterMap_append

@[simp] theorem project_self (k : ι) (e : Event R) : project k [(k, e)] = [e] := by
  simp [project]

@[simp] theorem project_other {k l : ι} (h : l ≠ k) (e : Event R) : project k [(l, e)] = [] := by
  simp [project, h]

@[simp] theorem mem_project (k : ι) (e : Event R) (log : List (ι × Event R)) :
    e ∈ project k log ↔ (k, e) ∈ log := by
  simp only [project, List.mem_filterMap, Option.ite_none_right_eq_some, Option.some.injEq]
  constructor
  · rintro ⟨⟨l, e'⟩, hMem, rfl, rfl⟩
    exact hMem
  · intro hMem
    exact ⟨(k, e), hMem, rfl, rfl⟩

theorem project_filter (keep : ι → Bool) (k : ι) (hKeep : keep k = true)
    (log : List (ι × Event R)) : project k (log.filter fun e => keep e.1) = project k log := by
  rw [project, project, List.filterMap_filter]
  apply List.filterMap_congr
  intro e _
  by_cases hk : e.1 = k
  · simp [hk, hKeep]
  · simp [hk]

variable (m : Machine S E A R)

def Machine.step (c : Config ι S A R α) (l : ι × E) : Config ι S A R α :=
  if m.halted c.shared then c else
    match c.rest l.1 with
    | .pure _ => c
    | .act a next =>
      let answer := m.perform a l.2 c.shared
      { shared := answer.2
        rest := Function.update c.rest l.1 (next answer.1)
        log := c.log ++ [(l.1, ⟨a, answer.1⟩)] }

def Machine.run (c : Config ι S A R α) (schedule : List (ι × E)) : Config ι S A R α :=
  schedule.foldl m.step c

/-- Everything one step can do: nothing, or the next action of the scheduled participant. -/
theorem Machine.step_cases (c : Config ι S A R α) (l : ι × E) :
    m.step c l = c ∨ ∃ a next, m.halted c.shared = false ∧ c.rest l.1 = .act a next ∧
      m.step c l =
        { shared := (m.perform a l.2 c.shared).2
          rest := Function.update c.rest l.1 (next (m.perform a l.2 c.shared).1)
          log := c.log ++ [(l.1, ⟨a, (m.perform a l.2 c.shared).1⟩)] } := by
  unfold Machine.step
  split
  · exact .inl rfl
  · rename_i hHalted
    cases hRest : c.rest l.1 with
    | pure value => exact .inl rfl
    | act a next => exact .inr ⟨a, next, by simpa using hHalted, rfl, rfl⟩

/-- The shared states and logs that interleavings of the programs `prog` can produce. -/
inductive Reaches (prog : ι → Prog A R α) (s₀ : S) : S → List (ι × Event R) → Prop
  | init : Reaches prog s₀ s₀ []
  | step {s : S} {log : List (ι × Event R)} {k : ι} {a : A} {next : R a → Prog A R α} (env : E) :
      Reaches prog s₀ s log → m.halted s = false → Path (prog k) (project k log) (.act a next) →
      Reaches prog s₀ (m.perform a env s).2 (log ++ [(k, ⟨a, (m.perform a env s).1⟩)])

theorem Machine.step_reaches {prog : ι → Prog A R α} {s₀ : S} {c : Config ι S A R α}
    (hReach : Reaches m prog s₀ c.shared c.log)
    (hPath : ∀ k, Path (prog k) (project k c.log) (c.rest k)) (l : ι × E) :
    Reaches m prog s₀ (m.step c l).shared (m.step c l).log ∧
      ∀ k, Path (prog k) (project k (m.step c l).log) ((m.step c l).rest k) := by
  obtain hStay | ⟨a, next, hLive, hRest, hStep⟩ := m.step_cases c l
  · rw [hStay]
    exact ⟨hReach, hPath⟩
  · have hHere : Path (prog l.1) (project l.1 c.log) (.act a next) := hRest ▸ hPath l.1
    rw [hStep]
    refine ⟨.step l.2 hReach hLive hHere, fun k => ?_⟩
    simp only [project_append]
    by_cases hk : l.1 = k
    · subst hk
      simpa using hHere.snoc _
    · simpa [hk, Function.update_of_ne (Ne.symm hk)] using hPath k

/-- Every schedule of the programs from the empty log is such an interleaving, and what each
participant has done is a path through its program. -/
theorem Machine.run_reaches (prog : ι → Prog A R α) (s₀ : S) (schedule : List (ι × E)) :
    Reaches m prog s₀ (m.run ⟨s₀, prog, []⟩ schedule).shared (m.run ⟨s₀, prog, []⟩ schedule).log ∧
      ∀ k, Path (prog k) (project k (m.run ⟨s₀, prog, []⟩ schedule).log)
        ((m.run ⟨s₀, prog, []⟩ schedule).rest k) := by
  induction schedule using List.reverseRecOn with
  | nil => exact ⟨.init, fun k => .nil _⟩
  | append_singleton schedule l ih =>
    rw [Machine.run, List.foldl_append]
    exact m.step_reaches ih.1 ih.2 l

/-- Every event of a run was answered by the environment of some step of the schedule. -/
theorem Machine.run_answered (c : Config ι S A R α) (schedule : List (ι × E)) :
    ∀ e ∈ (m.run c schedule).log,
      e ∈ c.log ∨ ∃ l ∈ schedule, ∃ s, e.2.2 = (m.perform e.2.1 l.2 s).1 := by
  induction schedule using List.reverseRecOn with
  | nil => exact fun e hMem => .inl hMem
  | append_singleton schedule l ih =>
    intro e hMem
    rw [Machine.run, List.foldl_append] at hMem
    have hEarlier : e ∈ (m.run c schedule).log →
        e ∈ c.log ∨ ∃ l' ∈ schedule ++ [l], ∃ s, e.2.2 = (m.perform e.2.1 l'.2 s).1 := by
      intro hOld
      rcases ih e hOld with hInit | ⟨l', hSchedule, hAnswer⟩
      · exact .inl hInit
      · exact .inr ⟨l', List.mem_append_left _ hSchedule, hAnswer⟩
    obtain hStay | ⟨a, next, _, _, hStep⟩ := m.step_cases (m.run c schedule) l
    · exact hEarlier (hStay ▸ hMem)
    · have hNew : e ∈ (m.step (m.run c schedule) l).log := hMem
      rw [hStep] at hNew
      rcases List.mem_append.mp hNew with hOld | hLast
      · exact hEarlier hOld
      · rw [List.mem_singleton.mp hLast]
        exact .inr ⟨l, by simp, _, rfl⟩

theorem Reaches.split {prog : ι → Prog A R α} {s₀ s : S} {log : List (ι × Event R)}
    (h : Reaches m prog s₀ s log) (pre post : List (ι × Event R)) (k : ι) (e : Event R)
    (hLog : log = pre ++ (k, e) :: post) :
    ∃ (t : S) (env : E) (next : R e.1 → Prog A R α), Reaches m prog s₀ t pre ∧
      m.halted t = false ∧ Path (prog k) (project k pre) (.act e.1 next) ∧
      e.2 = (m.perform e.1 env t).1 := by
  induction h generalizing post with
  | init => simp at hLog
  | @step s log l a next env hReach hLive hPath ih =>
    -- the event is the last of the log, or one of the run before that
    rcases List.eq_nil_or_concat post with rfl | ⟨post, e', rfl⟩
    · obtain ⟨rfl, hLast⟩ := List.append_inj' hLog rfl
      obtain ⟨rfl, rfl⟩ := Prod.mk.inj (List.cons.inj hLast).1
      exact ⟨s, env, next, hReach, hLive, hPath, rfl⟩
    · rw [List.concat_eq_append, ← List.cons_append, ← List.append_assoc] at hLog
      exact ih post (List.append_inj' hLog rfl).1

variable {m} in
/-- As long as the machine is not halted, no event has halted it. -/
theorem Reaches.survived {prog : ι → Prog A R α} {s₀ s : S} {log : List (ι × Event R)}
    (h : Reaches m prog s₀ s log) (hLive : m.halted s = false) :
    ∀ e ∈ log, ∃ env t, e.2.2 = (m.perform e.2.1 env t).1 ∧
      m.halted (m.perform e.2.1 env t).2 = false := by
  induction h with
  | init => simp
  | step env _ hBefore _ ih =>
    intro e hMem
    rcases List.mem_append.mp hMem with hOld | hNew
    · exact ih hBefore e hOld
    · rw [List.mem_singleton.mp hNew]
      exact ⟨env, _, rfl, hLive⟩

end Runs

section Erasure
variable {ι S E A : Type} {R : A → Type} {α : Type} [DecidableEq ι] (m : Machine S E A R)

/-- A program none of whose actions touches the shared state, whatever it is answered. -/
def Machine.Silent : Prog A R α → Prop
  | .pure _ => True
  | .act a next => (∀ env s, (m.perform a env s).2 = s) ∧ ∀ r, Silent (next r)

/-- `c'` is `c` without the participants outside `keep`, which are silent. -/
structure Erased (keep : ι → Bool) (c c' : Config ι S A R α) : Prop where
  shared : c'.shared = c.shared
  log : c'.log = c.log.filter fun e => keep e.1
  rest : ∀ k, keep k = true → c'.rest k = c.rest k
  silent : ∀ k, keep k = false → m.Silent (c.rest k)

variable {m} {keep : ι → Bool} {c c' : Config ι S A R α}

theorem Erased.step_dropped (h : Erased m keep c c') (l : ι × E) (hDrop : keep l.1 = false) :
    Erased m keep (m.step c l) c' := by
  obtain hStay | ⟨a, next, _, hRest, hStep⟩ := m.step_cases c l
  · rwa [hStay]
  · have hSilent := h.silent l.1 hDrop
    rw [hRest] at hSilent
    rw [hStep]
    constructor
    · exact h.shared.trans (hSilent.1 _ _).symm
    · simpa [hDrop] using h.log
    · intro k hk
      have hNe : k ≠ l.1 := by rintro rfl; simp [hDrop] at hk
      simpa [Function.update_of_ne hNe] using h.rest k hk
    · intro k hk
      by_cases hEq : k = l.1
      · subst hEq
        simpa using hSilent.2 _
      · simpa [Function.update_of_ne hEq] using h.silent k hk

theorem Erased.step_kept (h : Erased m keep c c') (l : ι × E) (hKeep : keep l.1 = true) :
    Erased m keep (m.step c l) (m.step c' l) := by
  unfold Machine.step
  rw [h.shared, h.rest l.1 hKeep]
  split
  · exact h
  · cases hRest : c.rest l.1 with
    | pure value => exact h
    | act a next =>
      constructor
      · rfl
      · simp [hKeep, h.log]
      · intro k hk
        by_cases hEq : k = l.1
        · subst hEq
          simp
        · simpa [Function.update_of_ne hEq] using h.rest k hk
      · intro k hk
        have hNe : k ≠ l.1 := by rintro rfl; simp [hKeep] at hk
        simpa [Function.update_of_ne hNe] using h.silent k hk

/-- Deleting every step of the silent participants from a schedule deletes exactly their events
from the log and leaves the shared state and everyone else as they were. -/
theorem Erased.run (h : Erased m keep c c') (schedule : List (ι × E)) :
    Erased m keep (m.run c schedule) (m.run c' (schedule.filter fun l => keep l.1)) := by
  induction schedule generalizing c c' with
  | nil => exact h
  | cons l schedule ih =>
    cases hKeep : keep l.1 with
    | true =>
      rw [List.filter_cons_of_pos (by simpa using hKeep)]
      exact ih (h.step_kept l hKeep)
    | false =>
      rw [List.filter_cons_of_neg (by simp [hKeep])]
      exact ih (h.step_dropped l hKeep)

end Erasure

section Solo
variable {ι S E A : Type} {R : A → Type} {α : Type} [DecidableEq ι] (m : Machine S E A R)

def Machine.exec (env : E) : Prog A R α → S → List (Event R) × S
  | .pure _, s => ([], s)
  | .act a next, s =>
    if m.halted s then ([], s) else
      let answer := m.perform a env s
      let tail := exec env (next answer.1) answer.2
      (⟨a, answer.1⟩ :: tail.1, tail.2)

/-- Scheduling one participant often enough is running its program alone. -/
theorem Machine.run_alone (env : E) (k : ι) (p : Prog A R α) (c : Config ι S A R α)
    (hRest : c.rest k = p) : ∃ n,
      (m.run c (List.replicate n (k, env))).shared = (m.exec env p c.shared).2 ∧
      (m.run c (List.replicate n (k, env))).log =
        c.log ++ (m.exec env p c.shared).1.map fun e => (k, e) := by
  induction p generalizing c with
  | pure value => exact ⟨0, rfl, by simp [Machine.run, Machine.exec]⟩
  | act a next ih =>
    cases hHalted : m.halted c.shared with
    | true => exact ⟨0, by simp [Machine.run, Machine.exec, hHalted]⟩
    | false =>
      obtain ⟨n, hShared, hLog⟩ := ih (m.perform a env c.shared).1 (m.step c (k, env))
        (by simp [Machine.step, hHalted, hRest])
      have hStep : (m.step c (k, env)).shared = (m.perform a env c.shared).2 ∧
          (m.step c (k, env)).log = c.log ++ [(k, ⟨a, (m.perform a env c.shared).1⟩)] := by
        simp [Machine.step, hHalted, hRest]
      refine ⟨n + 1, ?_, ?_⟩
      · simpa [Machine.run, List.replicate_succ, Machine.exec, hHalted, hStep.1] using hShared
      · simpa [Machine.run, List.replicate_succ, Machine.exec, hHalted, hStep.1, hStep.2] using hLog

/-- A program none of whose actions halts the machine in this environment. -/
def Machine.Safe (env : E) : Prog A R α → Prop
  | .pure _ => True
  | .act a next => (∀ s, m.halted s = false → m.halted (m.perform a env s).2 = false) ∧
      ∀ r, Machine.Safe env (next r)

variable {m} in
theorem Machine.Safe.of_path {env : E} {p q : Prog A R α} {t : List (Event R)} (h : Path p t q)
    (hSafe : m.Safe env p) : m.Safe env q := by
  induction h with
  | nil p => exact hSafe
  | cons _ ih => exact ih (hSafe.2 _)

/-- A safe program finishes when it is scheduled often enough. -/
theorem Machine.run_finishes (env : E) (k : ι) (p : Prog A R α) (c : Config ι S A R α)
    (hRest : c.rest k = p) (hSafe : m.Safe env p) (hLive : m.halted c.shared = false) :
    ∃ n value, (m.run c (List.replicate n (k, env))).rest k = .pure value := by
  induction p generalizing c with
  | pure value => exact ⟨0, value, hRest⟩
  | act a next ih =>
    have hStep : m.step c (k, env) =
        { shared := (m.perform a env c.shared).2
          rest := Function.update c.rest k (next (m.perform a env c.shared).1)
          log := c.log ++ [(k, ⟨a, (m.perform a env c.shared).1⟩)] } := by
      simp [Machine.step, hLive, hRest]
    obtain ⟨n, value, hDone⟩ := ih (m.perform a env c.shared).1 (m.step c (k, env))
      (by simp [hStep]) (hSafe.2 _) (by rw [hStep]; exact hSafe.1 _ hLive)
    exact ⟨n + 1, value, by simpa [Machine.run, List.replicate_succ] using hDone⟩

end Solo

end Interleaving
