import Mathlib.Data.List.Dedup
import Mathlib.Data.List.Flatten
import Mobject.Library.Lifetimes
import Mobject.Library.Shape

/-! # Serial equivalents of interleaved runs

Where each participant has at most one event that depends on the shared state or changes it, the
participants could as well have run one after the other, in the order of these events. Whoever had
finished before another began also comes before it in that order.
-/
namespace Interleaving
set_option autoImplicit false

section Abstraction
variable {ι S S' E E' A : Type} {R : A → Type} {α : Type} [DecidableEq ι]

/-- Every step of `m` is one of `m'` on the abstract states, with the same answer. -/
structure Machine.Abstracts (m : Machine S E A R) (m' : Machine S' E' A R) (abs : S → S') : Prop where
  perform : ∀ a env s, m.halted s = false →
    ∃ env', m'.perform a env' (abs s) = ((m.perform a env s).1, abs (m.perform a env s).2)
  live : ∀ s, m.halted s = false → m'.halted (abs s) = false

theorem Reaches.abstract {m : Machine S E A R} {m' : Machine S' E' A R} {abs : S → S'}
    (hAbs : m.Abstracts m' abs) {prog : ι → Prog A R α} {s₀ s : S} {log : List (ι × Event R)}
    (h : Reaches m prog s₀ s log) : Reaches m' prog (abs s₀) (abs s) log := by
  induction h with
  | init => exact .init
  | @step s log k a next env _ hLive hPath ih =>
    obtain ⟨env', hStep⟩ := hAbs.perform a env s hLive
    have hNext := Reaches.step env' ih (hAbs.live s hLive) hPath
    rwa [hStep] at hNext

end Abstraction

section Answers
variable {ι S E A : Type} {R : A → Type} {α : Type} [DecidableEq ι] {m : Machine S E A R}

theorem Reaches.answered {prog : ι → Prog A R α} {s₀ s : S} {log : List (ι × Event R)}
    (h : Reaches m prog s₀ s log) :
    ∀ e ∈ log, ∃ env s, e.2.2 = (m.perform e.2.1 env s).1 := by
  rintro ⟨k, e⟩ hMem
  obtain ⟨pre, post, hLog⟩ := List.append_of_mem hMem
  obtain ⟨s, env, _, _, _, _, hAnswer⟩ := Reaches.split m h pre post k e hLog
  exact ⟨env, s, hAnswer⟩

end Answers

section Serial
variable {ι S E A : Type} {R : A → Type} {α : Type} (m : Machine S E A R)

/-- The machine can do these events in a row, each answered in some environment. -/
inductive Machine.Performs : S → List (Event R) → S → Prop
  | nil (s : S) : Performs s [] s
  | cons {s s' : S} {a : A} {t : List (Event R)} (env : E) : m.halted s = false →
      Performs (m.perform a env s).2 t s' → Performs s (⟨a, (m.perform a env s).1⟩ :: t) s'

/-- The event can happen in any state, and it leaves the state alone. -/
structure Machine.Free (e : Event R) : Prop where
  possible : ∀ s, ∃ env, m.perform e.1 env s = (e.2, s)
  silent : ∀ s env, (m.perform e.1 env s).1 = e.2 → (m.perform e.1 env s).2 = s

variable {m}

theorem Machine.Performs.append {s s' s'' : S} {t t' : List (Event R)} (h : m.Performs s t s')
    (h' : m.Performs s' t' s'') : m.Performs s (t ++ t') s'' := by
  induction h with
  | nil => exact h'
  | cons env hLive _ ih => exact .cons env hLive (ih h')

theorem Machine.Performs.split {s s'' : S} {t t' : List (Event R)} (h : m.Performs s (t ++ t') s'') :
    ∃ s', m.Performs s t s' ∧ m.Performs s' t' s'' := by
  induction t generalizing s with
  | nil => exact ⟨s, .nil s, h⟩
  | cons e t ih =>
    cases h with
    | cons env hLive hTail =>
      obtain ⟨s', hFirst, hSecond⟩ := ih hTail
      exact ⟨s', .cons env hLive hFirst, hSecond⟩

theorem Machine.Performs.one {s : S} {a : A} (env : E) (hLive : m.halted s = false) :
    m.Performs s [⟨a, (m.perform a env s).1⟩] (m.perform a env s).2 :=
  .cons env hLive (.nil _)

theorem Machine.Free.performs {e : Event R} (h : m.Free e) {s : S} (hLive : m.halted s = false) :
    m.Performs s [e] s := by
  obtain ⟨env, hStep⟩ := h.possible s
  have hOne := Machine.Performs.one (m := m) (a := e.1) env hLive
  rwa [hStep] at hOne

theorem Machine.Performs.of_free {t : List (Event R)} (hFree : ∀ e ∈ t, m.Free e) {s : S}
    (hLive : m.halted s = false) : m.Performs s t s := by
  induction t with
  | nil => exact .nil s
  | cons e t ih =>
    obtain ⟨hHead, hTail⟩ := List.forall_mem_cons.mp hFree
    exact (hHead.performs hLive).append (ih hTail)

inductive Chain (step : ι → S → S → Prop) : S → List ι → S → Prop
  | nil (s : S) : Chain step s [] s
  | cons {s s' s'' : S} {k : ι} {l : List ι} : step k s s' → Chain step s' l s'' →
      Chain step s (k :: l) s''

theorem Chain.imp {step step' : ι → S → S → Prop} {s s' : S} {l : List ι} (h : Chain step s l s')
    (hImp : ∀ k ∈ l, ∀ s s', step k s s' → step' k s s') : Chain step' s l s' := by
  induction h with
  | nil s => exact .nil s
  | cons hStep _ ih =>
    obtain ⟨hHead, hTail⟩ := List.forall_mem_cons.mp hImp
    exact .cons (hHead _ _ hStep) (ih hTail)

theorem Chain.of_mem {step : ι → S → S → Prop} {s s' : S} {l : List ι} (h : Chain step s l s') {k : ι}
    (hMem : k ∈ l) : ∃ t t', step k t t' := by
  induction h with
  | nil s => cases hMem
  | cons hStep _ ih =>
    rcases List.mem_cons.mp hMem with rfl | hTail
    · exact ⟨_, _, hStep⟩
    · exact ih hTail

theorem Machine.Performs.chain {f : ι → List (Event R)} {s s' : S} {l : List ι}
    (h : m.Performs s (l.flatMap f) s') : Chain (fun k s s' => m.Performs s (f k) s') s l s' := by
  induction l generalizing s with
  | nil =>
    cases h
    exact .nil _
  | cons k l ih =>
    rw [List.flatMap_cons] at h
    obtain ⟨t, hHead, hTail⟩ := h.split
    exact .cons hHead (ih hTail)

/-- The program `p`, run by itself from `s`, can do `t`, with `q` and `s'` left. -/
structure Machine.Does (m : Machine S E A R) (p : Prog A R α) (s : S) (t : List (Event R))
    (q : Prog A R α) (s' : S) : Prop where
  path : Path p t q
  performs : m.Performs s t s'

theorem Machine.Does.of_pure {value : α} {s s' : S} {t : List (Event R)} {q : Prog A R α}
    (h : m.Does (.pure value) s t q s') : t = [] ∧ q = .pure value ∧ s' = s := by
  obtain ⟨hPath, hPerforms⟩ := h
  cases hPath
  cases hPerforms
  exact ⟨rfl, rfl, rfl⟩

theorem Machine.Does.of_act {a : A} {next : R a → Prog A R α} {s s' : S} {t : List (Event R)}
    {q : Prog A R α} (h : m.Does (.act a next) s t q s') :
    t = [] ∧ q = .act a next ∧ s' = s ∨ ∃ env t', t = ⟨a, (m.perform a env s).1⟩ :: t' ∧
      m.Does (next (m.perform a env s).1) (m.perform a env s).2 t' q s' := by
  obtain ⟨hPath, hPerforms⟩ := h
  cases hPath with
  | nil =>
    cases hPerforms
    exact .inl ⟨rfl, rfl, rfl⟩
  | cons hRest =>
    cases hPerforms with
    | cons env _ hTail => exact .inr ⟨env, _, rfl, hRest, hTail⟩

variable [DecidableEq ι]

/-- `k` had finished before `k'` did anything. -/
def Precedes (rest : ι → Prog A R α) (log : List (ι × Event R)) (k k' : ι) : Prop :=
  (∃ value, rest k = .pure value) ∧
    ∃ pre post, log = pre ++ post ∧ project k post = [] ∧ project k' pre = []

/-- The participants of a run, in an order in which each could have done what it did with nobody
in between: from the state the run began in to the one it ended in, and nobody comes before
another who had already finished when he began. -/
structure SerialOrder (m : Machine S E A R) (prog rest : ι → Prog A R α) (s₀ s : S)
    (log : List (ι × Event R)) (order : List ι) : Prop where
  once : order.Nodup
  everyone : ∀ k, k ∈ order ↔ project k log ≠ []
  own : ∀ k, Path (prog k) (project k log) (rest k)
  performs : m.Performs s₀ (order.flatMap fun k => project k log) s
  realTime : order.Pairwise fun k k' => ¬ Precedes rest log k' k

def Machine.Serializable (m : Machine S E A R) (prog rest : ι → Prog A R α) (s₀ s : S)
    (log : List (ι × Event R)) : Prop :=
  ∃ order, SerialOrder m prog rest s₀ s log order

theorem project_ne_nil {log : List (ι × Event R)} {k : ι} :
    project k log ≠ [] ↔ k ∈ log.map Prod.fst := by
  rw [List.mem_map]
  constructor
  · intro hSome
    obtain ⟨e, hMem⟩ := List.exists_mem_of_ne_nil _ hSome
    exact ⟨(k, e), (mem_project k e log).mp hMem, rfl⟩
  · rintro ⟨⟨_, e⟩, hMem, rfl⟩
    exact List.ne_nil_of_mem ((mem_project _ e log).mpr hMem)

theorem flatMap_concat_other {log : List (ι × Event R)} {k : ι} (e : Event R) {l : List ι}
    (h : k ∉ l) : (l.flatMap fun j => project j (log ++ [(k, e)])) = l.flatMap fun j => project j log := by
  refine List.flatMap_congr fun j hMem => ?_
  have hNe : k ≠ j := fun hEq => h (hEq ▸ hMem)
  rw [project_append, project_other hNe, List.append_nil]

/-- A free event may as well come at the end of what its participant has done in the row. -/
theorem Machine.Performs.insert {log : List (ι × Event R)} {k : ι} {e : Event R} {l : List ι} {s s' : S}
    (h : m.Performs s (l.flatMap fun j => project j log) s') (hLive : ∀ s, m.halted s = false)
    (hFree : m.Free e) (hOnce : l.Nodup) (hMem : k ∈ l) :
    m.Performs s (l.flatMap fun j => project j (log ++ [(k, e)])) s' := by
  obtain ⟨l₁, l₂, rfl⟩ := List.append_of_mem hMem
  obtain ⟨_, hSecond, hApart⟩ := List.nodup_append.mp hOnce
  have hFirst : k ∉ l₁ := fun hIn => hApart k hIn k List.mem_cons_self rfl
  rw [List.flatMap_append, List.flatMap_cons, ← List.append_assoc] at h ⊢
  rw [flatMap_concat_other e hFirst, flatMap_concat_other e (List.nodup_cons.mp hSecond).1,
    project_append, project_self, ← List.append_assoc]
  obtain ⟨t, hBefore, hAfter⟩ := h.split
  exact (hBefore.append (hFree.performs (hLive t))).append hAfter

variable (point : ι → Event R → Bool)

/-- Who has had an event that is his `point`, in the order of these events. -/
def decided (log : List (ι × Event R)) : List ι := (log.filter fun e => point e.1 e.2).map Prod.fst

def undecided (log : List (ι × Event R)) : List ι :=
  (log.map Prod.fst).dedup.filter fun k => k ∉ decided point log

variable {point}

theorem mem_decided {log : List (ι × Event R)} {k : ι} :
    k ∈ decided point log ↔ ∃ e ∈ project k log, point k e = true := by
  simp only [decided, List.mem_map, List.mem_filter, mem_project]
  constructor
  · rintro ⟨⟨_, e⟩, ⟨hMem, he⟩, rfl⟩
    exact ⟨e, hMem, he⟩
  · rintro ⟨e, hMem, he⟩
    exact ⟨(k, e), ⟨hMem, he⟩, rfl⟩

theorem mem_undecided {log : List (ι × Event R)} {k : ι} :
    k ∈ undecided point log ↔ project k log ≠ [] ∧ k ∉ decided point log := by
  simp [undecided, project_ne_nil]

omit [DecidableEq ι] in
theorem decided_concat (log : List (ι × Event R)) (k : ι) (e : Event R) :
    decided point (log ++ [(k, e)]) = decided point log ++ if point k e then [k] else [] := by
  by_cases he : point k e <;> simp [decided, List.filter_append, he]

/-- Nobody has two events that are his point, and all other events are free. -/
structure Movable (m : Machine S E A R) (point : ι → Event R → Bool) (log : List (ι × Event R)) :
    Prop where
  once : ∀ k, (project k log).Pairwise fun e e' => ¬ (point k e = true ∧ point k e' = true)
  free : ∀ k e, (k, e) ∈ log → point k e = false → m.Free e

theorem Movable.of_concat {log : List (ι × Event R)} {k : ι} {e : Event R}
    (h : Movable m point (log ++ [(k, e)])) : Movable m point log ∧
      (point k e = true → k ∉ decided point log) ∧ (point k e = false → m.Free e) := by
  refine ⟨⟨fun j => ?_, fun j e' hMem => h.free j e' (List.mem_append_left _ hMem)⟩, ?_, ?_⟩
  · have hBoth := h.once j
    rw [project_append] at hBoth
    exact (List.pairwise_append.mp hBoth).1
  · intro he hDecided
    obtain ⟨e', hMem, he'⟩ := mem_decided.mp hDecided
    have hBoth := h.once k
    rw [project_append, project_self] at hBoth
    exact (List.pairwise_append.mp hBoth).2.2 e' hMem e (List.mem_singleton_self e) ⟨he', he⟩
  · exact h.free k e (by simp)

theorem Movable.decided_nodup {log : List (ι × Event R)} (h : Movable m point log) :
    (decided point log).Nodup := by
  induction log using List.reverseRecOn with
  | nil => exact .nil
  | append_singleton log e ih =>
    obtain ⟨hBefore, hNew, _⟩ := h.of_concat
    rw [decided_concat]
    cases he : point e.1 e.2 with
    | true => simpa using (ih hBefore).concat (hNew he)
    | false => simpa using ih hBefore

theorem Movable.free_of_undecided {log : List (ι × Event R)} (h : Movable m point log) {k : ι}
    (hk : k ∉ decided point log) : ∀ e ∈ project k log, m.Free e := by
  intro e hMem
  apply h.free k e ((mem_project k e log).mp hMem)
  by_contra he
  exact hk (mem_decided.mpr ⟨e, hMem, by simpa using he⟩)

theorem Movable.performs_decided (hLive : ∀ s, m.halted s = false) {prog : ι → Prog A R α} {s₀ s : S}
    {log : List (ι × Event R)} (hReach : Reaches m prog s₀ s log) (h : Movable m point log) :
    m.Performs s₀ ((decided point log).flatMap fun k => project k log) s := by
  induction hReach with
  | init => exact .nil s₀
  | @step s log k a next env _ _ _ ih =>
    obtain ⟨hBefore, hNew, hFree⟩ := h.of_concat
    have hRun := ih hBefore
    rw [decided_concat]
    cases he : point k ⟨a, (m.perform a env s).1⟩ with
    | true =>
      -- the block of `k` becomes the last one
      have hOut := hNew he
      have hOwn := Machine.Performs.of_free (hBefore.free_of_undecided hOut) (hLive s)
      rw [if_pos rfl, List.flatMap_append, flatMap_concat_other _ hOut, List.flatMap_singleton,
        project_append, project_self]
      exact hRun.append (hOwn.append (.one env (hLive s)))
    | false =>
      have hSame : (m.perform a env s).2 = s := (hFree he).silent s env rfl
      rw [if_neg Bool.false_ne_true, List.append_nil, hSame]
      by_cases hIn : k ∈ decided point log
      · exact hRun.insert hLive (hFree he) hBefore.decided_nodup hIn
      · rwa [flatMap_concat_other _ hIn]

theorem decided_realTime (rest : ι → Prog A R α) (log : List (ι × Event R)) :
    (decided point log).Pairwise fun k k' => ¬ Precedes rest log k' k := by
  rw [decided, List.pairwise_map]
  apply List.Pairwise.filter
  apply Lifetimes.pairwise_of_split
  rintro l₁ ⟨k', e'⟩ l₂ hLog ⟨k, e⟩ hMem ⟨_, pre, post, hSplit, hDone, hNone⟩
  rw [hLog] at hSplit
  rcases List.append_eq_append_iff.mp hSplit with ⟨mid, hPre, _⟩ | ⟨mid, _, hPost⟩
  · have hEarly : e ∈ project k pre := (mem_project k e pre).mpr (hPre ▸ List.mem_append_left _ hMem)
    rw [hNone] at hEarly
    cases hEarly
  · have hLate : e' ∈ project k' post := (mem_project k' e' post).mpr (hPost ▸ by simp)
    rw [hDone] at hLate
    cases hLate

/-- Where each participant has one decisive event on its way, and the others are free, the run is
serializable. -/
theorem Reaches.serializable (hLive : ∀ s, m.halted s = false) {prog rest : ι → Prog A R α} {s₀ s : S}
    {log : List (ι × Event R)} (hReach : Reaches m prog s₀ s log)
    (hPath : ∀ k, Path (prog k) (project k log) (rest k))
    (hOnce : ∀ k, (prog k).Once fun e => point k e = true)
    (hFree : ∀ k e, (k, e) ∈ log → point k e = false → m.Free e) :
    m.Serializable prog rest s₀ s log := by
  have hMovable : Movable m point log := ⟨fun k => (hPath k).once_pairwise (hOnce k), hFree⟩
  refine ⟨decided point log ++ undecided point log, ?_, fun k => ?_, hPath, ?_, ?_⟩
  · refine List.nodup_append.mpr ⟨hMovable.decided_nodup, (List.nodup_dedup _).filter _, ?_⟩
    rintro k hIn k' hOut rfl
    exact (mem_undecided.mp hOut).2 hIn
  · rw [List.mem_append, mem_undecided]
    constructor
    · rintro (hIn | ⟨hSome, _⟩)
      · obtain ⟨e, hMem, _⟩ := mem_decided.mp hIn
        exact List.ne_nil_of_mem hMem
      · exact hSome
    · intro hSome
      by_cases hIn : k ∈ decided point log
      · exact .inl hIn
      · exact .inr ⟨hSome, hIn⟩
  · -- whoever has not decided can do what he has done at the end
    rw [List.flatMap_append]
    refine (hMovable.performs_decided hLive hReach).append (.of_free ?_ (hLive s))
    intro e hMem
    obtain ⟨k, hOut, hOwn⟩ := List.mem_flatMap.mp hMem
    exact hMovable.free_of_undecided (mem_undecided.mp hOut).2 e hOwn
  · have hLater : ∀ k, ∀ k' ∈ undecided point log, ¬ Precedes rest log k' k := by
      rintro k k' hOut ⟨⟨value, hDone⟩, _⟩
      obtain ⟨pre, e, post, hSplit, he, _⟩ := (hDone ▸ hPath k').once_finished (hOnce k')
      exact (mem_undecided.mp hOut).2 (mem_decided.mpr ⟨e, by simp [hSplit], he⟩)
    refine List.pairwise_append.mpr ⟨decided_realTime rest log, ?_, fun k _ => hLater k⟩
    exact List.pairwise_of_forall_mem_list fun k _ => hLater k

end Serial

end Interleaving
