import Mobject.Library.Serial

/-! # Critical sections as atomic actions

Some actions of a machine are carried out under a mutex, as a program of smaller accesses to a
state that shows more. Where no access can be told from outside the mutex, and a section that is
over has done what its action says, the participants run as if each section were one step.
-/
namespace Interleaving
set_option autoImplicit false

/-- How the actions are carried out: one that has a `body` by running it under the mutex, any
other one in a single step. -/
structure Sections (F E A B : Type) (R : A → Type) (Q : B → Type) where
  body : (a : A) → Option (Prog B Q (R a))
  access : (b : B) → E → F → Q b × F
  unguarded : (a : A) → E → F → R a × F
  halted : F → Bool

/-- A participant is between two actions, or in the section of one, with the mutex. -/
inductive Stage (A B : Type) (R : A → Type) (Q : B → Type) (α : Type) where
  | outside (rest : Prog A R α)
  | inside (a : A) (next : R a → Prog A R α) (left : Prog B Q (R a))

structure LockConfig (ι F A B : Type) (R : A → Type) (Q : B → Type) (α : Type) where
  shared : F
  holder : Option ι
  stage : ι → Stage A B R Q α
  log : List (ι × Event R)

variable {ι S F E A B : Type} {R : A → Type} {Q : B → Type} {α : Type}

/-- What is left of the program, a section that is not over counting as not begun. -/
def Stage.rest : Stage A B R Q α → Prog A R α
  | .outside rest => rest
  | .inside a next _ => .act a next

namespace Sections
variable (sec : Sections F E A B R Q)

def accesses : Machine F E B Q := ⟨sec.access, fun _ => false⟩

variable [DecidableEq ι]

def step (c : LockConfig ι F A B R Q α) (l : ι × E) : LockConfig ι F A B R Q α :=
  if sec.halted c.shared then c else
    match c.stage l.1 with
    | .outside (.pure _) => c
    | .outside (.act a next) =>
      match sec.body a, c.holder with
      | none, _ =>
        let answer := sec.unguarded a l.2 c.shared
        { c with shared := answer.2
                 stage := Function.update c.stage l.1 (.outside (next answer.1))
                 log := c.log ++ [(l.1, ⟨a, answer.1⟩)] }
      | some body, none =>
        { c with holder := some l.1
                 stage := Function.update c.stage l.1 (.inside a next body) }
      -- blocked
      | some _, some _ => c
    | .inside a next (.act b left) =>
      let answer := sec.access b l.2 c.shared
      { c with shared := answer.2
               stage := Function.update c.stage l.1 (.inside a next (left answer.1)) }
    | .inside a next (.pure r) =>
      { c with holder := none
               stage := Function.update c.stage l.1 (.outside (next r))
               log := c.log ++ [(l.1, ⟨a, r⟩)] }

/-- Everything one step of `k` can do. -/
inductive Moves (c : LockConfig ι F A B R Q α) (k : ι) (env : E) :
    LockConfig ι F A B R Q α → Prop
  | stays : Moves c k env c
  | acts (a : A) (next : R a → Prog A R α) : sec.halted c.shared = false →
      c.stage k = .outside (.act a next) → sec.body a = none →
      Moves c k env
        { c with shared := (sec.unguarded a env c.shared).2
                 stage := Function.update c.stage k
                   (.outside (next (sec.unguarded a env c.shared).1))
                 log := c.log ++ [(k, ⟨a, (sec.unguarded a env c.shared).1⟩)] }
  | enters (a : A) (next : R a → Prog A R α) (body : Prog B Q (R a)) :
      sec.halted c.shared = false → c.stage k = .outside (.act a next) → sec.body a = some body →
      c.holder = none →
      Moves c k env
        { c with holder := some k
                 stage := Function.update c.stage k (.inside a next body) }
  | accesses (a : A) (next : R a → Prog A R α) (b : B) (left : Q b → Prog B Q (R a)) :
      sec.halted c.shared = false → c.stage k = .inside a next (.act b left) →
      Moves c k env
        { c with shared := (sec.access b env c.shared).2
                 stage := Function.update c.stage k
                   (.inside a next (left (sec.access b env c.shared).1)) }
  | leaves (a : A) (next : R a → Prog A R α) (r : R a) : sec.halted c.shared = false →
      c.stage k = .inside a next (.pure r) →
      Moves c k env
        { c with holder := none
                 stage := Function.update c.stage k (.outside (next r))
                 log := c.log ++ [(k, ⟨a, r⟩)] }

theorem step_moves (c : LockConfig ι F A B R Q α) (k : ι) (env : E) :
    sec.Moves c k env (sec.step c (k, env)) := by
  unfold step
  cases hHalted : sec.halted c.shared with
  | true => exact .stays
  | false =>
    cases hStage : c.stage k with
    | outside rest =>
      cases rest with
      | pure value => simpa only [hStage, Bool.false_eq_true, ↓reduceIte] using Moves.stays
      | act a next =>
        cases hBody : sec.body a with
        | none =>
          simpa only [hStage, hBody, Bool.false_eq_true, ↓reduceIte] using
            Moves.acts a next hHalted hStage hBody
        | some body =>
          cases hHolder : c.holder with
          | some j => simpa only [hStage, hBody, hHolder, Bool.false_eq_true, ↓reduceIte] using Moves.stays
          | none =>
            simpa only [hStage, hBody, hHolder, Bool.false_eq_true, ↓reduceIte] using
              Moves.enters a next body hHalted hStage hBody hHolder
    | inside a next left =>
      cases left with
      | pure r =>
        simpa only [hStage, Bool.false_eq_true, ↓reduceIte] using Moves.leaves a next r hHalted hStage
      | act b left =>
        simpa only [hStage, Bool.false_eq_true, ↓reduceIte] using
          Moves.accesses a next b left hHalted hStage

def run (c : LockConfig ι F A B R Q α) (schedule : List (ι × E)) : LockConfig ι F A B R Q α :=
  schedule.foldl sec.step c

end Sections

def LockConfig.start (prog : ι → Prog A R α) (f : F) : LockConfig ι F A B R Q α :=
  ⟨f, none, fun k => .outside (prog k), []⟩

/-- The sections do what the actions of `m` say, on states that show a state of `m`. -/
structure Sections.Implements (sec : Sections F E A B R Q) (m : Machine S E A R) (shows : S → F) :
    Prop where
  halted_shows : ∀ s, sec.halted (shows s) = m.halted s
  halted_access : ∀ b env f, sec.halted (sec.access b env f).2 = false → sec.halted f = false
  unguarded : ∀ a env s, sec.body a = none →
    sec.unguarded a env (shows s) = ((m.perform a env s).1, shows (m.perform a env s).2)
  commutes : ∀ a env b env' f, sec.body a = none →
    (sec.unguarded a env (sec.access b env' f).2).1 = (sec.unguarded a env f).1 ∧
      sec.access b env' (sec.unguarded a env f).2 =
        ((sec.access b env' f).1, (sec.unguarded a env (sec.access b env' f).2).2)
  body : ∀ a p s t r f, sec.body a = some p → m.halted s = false → sec.halted f = false →
    sec.accesses.Does p (shows s) t (.pure r) f →
    ∃ env, (m.perform a env s).1 = r ∧ f = shows (m.perform a env s).2

namespace Sections.Implements
variable {sec : Sections F E A B R Q} {m : Machine S E A R} {shows : S → F}
  (h : sec.Implements m shows)
include h

theorem halted_before {f f' : F} {t : List (Event Q)} (hPerforms : sec.accesses.Performs f t f')
    (hLive : sec.halted f' = false) : sec.halted f = false := by
  induction hPerforms with
  | nil => exact hLive
  | cons env _ _ ih => exact h.halted_access _ env _ (ih hLive)

/-- What is done outside the mutex may as well have been done before the accesses of a section. -/
theorem before {a : A} (env : E) (hUnguarded : sec.body a = none) {f f' : F} {t : List (Event Q)}
    (hPerforms : sec.accesses.Performs f t f') :
    (sec.unguarded a env f').1 = (sec.unguarded a env f).1 ∧
      sec.accesses.Performs (sec.unguarded a env f).2 t (sec.unguarded a env f').2 := by
  induction hPerforms with
  | nil => exact ⟨rfl, .nil _⟩
  | @cons f f' b t env' _ _ ih =>
    obtain ⟨hSame, hRest⟩ := ih
    obtain ⟨hAnswer, hAccess⟩ := h.commutes a env b env' f hUnguarded
    refine ⟨hSame.trans hAnswer, ?_⟩
    have hHere : sec.accesses.perform b env' (sec.unguarded a env f).2 =
        ((sec.access b env' f).1, (sec.unguarded a env (sec.access b env' f).2).2) := hAccess
    have hOne := Machine.Performs.one (m := sec.accesses) (s := (sec.unguarded a env f).2) (a := b) env' rfl
    rw [hHere] at hOne
    exact hOne.append hRest

end Sections.Implements

section Refinement
variable [DecidableEq ι] {sec : Sections F E A B R Q} {m : Machine S E A R} {shows : S → F}

/-- A run under the mutex against one of `m`: the same log, the same left to do, and the state of
`m` shown, up to what the holder of the mutex has done in its section so far. -/
structure Simulates (sec : Sections F E A B R Q) (shows : S → F) (c : LockConfig ι F A B R Q α)
    (d : Config ι S A R α) : Prop where
  log : d.log = c.log
  rest : d.rest = fun k => (c.stage k).rest
  free : c.holder = none → c.shared = shows d.shared
  held : ∀ k, c.holder = some k → ∃ a next left body t, c.stage k = .inside a next left ∧
    sec.body a = some body ∧ sec.accesses.Does body (shows d.shared) t left c.shared
  outside : ∀ k, c.holder ≠ some k → ∃ p, c.stage k = .outside p

variable {c : LockConfig ι F A B R Q α} {d : Config ι S A R α}

theorem Simulates.exclusive (h : Simulates sec shows c d) {k : ι} {a : A} {next : R a → Prog A R α}
    {left : Prog B Q (R a)} (hInside : c.stage k = .inside a next left) : c.holder = some k := by
  by_contra hNot
  obtain ⟨p, hOutside⟩ := h.outside k hNot
  rw [hInside] at hOutside
  cases hOutside

omit [DecidableEq ι] in
theorem Simulates.live (h : Simulates sec shows c d) (hImplements : sec.Implements m shows)
    (hLive : sec.halted c.shared = false) : m.halted d.shared = false := by
  rw [← hImplements.halted_shows]
  cases hHolder : c.holder with
  | none => rwa [← h.free hHolder]
  | some k =>
    obtain ⟨_, _, _, _, _, _, _, hDoes⟩ := h.held k hHolder
    exact hImplements.halted_before hDoes.performs hLive

theorem step_of_act {d : Config ι S A R α} {k : ι} {a : A} {next : R a → Prog A R α} {env : E}
    (hLive : m.halted d.shared = false) (hRest : d.rest k = .act a next) :
    m.step d (k, env) =
      { shared := (m.perform a env d.shared).2
        rest := Function.update d.rest k (next (m.perform a env d.shared).1)
        log := d.log ++ [(k, ⟨a, (m.perform a env d.shared).1⟩)] } := by
  simp [Machine.step, hLive, hRest]

theorem rest_update (stage : ι → Stage A B R Q α) (k : ι) (x : Stage A B R Q α) :
    (fun j => (Function.update stage k x j).rest) =
      Function.update (fun j => (stage j).rest) k x.rest := by
  funext j
  by_cases hj : j = k
  · subst hj
    simp
  · simp [Function.update_of_ne hj]

section Update
variable {stage : ι → Stage A B R Q α} {j k : ι}

theorem update_other {x y : Stage A B R Q α} (hNe : j ≠ k) (h : stage j = x) :
    Function.update stage k y j = x := by
  rw [Function.update_of_ne hNe, h]

theorem update_outside {p : Prog A R α} (h : ∃ q, stage j = .outside q) :
    ∃ q, Function.update stage k (.outside p) j = .outside q := by
  by_cases hj : j = k
  · subst hj
    exact ⟨p, Function.update_self ..⟩
  · obtain ⟨q, hq⟩ := h
    exact ⟨q, update_other hj hq⟩

end Update

omit [DecidableEq ι] in
theorem Simulates.rest_eq (h : Simulates sec shows c d) (k : ι) : d.rest k = (c.stage k).rest :=
  congrFun h.rest k

/-- An action outside the mutex is one of `m`, also while somebody is in a section. -/
theorem Simulates.acts (h : Simulates sec shows c d) (hImplements : sec.Implements m shows) {k : ι}
    {env : E} {a : A} {next : R a → Prog A R α} (hLive : sec.halted c.shared = false)
    (hStage : c.stage k = .outside (.act a next)) (hUnguarded : sec.body a = none) :
    Simulates sec shows
      { c with shared := (sec.unguarded a env c.shared).2
               stage := Function.update c.stage k (.outside (next (sec.unguarded a env c.shared).1))
               log := c.log ++ [(k, ⟨a, (sec.unguarded a env c.shared).1⟩)] }
      (m.step d (k, env)) := by
  have hRest : d.rest k = .act a next := by rw [h.rest_eq, hStage, Stage.rest]
  have hShown := hImplements.unguarded a env d.shared hUnguarded
  have hOut : c.holder ≠ some k := by
    intro hHolder
    obtain ⟨_, _, _, _, _, hInside, _⟩ := h.held k hHolder
    rw [hStage] at hInside
    cases hInside
  have hSame : (sec.unguarded a env c.shared).1 = (m.perform a env d.shared).1 := by
    cases hHolder : c.holder with
    | none => rw [h.free hHolder, hShown]
    | some j =>
      obtain ⟨_, _, _, _, _, _, _, hDoes⟩ := h.held j hHolder
      rw [(hImplements.before env hUnguarded hDoes.performs).1, hShown]
  rw [step_of_act (h.live hImplements hLive) hRest, ← hSame]
  constructor
  · rw [h.log]
  · rw [rest_update, h.rest, Stage.rest]
  · intro hHolder
    rw [h.free hHolder, hShown]
  · intro j hHolder
    obtain ⟨a', next', left, body, t, hInside, hBody, hDoes⟩ := h.held j hHolder
    have hNe : j ≠ k := fun hEq => hOut (hEq ▸ hHolder)
    have hBefore := (hImplements.before env hUnguarded hDoes.performs).2
    rw [hShown] at hBefore
    exact ⟨a', next', left, body, t, update_other hNe hInside, hBody, hDoes.path, hBefore⟩
  · exact fun j hNot => update_outside (h.outside j hNot)

theorem Simulates.enters (h : Simulates sec shows c d) {k : ι} {a : A} {next : R a → Prog A R α}
    {body : Prog B Q (R a)} (hStage : c.stage k = .outside (.act a next))
    (hBody : sec.body a = some body) (hFree : c.holder = none) :
    Simulates sec shows
      { c with holder := some k
               stage := Function.update c.stage k (.inside a next body) } d := by
  have hRest : d.rest k = .act a next := by rw [h.rest_eq, hStage, Stage.rest]
  constructor
  · exact h.log
  · rw [rest_update, ← h.rest, Stage.rest, ← hRest, Function.update_eq_self]
  · exact nofun
  · rintro j ⟨⟩
    refine ⟨a, next, body, body, [], Function.update_self .., hBody, .nil _, ?_⟩
    rw [h.free hFree]
    exact .nil _
  · intro j hNot
    have hNe : j ≠ k := fun hEq => hNot (hEq ▸ rfl)
    obtain ⟨p, hp⟩ := h.outside j (by simp [hFree])
    exact ⟨p, update_other hNe hp⟩

theorem Simulates.accesses (h : Simulates sec shows c d) {k : ι} {env : E} {a : A}
    {next : R a → Prog A R α} {b : B} {left : Q b → Prog B Q (R a)}
    (hStage : c.stage k = .inside a next (.act b left)) :
    Simulates sec shows
      { c with shared := (sec.access b env c.shared).2
               stage := Function.update c.stage k (.inside a next (left (sec.access b env c.shared).1)) }
      d := by
  have hHolder := h.exclusive hStage
  have hRest : d.rest k = .act a next := by rw [h.rest_eq, hStage, Stage.rest]
  constructor
  · exact h.log
  · rw [rest_update, ← h.rest, Stage.rest, ← hRest, Function.update_eq_self]
  · intro hFree
    rw [hHolder] at hFree
    cases hFree
  · intro j hj
    obtain rfl : k = j := Option.some.inj (hHolder.symm.trans hj)
    obtain ⟨_, _, _, body, t, hInside, hBody, hDoes⟩ := h.held k hHolder
    obtain ⟨rfl, rfl, rfl⟩ := Stage.inside.inj (hStage.symm.trans hInside)
    have hOne := Machine.Performs.one (m := sec.accesses) (s := c.shared) (a := b) env rfl
    exact ⟨_, _, _, body, _, Function.update_self .., hBody, hDoes.path.snoc _,
      hDoes.performs.append hOne⟩
  · intro j hNot
    have hNe : j ≠ k := fun hEq => hNot (hEq ▸ hHolder)
    obtain ⟨p, hp⟩ := h.outside j hNot
    exact ⟨p, update_other hNe hp⟩

theorem Simulates.leaves (h : Simulates sec shows c d) (hImplements : sec.Implements m shows) {k : ι}
    {a : A} {next : R a → Prog A R α} {r : R a} (hLive : sec.halted c.shared = false)
    (hStage : c.stage k = .inside a next (.pure r)) :
    ∃ env, Simulates sec shows
      { c with holder := none
               stage := Function.update c.stage k (.outside (next r))
               log := c.log ++ [(k, ⟨a, r⟩)] }
      (m.step d (k, env)) := by
  have hHolder := h.exclusive hStage
  have hRest : d.rest k = .act a next := by rw [h.rest_eq, hStage, Stage.rest]
  obtain ⟨_, _, _, body, t, hInside, hBody, hDoes⟩ := h.held k hHolder
  obtain ⟨rfl, rfl, rfl⟩ := Stage.inside.inj (hStage.symm.trans hInside)
  have hBefore := h.live hImplements hLive
  obtain ⟨env, rfl, hShared⟩ := hImplements.body a body d.shared t _ c.shared hBody hBefore hLive hDoes
  refine ⟨env, ?_⟩
  rw [step_of_act hBefore hRest]
  constructor
  · rw [h.log]
  · rw [rest_update, h.rest, Stage.rest]
  · exact fun _ => hShared
  · exact nofun
  · intro j _
    by_cases hj : j = k
    · subst hj
      exact ⟨_, Function.update_self ..⟩
    · obtain ⟨p, hp⟩ := h.outside j fun hEq => hj (Option.some.inj (hEq.symm.trans hHolder))
      exact ⟨p, update_other hj hp⟩

theorem Simulates.step (h : Simulates sec shows c d) (hImplements : sec.Implements m shows)
    (l : ι × E) : ∃ schedule, Simulates sec shows (sec.step c l) (m.run d schedule) := by
  obtain ⟨k, env⟩ := l
  have hMoves := sec.step_moves c k env
  generalize sec.step c (k, env) = c' at hMoves ⊢
  cases hMoves with
  | stays => exact ⟨[], h⟩
  | acts a next hLive hStage hUnguarded => exact ⟨[(k, env)], h.acts hImplements hLive hStage hUnguarded⟩
  | enters a next body _ hStage hBody hFree => exact ⟨[], h.enters hStage hBody hFree⟩
  | accesses a next b left _ hStage => exact ⟨[], h.accesses hStage⟩
  | leaves a next r hLive hStage =>
    obtain ⟨env', hLeaves⟩ := h.leaves hImplements hLive hStage
    exact ⟨[(k, env')], hLeaves⟩

/-- Whatever the schedule, the system with the mutex does what the machine of atomic actions does
under some schedule. -/
theorem Sections.Implements.simulates (hImplements : sec.Implements m shows) (prog : ι → Prog A R α)
    (s₀ : S) (schedule : List (ι × E)) : ∃ schedule', Simulates sec shows
      (sec.run (.start prog (shows s₀)) schedule) (m.run ⟨s₀, prog, []⟩ schedule') := by
  induction schedule using List.reverseRecOn with
  | nil => exact ⟨[], rfl, rfl, fun _ => rfl, nofun, fun k _ => ⟨prog k, rfl⟩⟩
  | append_singleton schedule l ih =>
    obtain ⟨before, hBefore⟩ := ih
    obtain ⟨last, hStep⟩ := hBefore.step hImplements l
    rw [Sections.run, List.foldl_append]
    exact ⟨before ++ last, by rw [Machine.run, List.foldl_append]; exact hStep⟩

end Refinement

section Release
variable [DecidableEq ι] (sec : Sections F E A B R Q)

theorem Sections.stage_other (c : LockConfig ι F A B R Q α) {j : ι} (l : ι × E) (hNe : l.1 ≠ j) :
    (sec.step c l).stage j = c.stage j := by
  obtain ⟨k, env⟩ := l
  have hMoves := sec.step_moves c k env
  generalize sec.step c (k, env) = c' at hMoves ⊢
  cases hMoves with
  | stays => rfl
  | acts | enters | accesses | leaves => exact Function.update_of_ne (Ne.symm hNe) _ _

/-- Whoever is in a section is out of it after so many turns of his own and one more, whatever the
others do, unless the system is halted. -/
theorem Sections.released (j : ι) (schedule : List (ι × E)) (c : LockConfig ι F A B R Q α) {a : A}
    {next : R a → Prog A R α} {left : Prog B Q (R a)} {n : Nat} (hStage : c.stage j = .inside a next left)
    (hWithin : left.Within n) (hTurns : n < turns j schedule) :
    ∃ pre, pre <+: schedule ∧ (sec.halted (sec.run c pre).shared = true ∨
      ∃ p, (sec.run c pre).stage j = .outside p) := by
  induction schedule generalizing c left n with
  | nil => cases hTurns
  | cons l schedule ih =>
    cases hHalted : sec.halted c.shared with
    | true => exact ⟨[], List.nil_prefix, .inl hHalted⟩
    | false =>
      rw [turns, List.countP_cons] at hTurns
      have hLater : ∀ {p : Prog B Q (R a)} {n' : Nat},
          (sec.step c l).stage j = .inside a next p → p.Within n' →
          n' < turns j schedule → ∃ pre, pre <+: l :: schedule ∧
            (sec.halted (sec.run c pre).shared = true ∨ ∃ q, (sec.run c pre).stage j = .outside q) := by
        intro p n' hStage' hWithin' hTurns'
        obtain ⟨pre, hPrefix, hOut⟩ := ih (sec.step c l) hStage' hWithin' hTurns'
        exact ⟨l :: pre, List.cons_prefix_cons.mpr ⟨rfl, hPrefix⟩, hOut⟩
      by_cases hj : l.1 = j
      · subst hj
        cases left with
        | pure r =>
          refine ⟨[l], List.cons_prefix_cons.mpr ⟨rfl, List.nil_prefix⟩, .inr ⟨next r, ?_⟩⟩
          simp [Sections.run, Sections.step, hHalted, hStage]
        | act b left =>
          cases n with
          | zero => cases hWithin
          | succ n =>
            refine hLater (p := left (sec.access b l.2 c.shared).1) ?_ (hWithin _) ?_
            · simp [Sections.step, hHalted, hStage]
            · simpa [turns] using hTurns
      · refine hLater ((sec.stage_other c l hj).trans hStage) hWithin ?_
        simpa [turns, hj] using hTurns

end Release

end Interleaving
