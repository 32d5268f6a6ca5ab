import Mathlib.Data.Fintype.Defs
import Mobject.Library.Serial

/-! # Machines side by side

Several machines in one process, each with a state of its own. An action is addressed to one of
them, every program keeps to one, and when one halts all do. Runs of the whole are serializable if
the decisive events of the programs are found machine by machine.
-/
namespace Interleaving
set_option autoImplicit false

section Side
variable {P ι S S' E E' A : Type} {R : A → Type} {α : Type}

/-- The answers to actions that are addressed to one of several machines. -/
abbrev Addressed (P : Type) {A : Type} (R : A → Type) (a : P × A) : Type := R a.2

def Prog.sendTo (p : P) : Prog A R α → Prog (P × A) (Addressed P R) α
  | .pure value => .pure value
  | .act a next => .act (p, a) fun r => (next r).sendTo p

def plain (e : Event (Addressed P R)) : Event R := ⟨e.1.2, e.2⟩

variable {p : P} {prog : Prog A R α}

theorem Prog.sendTo_eq_pure {value : α} : prog.sendTo p = .pure value ↔ prog = .pure value := by
  cases prog <;> simp [Prog.sendTo]

theorem Path.of_sendTo {t : List (Event (Addressed P R))} {q : Prog (P × A) (Addressed P R) α}
    (h : Path (prog.sendTo p) t q) :
    (∀ e ∈ t, e.1.1 = p) ∧ ∃ left, q = left.sendTo p ∧ Path prog (t.map plain) left := by
  induction prog generalizing t with
  | pure value =>
    cases h
    exact ⟨by simp, .pure value, rfl, .nil _⟩
  | act a next ih =>
    cases h with
    | nil => exact ⟨by simp, .act a next, rfl, .nil _⟩
    | cons hRest =>
      obtain ⟨hTail, left, rfl, hPath⟩ := ih _ hRest
      exact ⟨List.forall_mem_cons.mpr ⟨rfl, hTail⟩, left, rfl, .cons hPath⟩

theorem Prog.Never.sendTo {Q : Event R → Prop} (h : prog.Never Q) :
    (prog.sendTo p).Never fun e => Q (plain e) := by
  induction prog with
  | pure value => trivial
  | act a next ih => exact fun r => ⟨(h r).1, ih r (h r).2⟩

theorem Prog.Once.sendTo {Q : Event R → Prop} (h : prog.Once Q) :
    (prog.sendTo p).Once fun e => Q (plain e) := by
  induction prog with
  | pure value => exact h
  | act a next ih =>
    intro r
    rcases h r with ⟨hHead, hNever⟩ | ⟨hHead, hRest⟩
    · exact .inl ⟨hHead, hNever.sendTo⟩
    · exact .inr ⟨hHead, ih r hRest⟩

variable [DecidableEq P] [Fintype P]

def Machine.side (m : P → Machine S E A R) : Machine (P → S) E (P × A) (Addressed P R) where
  perform a env s :=
    let answer := (m a.1).perform a.2 env (s a.1)
    (answer.1, Function.update s a.1 answer.2)
  halted s := decide (∃ p, (m p).halted (s p) = true)

theorem halted_side {m : P → Machine S E A R} {s : P → S} :
    (Machine.side m).halted s = false ↔ ∀ p, (m p).halted (s p) = false := by
  simp [Machine.side]

theorem Machine.Abstracts.side {m : P → Machine S E A R} {m' : P → Machine S' E' A R} {abs : S → S'}
    (h : ∀ p, (m p).Abstracts (m' p) abs) :
    (Machine.side m).Abstracts (Machine.side m') fun s p => abs (s p) where
  perform a env s hLive := by
    obtain ⟨env', hStep⟩ := (h a.1).perform a.2 env (s a.1) (halted_side.mp hLive a.1)
    refine ⟨env', ?_⟩
    simp only [Machine.side, hStep]
    refine congrArg _ (funext fun p => ?_)
    by_cases hp : p = a.1
    · subst hp
      simp
    · simp [Function.update_of_ne hp]
  live s hLive := halted_side.mpr fun p => (h p).live _ (halted_side.mp hLive p)

variable {m : P → Machine S E A R}

theorem Machine.Free.side {e : Event (Addressed P R)} (h : (m e.1.1).Free (plain e)) :
    (Machine.side m).Free e := by
  obtain ⟨⟨p, a⟩, answer⟩ := e
  refine ⟨fun s => ?_, fun s env hAnswer => ?_⟩
  · obtain ⟨env, hStep⟩ := h.possible (s p)
    refine ⟨env, ?_⟩
    change (((m p).perform a env (s p)).1, Function.update s p ((m p).perform a env (s p)).2) = _
    rw [show (m p).perform a env (s p) = (answer, s p) from hStep, Function.update_eq_self]
  · have hSame : ((m p).perform a env (s p)).2 = s p := h.silent (s p) env hAnswer
    change Function.update s p ((m p).perform a env (s p)).2 = s
    rw [hSame, Function.update_eq_self]

theorem Machine.Performs.of_side {s s' : P → S} {t : List (Event (Addressed P R))}
    (h : (Machine.side m).Performs s t s') (hAt : ∀ e ∈ t, e.1.1 = p) :
    (m p).Performs (s p) (t.map plain) (s' p) ∧ ∀ p' ≠ p, s' p' = s p' := by
  induction h with
  | nil s => exact ⟨.nil _, fun _ _ => rfl⟩
  | @cons s s' a t env hLive _ ih =>
    obtain ⟨hHead, hTail⟩ := List.forall_mem_cons.mp hAt
    obtain rfl : a.1 = p := hHead
    obtain ⟨hPerforms, hOthers⟩ := ih hTail
    constructor
    · have hStart : ((Machine.side m).perform a env s).2 a.1 = ((m a.1).perform a.2 env (s a.1)).2 :=
        Function.update_self ..
      rw [hStart] at hPerforms
      exact .cons env (halted_side.mp hLive a.1) hPerforms
    · exact fun p' hp => (hOthers p' hp).trans (Function.update_of_ne hp _ _)

variable [DecidableEq ι]

/-- Where each program has one decisive event on its way, and the others are free for the machine it
keeps to, the run of them all is serializable. -/
theorem Reaches.side_serializable (hLive : ∀ p s, (m p).halted s = false) {site : ι → P}
    {prog : ι → Prog A R α} {rest : ι → Prog (P × A) (Addressed P R) α} {s₀ s : P → S}
    {log : List (ι × Event (Addressed P R))} {point : ι → Event R → Bool}
    (hReach : Reaches (Machine.side m) (fun k => (prog k).sendTo (site k)) s₀ s log)
    (hPath : ∀ k, Path ((prog k).sendTo (site k)) (project k log) (rest k))
    (hOnce : ∀ k, (prog k).Once fun e => point k e = true)
    (hFree : ∀ k e env s, e.2 = ((m (site k)).perform e.1 env s).1 → point k e = false →
      (m (site k)).Free e) :
    (Machine.side m).Serializable (fun k => (prog k).sendTo (site k)) rest s₀ s log := by
  have hDecisive : ∀ k, ((prog k).sendTo (site k)).Once fun e => point k (plain e) = true :=
    fun k => (hOnce k).sendTo
  refine hReach.serializable (fun s => ?_) hPath hDecisive fun k e hMem hNot => ?_
  · exact halted_side.mpr fun p => hLive p _
  · obtain ⟨env, s, hAnswer⟩ := hReach.answered (k, e) hMem
    have hSite : e.1.1 = site k := (hPath k).of_sendTo.1 e ((mem_project k e log).mpr hMem)
    apply Machine.Free.side
    obtain ⟨⟨p, a⟩, answer⟩ := e
    obtain rfl : p = site k := hSite
    exact hFree k _ env (s (site k)) hAnswer hNot

end Side

end Interleaving
