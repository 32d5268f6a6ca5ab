import Mobject.Library.SharedOwnership

/-! # Freeing what nobody owns any more

A pool with the record of what its assignments have freed. As long as owners only ever get targets
that are owned or new, a target is freed once, when its last owner lets go of it, and not before.
-/
namespace SharedOwnership
set_option autoImplicit false

theorem Pool.uses_eq_zero_iff {O T : Type} (p : Pool O T) (t : T) :
    p.uses t = 0 ↔ ∀ o, p.owner o ≠ some t := by
  refine ⟨p.unowned, fun hNone => ?_⟩
  have hCount := p.counted t
  rw [Set.eq_empty_of_forall_notMem (s := {o | p.owner o = some t}) hNone, Set.encard_empty] at hCount
  exact_mod_cast hCount.symm

theorem Pool.used_assign_iff {O T : Type} [DecidableEq O] [DecidableEq T] (p : Pool O T) (o : O)
    (x : Option T) (t : T) :
    (p.assign o x).uses t ≠ 0 ↔ (p.uses t ≠ 0 ∨ x = some t) ∧ p.released o x ≠ some t := by
  have hReleased : p.released o x ≠ some t ↔ (p.uses t ≠ 0 → (p.assign o x).uses t ≠ 0) :=
    (not_congr (p.released_iff o x)).trans not_and
  rw [hReleased]
  constructor
  · intro hUsed
    refine ⟨or_iff_not_imp_right.mpr fun hOther hZero => ?_, fun _ => hUsed⟩
    exact hUsed (p.uses_assign_unused hZero hOther)
  · rintro ⟨hOld | rfl, hKept⟩
    · exact hKept hOld
    · have hOwner : (p.assign o (some t)).owner o = some t := by simp
      exact ((p.assign o (some t)).uses_pos hOwner).ne'

structure Ledger (O T : Type) where
  self : Pool O T
  freed : List T

namespace Ledger
variable {O T : Type}

def empty : Ledger O T := ⟨.empty, []⟩

/-- Of the targets that have been made, the freed ones are exactly those that nobody owns, and none
is freed twice. -/
structure Sound (made : Set T) (l : Ledger O T) : Prop where
  used : ∀ t, l.self.uses t ≠ 0 → t ∈ made
  freed_iff : ∀ t, t ∈ l.freed ↔ t ∈ made ∧ l.self.uses t = 0
  once : l.freed.Nodup

variable {l : Ledger O T} {made : Set T}

theorem sound_empty : Sound ∅ (empty : Ledger O T) :=
  ⟨fun _ hUsed => absurd rfl hUsed, fun _ => by simp [empty], .nil⟩

theorem Sound.unused (h : Sound made l) {t : T} (hNew : t ∉ made) : l.self.uses t = 0 := by
  by_contra hUsed
  exact hNew (h.used t hUsed)

theorem Sound.owned (h : Sound made l) {o : O} {t : T} (hOwner : l.self.owner o = some t) :
    t ∈ made ∧ t ∉ l.freed := by
  have hUsed := (l.self.uses_pos hOwner).ne'
  exact ⟨h.used t hUsed, fun hFreed => hUsed ((h.freed_iff t).mp hFreed).2⟩

variable [DecidableEq O] [DecidableEq T]

def assign (l : Ledger O T) (o : O) (x : Option T) : Ledger O T :=
  ⟨l.self.assign o x, l.freed ++ (l.self.released o x).toList⟩

@[simp] theorem owner_assign (l : Ledger O T) (o : O) (x : Option T) :
    (l.assign o x).self.owner = Function.update l.self.owner o x := rfl

theorem Sound.assign (h : Sound made l) (o : O) {x : Option T}
    (hx : ∀ t, x = some t → l.self.uses t ≠ 0 ∨ t ∉ made) :
    Sound (made ∪ {t | x = some t}) (l.assign o x) := by
  have hUsed : ∀ t, (l.assign o x).self.uses t ≠ 0 ↔
      (l.self.uses t ≠ 0 ∨ x = some t) ∧ l.self.released o x ≠ some t := l.self.used_assign_iff o x
  constructor
  · intro t hUses
    exact ((hUsed t).mp hUses).1.imp_left (h.used t)
  · intro t
    rw [Ledger.assign, List.mem_append, Option.mem_toList, h.freed_iff, l.self.released_iff]
    constructor
    · rintro (⟨hMade, hZero⟩ | ⟨hUses, hGone⟩)
      · refine ⟨.inl hMade, l.self.uses_assign_unused hZero fun hNew => ?_⟩
        exact (hx t hNew).elim (fun hUses => hUses hZero) fun hNot => hNot hMade
      · exact ⟨.inl (h.used t hUses), hGone⟩
    · rintro ⟨hMade, hGone⟩
      by_cases hZero : l.self.uses t = 0
      · -- of what nobody had, only what is assigned could be new
        refine .inl ⟨hMade.resolve_right fun hNew => ?_, hZero⟩
        refine (hUsed t).mpr ⟨.inr hNew, fun hReleased => ?_⟩ hGone
        exact ((l.self.released_iff o x).mp hReleased).1 hZero
      · exact .inr ⟨hZero, hGone⟩
  · refine List.nodup_append.mpr ⟨h.once, ?_, ?_⟩
    · cases l.self.released o x <;> simp
    · rintro t hFreed t' hReleased rfl
      rw [Option.mem_toList, l.self.released_iff] at hReleased
      exact hReleased.1 ((h.freed_iff t).mp hFreed).2

theorem Sound.release (h : Sound made l) (o : O) : Sound made (l.assign o none) := by
  have hAssign := h.assign o (x := none) nofun
  rwa [show {t : T | none = some t} = ∅ from Set.eq_empty_of_forall_notMem nofun, Set.union_empty]
    at hAssign

theorem Sound.share (h : Sound made l) (o : O) {t : T} (hUsed : l.self.uses t ≠ 0) :
    Sound made (l.assign o (some t)) := by
  have hAssign := h.assign o (x := some t) fun t' hSame => .inl (Option.some.inj hSame ▸ hUsed)
  have hSub : {t' | some t = some t'} ⊆ made := by
    rintro t' ⟨⟩
    exact h.used t hUsed
  rwa [Set.union_eq_left.mpr hSub] at hAssign

theorem Sound.make (h : Sound made l) (o : O) {t : T} (hNew : t ∉ made) :
    Sound (insert t made) (l.assign o (some t)) := by
  have hAssign := h.assign o (x := some t) fun t' hSame => .inr (Option.some.inj hSame ▸ hNew)
  rwa [show {t' | some t = some t'} = {t} by ext t'; simp [eq_comm], Set.union_singleton] at hAssign

omit [DecidableEq O] [DecidableEq T] in
theorem sound_start : Sound {t | t < 0} (empty : Ledger O Nat) := by
  rw [show {t | t < 0} = (∅ : Set Nat) from Set.eq_empty_of_forall_notMem Nat.not_lt_zero]
  exact sound_empty

omit [DecidableEq T] in
/-- The next of targets that are numbered as they are made. -/
theorem Sound.makeNext {l : Ledger O Nat} {n : Nat} (h : Sound {t | t < n} l) (o : O) :
    Sound {t | t < n + 1} (l.assign o (some n)) := by
  have hMade := h.make o (t := n) (by simp)
  rwa [show insert n {t | t < n} = {t | t < n + 1} by
    ext t
    simpa using or_comm.trans Nat.le_iff_lt_or_eq.symm] at hMade

end Ledger

end SharedOwnership
