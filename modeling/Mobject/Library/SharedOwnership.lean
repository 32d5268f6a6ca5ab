import Mathlib.Data.Set.Card

/-! # Shared ownership with a use count

Owners hold at most one target each, and every target counts its owners. The count is stored, as
in a control block, and `counted` says that it is right; so a count of one means a sole owner.
-/
namespace SharedOwnership
set_option autoImplicit false

structure Pool (O T : Type) where
  owner : O → Option T
  uses : T → Nat
  counted : ∀ t, {o | owner o = some t}.encard = uses t

namespace Pool
variable {O T : Type}

def empty : Pool O T := ⟨fun _ => none, fun _ => 0, by simp⟩

variable (p : Pool O T) {t : T} {o o' : O}

theorem uses_pos (h : p.owner o = some t) : 0 < p.uses t := by
  apply Nat.pos_of_ne_zero
  intro hZero
  have hNone := p.counted t
  rw [hZero, Nat.cast_zero, Set.encard_eq_zero] at hNone
  exact Set.eq_empty_iff_forall_notMem.mp hNone o h

theorem unowned (h : p.uses t = 0) (o : O) : p.owner o ≠ some t := by
  intro hOwner
  have hPos := p.uses_pos hOwner
  omega

theorem sole (hUses : p.uses t = 1) (h : p.owner o = some t) (h' : p.owner o' = some t) :
    o = o' := by
  have hOne := p.counted t
  rw [hUses, Nat.cast_one] at hOne
  exact Set.encard_le_one_iff.mp hOne.le o o' h h'

theorem encard_others [DecidableEq T] (o : O) (t : T) :
    ({o' | p.owner o' = some t} \ {o}).encard =
      ((p.uses t - if p.owner o = some t then 1 else 0 : Nat) : ℕ∞) := by
  by_cases hOld : p.owner o = some t
  · have hAll := Set.encard_sdiff_singleton_add_one (show o ∈ {o' | p.owner o' = some t} from hOld)
    rw [p.counted t] at hAll
    obtain ⟨n, hn⟩ := Nat.exists_eq_add_of_le' (p.uses_pos hOld)
    rw [hn, Nat.cast_add, Nat.cast_one] at hAll
    rw [if_pos hOld, hn, Nat.add_sub_cancel]
    exact WithTop.add_right_cancel ENat.one_ne_top hAll
  · rw [Set.sdiff_singleton_eq_self (by simpa using hOld), p.counted t, if_neg hOld, Nat.sub_zero]

variable [DecidableEq T]

/-- The target whose count an assignment takes to zero. -/
def released (o : O) (x : Option T) : Option T :=
  (p.owner o).filter fun t => x ≠ some t ∧ p.uses t = 1

theorem released_eq_some (o : O) (x : Option T) : p.released o x = some t ↔
    p.owner o = some t ∧ x ≠ some t ∧ p.uses t = 1 := by
  simp [released, Option.filter_eq_some_iff]

variable [DecidableEq O]

theorem encard_update (o : O) (x : Option T) (t : T) :
    {o' | Function.update p.owner o x o' = some t}.encard =
      ((p.uses t + (if x = some t then 1 else 0) - (if p.owner o = some t then 1 else 0) : Nat) : ℕ∞) := by
  have hOthers := p.encard_others o t
  by_cases hNew : x = some t
  · have hSet : {o' | Function.update p.owner o x o' = some t} =
        insert o ({o' | p.owner o' = some t} \ {o}) := by
      ext o'
      by_cases h : o' = o <;> simp [h, hNew]
    rw [hSet, Set.encard_insert_of_notMem (by simp), hOthers, if_pos hNew]
    by_cases hOld : p.owner o = some t
    · have hPos := p.uses_pos hOld
      rw [if_pos hOld, Nat.add_sub_cancel]
      exact_mod_cast congrArg Nat.cast (Nat.sub_add_cancel hPos)
    · simp [hOld]
  · have hSet : {o' | Function.update p.owner o x o' = some t} =
        {o' | p.owner o' = some t} \ {o} := by
      ext o'
      by_cases h : o' = o <;> simp [h, hNew]
    rw [hSet, hOthers, if_neg hNew, Nat.add_zero]

/-- Assignment to an owner: one use more of the new target, one less of the old. -/
def assign (o : O) (x : Option T) : Pool O T where
  owner := Function.update p.owner o x
  uses t := p.uses t + (if x = some t then 1 else 0) - (if p.owner o = some t then 1 else 0)
  counted := p.encard_update o x

@[simp] theorem owner_assign (o : O) (x : Option T) :
    (p.assign o x).owner = Function.update p.owner o x := rfl

theorem uses_assign (o : O) (x : Option T) (t : T) : (p.assign o x).uses t =
    p.uses t + (if x = some t then 1 else 0) - (if p.owner o = some t then 1 else 0) := rfl

theorem uses_assign_other {o : O} {x : Option T} {t : T} (hNew : x ≠ some t)
    (hOld : p.owner o ≠ some t) : (p.assign o x).uses t = p.uses t := by
  simp [uses_assign, hNew, hOld]

theorem uses_assign_unused {o : O} {x : Option T} {t : T} (h : p.uses t = 0) (hNew : x ≠ some t) :
    (p.assign o x).uses t = 0 :=
  (p.uses_assign_other hNew (p.unowned h o)).trans h

theorem assign_owner (o : O) : p.assign o (p.owner o) = p := by
  have hOwner : (p.assign o (p.owner o)).owner = p.owner := Function.update_eq_self o p.owner
  have hUses : (p.assign o (p.owner o)).uses = p.uses := by
    funext t
    rw [uses_assign, Nat.add_sub_cancel]
  obtain ⟨owner, uses, _⟩ := p
  simp only [mk.injEq, assign] at hOwner hUses ⊢
  exact ⟨hOwner, hUses⟩

theorem released_iff (o : O) (x : Option T) : p.released o x = some t ↔
    p.uses t ≠ 0 ∧ (p.assign o x).uses t = 0 := by
  rw [released_eq_some, uses_assign]
  constructor
  · rintro ⟨hOwner, hOther, hUses⟩
    simp [hOwner, hOther, hUses]
  · rintro ⟨hUsed, hZero⟩
    by_cases hOwner : p.owner o = some t <;> by_cases hOther : x = some t <;>
      simp_all
    omega

end Pool

end SharedOwnership
