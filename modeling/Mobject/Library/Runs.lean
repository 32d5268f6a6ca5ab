import Mathlib.Data.List.Basic

/-! # Runs of a transition system

A run keeps every step it took. `exact_condition` is the rule for a property that holds
throughout a run exactly when no step of it is of a certain kind.
-/
namespace Runs
set_option autoImplicit false

variable {S L : Type}

structure Step (S L : Type) where
  before : S
  label : L
  after : S

/-- The steps of a run from `s₀`, in order, and the state it ends in. -/
inductive Run (next : S → L → S → Prop) (s₀ : S) : List (Step S L) → S → Prop
  | nil : Run next s₀ [] s₀
  | snoc {steps : List (Step S L)} {s t : S} {l : L} :
      Run next s₀ steps s → next s l t → Run next s₀ (steps ++ [⟨s, l, t⟩]) t

variable {next : S → L → S → Prop} {s₀ s : S} {steps : List (Step S L)}

theorem Run.invariant {I : S → Prop} (h : Run next s₀ steps s) (hInit : I s₀)
    (hStep : ∀ s l t, I s → next s l t → I t) : I s := by
  induction h with
  | nil => exact hInit
  | snoc _ hNext ih => exact hStep _ _ _ ih hNext

theorem Run.steps_invariant {I : S → Prop} (h : Run next s₀ steps s) (hInit : I s₀)
    (hStep : ∀ s l t, I s → next s l t → I t) :
    ∀ x ∈ steps, I x.before ∧ next x.before x.label x.after := by
  induction h with
  | nil => simp
  | snoc hBefore hNext ih =>
    intro x hMem
    rcases List.mem_append.mp hMem with hOld | hNew
    · exact ih x hOld
    · rw [List.mem_singleton.mp hNew]
      exact ⟨hBefore.invariant hInit hStep, hNext⟩

/-- A property that allowed steps keep, given an invariant that they keep too, and that every
other step breaks at once. -/
theorem Run.exact_condition {I : S → Prop} {G : S → L → S → Prop} {Allowed : S → L → Prop}
    (h : Run next s₀ steps s) (hInit : I s₀)
    (hKept : ∀ s l t, I s → next s l t → Allowed s l → I t ∧ G s l t)
    (hBroken : ∀ s l t, I s → next s l t → ¬ Allowed s l → ¬ G s l t) :
    (∀ x ∈ steps, G x.before x.label x.after) ↔ ∀ x ∈ steps, Allowed x.before x.label := by
  suffices hBoth : ((∀ x ∈ steps, G x.before x.label x.after) ↔
      ∀ x ∈ steps, Allowed x.before x.label) ∧
      ((∀ x ∈ steps, Allowed x.before x.label) → I s) from hBoth.1
  induction h with
  | nil => exact ⟨by simp, fun _ => hInit⟩
  | @snoc steps s t l _ hNext ih =>
    obtain ⟨ihG, ihInv⟩ := ih
    simp only [List.forall_mem_append, List.forall_mem_singleton]
    refine ⟨⟨?_, ?_⟩, ?_⟩
    · rintro ⟨hBefore, hLast⟩
      have hAllowed := ihG.mp hBefore
      exact ⟨hAllowed, by_contra fun hNot => hBroken s l t (ihInv hAllowed) hNext hNot hLast⟩
    · rintro ⟨hBefore, hLast⟩
      exact ⟨ihG.mpr hBefore, (hKept s l t (ihInv hBefore) hNext hLast).2⟩
    · rintro ⟨hBefore, hLast⟩
      exact (hKept s l t (ihInv hBefore) hNext hLast).1

end Runs
