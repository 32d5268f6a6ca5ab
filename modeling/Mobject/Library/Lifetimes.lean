import Mathlib.Data.List.Induction
import Mathlib.Data.List.Pairwise
import Mathlib.Data.Set.Basic

/-! # Lifetimes in a history of events

A key enters a set at some events and leaves it at others. If no key ever enters twice and
some kind of event only names keys that are in the set, then nothing of that kind names a key
after it has left.
-/
namespace Lifetimes
set_option autoImplicit false

variable {E K : Type}

/-- To compare each event of a history with every later one, look back from each event. -/
theorem pairwise_of_split {R : E → E → Prop} {log : List E}
    (h : ∀ pre e post, log = pre ++ e :: post → ∀ a ∈ pre, R a e) : log.Pairwise R := by
  induction log using List.reverseRecOn with
  | nil => exact .nil
  | append_singleton log e ih =>
    refine List.pairwise_append.mpr ⟨ih fun pre e' post hLog => ?_, List.pairwise_singleton _ _, ?_⟩
    · exact h pre e' (post ++ [e]) (by simp [hLog])
    · intro a hMem b hLast
      rw [List.mem_singleton.mp hLast]
      exact h log e [] rfl a hMem

theorem Pairwise.of_split {R : E → E → Prop} {log pre post : List E} {a e : E}
    (h : log.Pairwise R) (hLog : log = pre ++ e :: post) (hMem : a ∈ pre) : R a e := by
  subst hLog
  exact (List.pairwise_append.mp h).2.2 a hMem e List.mem_cons_self

/-- Each event of a history stands in `P` to the events before it. -/
def Throughout (P : List E → E → Prop) (log : List E) : Prop :=
  ∀ pre e post, log = pre ++ e :: post → P pre e

theorem throughout_nil (P : List E → E → Prop) : Throughout P [] := by
  intro pre e post hLog
  simp at hLog

theorem throughout_concat (P : List E → E → Prop) (log : List E) (e : E) :
    Throughout P (log ++ [e]) ↔ Throughout P log ∧ P log e := by
  constructor
  · exact fun h => ⟨fun pre e' post hLog => h pre e' (post ++ [e]) (by simp [hLog]), h log e [] rfl⟩
  · rintro ⟨hBefore, hLast⟩ pre e' post hLog
    rcases List.eq_nil_or_concat post with rfl | ⟨post, e'', rfl⟩
    · obtain ⟨rfl, hSame⟩ := List.append_inj' hLog rfl
      exact (List.cons.inj hSame).1 ▸ hLast
    · rw [List.concat_eq_append, ← List.cons_append, ← List.append_assoc] at hLog
      exact hBefore pre e' post (List.append_inj' hLog rfl).1

theorem throughout_append {P : List E → E → Prop} (log : List E) {new : List E}
    (hNew : ∀ e ∈ new, ∀ pre, P pre e) : Throughout P (log ++ new) ↔ Throughout P log := by
  induction new using List.reverseRecOn with
  | nil => rw [List.append_nil]
  | append_singleton new e ih =>
    rw [← List.append_assoc, throughout_concat, ih fun e' hMem => hNew e' (List.mem_append_left _ hMem)]
    exact and_iff_left (hNew e (by simp) _)

variable (enters leaves : E → Option K)

/-- The keys that have entered and not left since. -/
def live (log : List E) : Set K :=
  log.foldl (fun keys e => {k | enters e = some k ∨ k ∈ keys ∧ leaves e ≠ some k}) ∅

@[simp] theorem live_nil : live enters leaves [] = ∅ := rfl

@[simp] theorem mem_live_concat (log : List E) (e : E) (k : K) :
    k ∈ live enters leaves (log ++ [e]) ↔
      enters e = some k ∨ k ∈ live enters leaves log ∧ leaves e ≠ some k := by
  simp [live]

variable {enters leaves}

theorem exists_enters_of_live {log : List E} {k : K} (h : k ∈ live enters leaves log) :
    ∃ e ∈ log, enters e = some k := by
  induction log using List.reverseRecOn with
  | nil => cases h
  | append_singleton log e ih =>
    rcases (mem_live_concat enters leaves log e k).mp h with hEnter | ⟨hLive, _⟩
    · exact ⟨e, by simp, hEnter⟩
    · obtain ⟨e', hMem, hEnter⟩ := ih hLive
      exact ⟨e', List.mem_append_left _ hMem, hEnter⟩

theorem live_of_enters {pre mid : List E} {e : E} {k : K} (hEnter : enters e = some k)
    (hStay : ∀ e' ∈ mid, leaves e' ≠ some k) : k ∈ live enters leaves (pre ++ e :: mid) := by
  induction mid using List.reverseRecOn with
  | nil => simp [hEnter]
  | append_singleton mid e' ih =>
    have hLive := ih fun a hMem => hStay a (List.mem_append_left _ hMem)
    rw [← List.cons_append, ← List.append_assoc, mem_live_concat]
    exact .inr ⟨hLive, hStay e' (by simp)⟩

def EntersOnce (enters : E → Option K) (log : List E) : Prop :=
  ∀ k, log.Pairwise fun e e' => ¬ (enters e = some k ∧ enters e' = some k)

theorem entersOnce_iff (log : List E) : EntersOnce enters log ↔ (log.filterMap enters).Nodup := by
  induction log with
  | nil => simp [EntersOnce]
  | cons e log ih =>
    have hSplit : EntersOnce enters (e :: log) ↔
        (∀ k, enters e = some k → ∀ a ∈ log, enters a ≠ some k) ∧ EntersOnce enters log := by
      simp only [EntersOnce, List.pairwise_cons, forall_and]
      exact and_congr_left fun _ => ⟨fun h k hk a ha hak => h k a ha ⟨hk, hak⟩,
        fun h k a ha hBoth => h k hBoth.1 a ha hBoth.2⟩
    rw [hSplit, ih]
    cases hEnter : enters e with
    | none => simp [hEnter]
    | some k => simp [hEnter]

instance [DecidableEq K] (log : List E) : Decidable (EntersOnce enters log) :=
  decidable_of_iff _ (entersOnce_iff log).symm

theorem EntersOnce.eq {log : List E} (h : EntersOnce enters log) {a b : E} {k : K} (ha : a ∈ log)
    (hb : b ∈ log) (hEnterA : enters a = some k) (hEnterB : enters b = some k) : a = b := by
  by_contra hNe
  have hSymm : Std.Symm fun e e' => ¬ (enters e = some k ∧ enters e' = some k) :=
    ⟨fun _ _ hNot hBoth => hNot hBoth.symm⟩
  exact (h k).forall ha hb hNe ⟨hEnterA, hEnterB⟩

/-- Participants pass keys on: if no two get the same key, and each passes a key on only after
getting it and at most once, no key is passed on twice. -/
theorem EntersOnce.passed_on {ι : Type} {source sink : E → Option K} {log : List (ι × E)}
    (hSource : EntersOnce (fun e => source e.2) log)
    (hSink : ∀ pre i e post k, log = pre ++ (i, e) :: post → sink e = some k →
      (∃ e', (i, e') ∈ pre ∧ source e' = some k) ∧ ∀ e', (i, e') ∈ pre → sink e' ≠ some k) :
    EntersOnce (fun e => sink e.2) log := by
  refine fun k => pairwise_of_split fun pre e post hLog a hMem => ?_
  rintro ⟨hFirst, hSecond⟩
  obtain ⟨⟨e₂, hMem₂, hGot₂⟩, hNone⟩ := hSink pre e.1 e.2 post k hLog hSecond
  obtain ⟨pre₁, mid, hPre⟩ := List.append_of_mem hMem
  obtain ⟨⟨e₁, hMem₁, hGot₁⟩, _⟩ :=
    hSink pre₁ a.1 a.2 (mid ++ e :: post) k (by simp [hLog, hPre]) hFirst
  have hMem₁' : (a.1, e₁) ∈ pre := hPre ▸ List.mem_append_left _ hMem₁
  have hSame : (a.1, e₁) = (e.1, e₂) := hSource.eq (hLog ▸ List.mem_append_left _ hMem₁')
    (hLog ▸ List.mem_append_left _ hMem₂) hGot₁ hGot₂
  exact hNone a.2 ((Prod.mk.inj hSame).1 ▸ hMem) hFirst

/-- An event at which `needs` names a key finds that key in the set. -/
def NeedsLive (enters leaves needs : E → Option K) (log : List E) : Prop :=
  ∀ pre e post k, log = pre ++ e :: post → needs e = some k → k ∈ live enters leaves pre

theorem not_live_of_left {log : List E} {k : K} (hOnce : EntersOnce enters log)
    (hLeaves : NeedsLive enters leaves leaves log) (pre mid post : List E) (e : E)
    (hLog : log = pre ++ e :: (mid ++ post)) (hLeft : leaves e = some k) :
    k ∉ live enters leaves (pre ++ e :: mid) := by
  obtain ⟨a, hMem, hEnter⟩ := exists_enters_of_live (hLeaves pre e (mid ++ post) k hLog hLeft)
  induction mid using List.reverseRecOn generalizing post with
  | nil =>
    have hNot := Pairwise.of_split (hOnce k) hLog hMem
    rw [mem_live_concat]
    rintro (hAgain | ⟨_, hStay⟩)
    · exact hNot ⟨hEnter, hAgain⟩
    · exact hStay hLeft
  | append_singleton mid e' ih =>
    have hSplit : log = (pre ++ e :: mid) ++ e' :: post := by simp [hLog]
    have hNot := Pairwise.of_split (hOnce k) hSplit (List.mem_append_left _ hMem)
    rw [← List.cons_append, ← List.append_assoc, mem_live_concat]
    -- back in the set means entering a second time
    rintro (hAgain | ⟨hLive, _⟩)
    · exact hNot ⟨hEnter, hAgain⟩
    · exact ih (e' :: post) (by simp [hLog]) hLive

/-- Nothing that needs a key names it after the key has left. -/
theorem not_needed_after_left {needs : E → Option K} {log : List E} (hOnce : EntersOnce enters log)
    (hLeaves : NeedsLive enters leaves leaves log) (hNeeds : NeedsLive enters leaves needs log)
    (k : K) : log.Pairwise fun e e' => ¬ (leaves e = some k ∧ needs e' = some k) := by
  apply pairwise_of_split
  intro before e' post hLog a hMem
  rintro ⟨hLeft, hNeed⟩
  obtain ⟨pre, mid, rfl⟩ := List.append_of_mem hMem
  exact not_live_of_left hOnce hLeaves pre mid (e' :: post) a (by simp [hLog]) hLeft
    (hNeeds _ e' post k hLog hNeed)

end Lifetimes
