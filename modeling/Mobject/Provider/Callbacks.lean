import Mobject.Provider
import Mobject.Library.Runs
import Mathlib.Data.List.Nodup

/-! # The finalize callbacks match the live providers

As long as no `Provider` is moved, the callbacks are one for each valid `Provider`, and
finalization resets each of them. A move leaves the callback of the source behind.
-/
namespace Mobject
open Runs
set_option autoImplicit false

/-- The callbacks are one for each live `Provider` whose `self` is not null, under its address. -/
structure Matched (s : Process) : Prop where
  once : (s.callbacks.map FinalizeCallback.owner).Nodup
  mem : ∀ callback, callback ∈ s.callbacks ↔ callback.owner = callback.p ∧
    ∃ object, s.objects callback.p = some object ∧ object.serial = callback.serial ∧
      object.self ≠ none

/-- What is expected of a step: nothing null or destroyed is dereferenced, the callbacks match until
the engine is finalized, and finalization resets every `Provider`. -/
structure StepsWell (s : Process) (op : ProviderOperation) (t : Process) : Prop where
  noFault : t.fault = none
  matched : t.finalized = false → Matched t
  reset : op = .finalize → ∀ this object, s.objects this = some object →
    t.objects this = some { object with self := none }

/-- The condition: nothing is moved before finalization, and no null `self` is moved after it. -/
def MovesLate (s : Process) : ProviderOperation → Prop
  | .moveConstruct _ other =>
    s.finalized = true ∧ ∀ object, s.objects other = some object → object.self ≠ none
  | _ => True

variable {s t : Process}

theorem start_matched : Matched .start := ⟨List.nodup_nil, by simp [Process.start]⟩

theorem eraseP_eq_filter {callbacks : List FinalizeCallback}
    (h : (callbacks.map FinalizeCallback.owner).Nodup) (owner : Address) :
    (callbacks.eraseP fun callback => callback.owner = owner) =
      callbacks.filter fun callback => callback.owner ≠ owner := by
  induction callbacks with
  | nil => rfl
  | cons callback callbacks ih =>
    obtain ⟨hFirst, hRest⟩ := List.nodup_cons.mp h
    by_cases hOwner : callback.owner = owner
    · have hNone : ∀ c ∈ callbacks, c.owner ≠ owner := fun c hMem hc =>
        hFirst (List.mem_map.mpr ⟨c, hMem, hc.trans hOwner.symm⟩)
      rw [List.eraseP_cons_of_pos (by simpa using hOwner), List.filter_cons_of_neg (by simpa using hOwner)]
      exact (List.filter_eq_self.mpr fun c hMem => by simpa using hNone c hMem).symm
    · rw [List.eraseP_cons_of_neg (by simpa using hOwner), List.filter_cons_of_pos (by simpa using hOwner),
        ih hRest]

theorem Matched.construct (h : Matched s) {this : Address} (provider_id : UInt16)
    (hFree : s.objects this = none) : Matched (s.construct this provider_id) := by
  have hOther : ∀ callback ∈ s.callbacks, callback.p ≠ this := by
    rintro callback hMem rfl
    obtain ⟨_, object, hObject, _⟩ := (h.mem callback).mp hMem
    rw [hFree] at hObject
    cases hObject
  constructor
  · refine List.nodup_cons.mpr ⟨fun hMem => ?_, h.once⟩
    obtain ⟨callback, hMem, hOwner⟩ := List.mem_map.mp hMem
    exact hOther callback hMem (((h.mem callback).mp hMem).1.symm.trans hOwner)
  · intro callback
    simp only [Process.construct, Process.callbacks_push, Process.callbacks_set,
      Process.objects_push, Process.objects_set, List.mem_cons]
    by_cases hp : callback.p = this
    · have hOld : callback ∉ s.callbacks := fun hMem => hOther callback hMem hp
      obtain ⟨owner, p, serial⟩ := callback
      obtain rfl : p = this := hp
      simp [hOld, eq_comm]
    · rw [Function.update_of_ne hp, ← h.mem]
      exact or_iff_right fun hNew => hp (hNew ▸ rfl)

theorem Matched.destroy (h : Matched s) {this : Address} {object : ProviderObject}
    (hObject : s.objects this = some object) : Matched (s.destroy this object) := by
  unfold Process.destroy
  split
  · have hCallbacks : ((s.pop_finalize_callback this).set this none).callbacks =
        s.callbacks.filter fun callback => callback.owner ≠ this := eraseP_eq_filter h.once this
    constructor
    · rw [hCallbacks]
      exact h.once.sublist (List.filter_sublist.map _)
    · intro callback
      rw [hCallbacks, List.mem_filter, h.mem]
      rw [Process.objects_set, Process.objects_pop]
      by_cases hp : callback.p = this
      · simp only [hp, Function.update_self]
        simp_all
      · rw [Function.update_of_ne hp]
        refine and_iff_left_of_imp fun ⟨hOwner, _⟩ => ?_
        simpa [hOwner] using hp
  · next hNull =>
    constructor
    · exact h.once
    · intro callback
      rw [Process.callbacks_set, Process.objects_set, h.mem]
      by_cases hp : callback.p = this
      · simp only [hp, hObject, Function.update_self]
        simp_all
      · rw [Function.update_of_ne hp]

def Process.resetAll (s : Process) (addresses : List Address) : Process :=
  { s with objects := fun this => (s.objects this).map fun object =>
      if this ∈ addresses then { object with self := none } else object }

theorem foldl_runCallback (callbacks : List FinalizeCallback) (s : Process)
    (h : ∀ callback ∈ callbacks, ∃ object, s.objects callback.p = some object ∧
      object.serial = callback.serial) :
    callbacks.foldl Process.runCallback s = s.resetAll (callbacks.map FinalizeCallback.p) := by
  induction callbacks generalizing s with
  | nil => simp [Process.resetAll]
  | cons callback callbacks ih =>
    obtain ⟨object, hObject, hSerial⟩ := h callback List.mem_cons_self
    have hRun : s.runCallback callback =
        s.set callback.p (some { object with self := none }) := by
      simp [Process.runCallback, hObject, hSerial]
    rw [List.foldl_cons, hRun, ih]
    · simp only [Process.resetAll, Process.set, List.map_cons, List.mem_cons]
      congr 1
      funext this
      by_cases hp : this = callback.p
      · subst hp
        simp [hObject]
      · simp [hp]
    · intro c hMem
      obtain ⟨object', hObject', hSerial'⟩ := h c (List.mem_cons_of_mem _ hMem)
      by_cases hp : c.p = callback.p
      · rw [hp, hObject] at hObject'
        obtain rfl := Option.some.inj hObject'
        exact ⟨{ object with self := none }, by simp [Process.set, hp], hSerial'⟩
      · exact ⟨object', by rwa [Process.objects_set, Function.update_of_ne hp], hSerial'⟩

namespace Process

theorem objects_destroy (s : Process) (this : Address) (object : ProviderObject) :
    (s.destroy this object).objects = Function.update s.objects this none := by
  unfold destroy
  split <;> rfl

theorem objects_runCallback (s : Process) (callback : FinalizeCallback) (p : Address) :
    (s.runCallback callback).objects p = (s.objects p).map fun object =>
      if callback.p = p ∧ object.serial = callback.serial then { object with self := none }
      else object := by
  unfold runCallback
  by_cases hp : callback.p = p
  · subst hp
    cases hObject : s.objects callback.p with
    | none => simp [hObject]
    | some object => by_cases hSerial : object.serial = callback.serial <;> simp [hObject, hSerial]
  · simp only [hp, false_and, ↓reduceIte, Option.map_id']
    split
    · split
      · rw [objects_set, Function.update_of_ne (Ne.symm hp)]
      · rfl
    · rfl

/-- A callback resets the object that it was registered for, and no other. -/
theorem objects_foldl_runCallback (callbacks : List FinalizeCallback) (s : Process) (p : Address) :
    (callbacks.foldl runCallback s).objects p = (s.objects p).map fun object =>
      if ∃ callback ∈ callbacks, callback.p = p ∧ object.serial = callback.serial then
        { object with self := none } else object := by
  induction callbacks generalizing s with
  | nil => simp
  | cons callback callbacks ih =>
    rw [List.foldl_cons, ih, objects_runCallback, Option.map_map]
    congr 1
    funext object
    by_cases hFirst : callback.p = p ∧ object.serial = callback.serial <;> simp [hFirst]

end Process

theorem Matched.finalize (h : Matched s) (hFault : s.fault = none) :
    s.finalize.fault = none ∧ ∀ this object, s.objects this = some object →
      s.finalize.objects this = some { object with self := none } := by
  have hAll := foldl_runCallback s.callbacks s fun callback hMem => by
    obtain ⟨_, object, hObject, hSerial, _⟩ := (h.mem callback).mp hMem
    exact ⟨object, hObject, hSerial⟩
  unfold Process.finalize
  rw [hAll]
  refine ⟨hFault, fun this object hObject => ?_⟩
  simp only [Process.resetAll, hObject, Option.map_some, Option.some.injEq]
  split
  · rfl
  · next hNone =>
    -- an object without a callback is not valid
    by_contra hValid
    refine hNone (List.mem_map.mpr ⟨⟨this, this, object.serial⟩, (h.mem _).mpr ⟨rfl, object, hObject, rfl,
      fun hSelf => hValid ?_⟩, rfl⟩)
    rw [← hSelf]

theorem ProviderStep.stepsWell {op : ProviderOperation} (hMatched : s.finalized = false → Matched s)
    (hStep : ProviderStep s op t) (hLate : MovesLate s op) : StepsWell s op t := by
  cases hStep with
  | construct this provider_id hFault hFree =>
    exact ⟨hFault, fun hLive => (hMatched hLive).construct provider_id hFree, by simp⟩
  | moveConstruct this other object hFault hFree hObject =>
    obtain ⟨hFinalized, hValid⟩ := hLate
    cases hSelf : object.self with
    | none => exact absurd hSelf (hValid object hObject)
    | some impl =>
      refine ⟨?_, fun hLive => ?_, by simp⟩
      · simpa [Process.moveConstruct, hSelf] using hFault
      · have hStill : (s.moveConstruct this other object).finalized = s.finalized := by
          simp [Process.moveConstruct, hSelf]
        rw [hStill, hFinalized] at hLive
        cases hLive
  | destroy this object hFault hObject =>
    have hFields : (s.destroy this object).fault = s.fault ∧
        (s.destroy this object).finalized = s.finalized := by
      unfold Process.destroy
      split <;> exact ⟨rfl, rfl⟩
    exact ⟨hFields.1.trans hFault, fun hLive => (hMatched (hFields.2 ▸ hLive)).destroy hObject, by simp⟩
  | finalize hFault hLive =>
    obtain ⟨hNoFault, hReset⟩ := (hMatched hLive).finalize hFault
    refine ⟨hNoFault, fun h => ?_, fun _ => hReset⟩
    cases h

/-- A move before finalization leaves a callback of the source behind; one from a null `self`
dereferences it. -/
theorem ProviderStep.not_stepsWell {op : ProviderOperation}
    (hMatched : s.finalized = false → Matched s) (hStep : ProviderStep s op t)
    (hEarly : ¬ MovesLate s op) : ¬ StepsWell s op t := by
  intro hWell
  cases hStep with
  | construct | destroy | finalize => exact hEarly trivial
  | moveConstruct this other object hFault hFree hObject =>
    cases hSelf : object.self with
    | none => simpa [Process.moveConstruct, hSelf] using hWell.noFault
    | some impl =>
      have hLive : s.finalized = false := by
        by_contra hFinalized
        refine hEarly ⟨by simpa using hFinalized, fun object' hObject' => ?_⟩
        rw [hObject] at hObject'
        simp [← Option.some.inj hObject', hSelf]
      have hNe : other ≠ this := by
        rintro rfl
        rw [hFree] at hObject
        cases hObject
      have hLeft : ⟨other, other, object.serial⟩ ∈ s.callbacks :=
        ((hMatched hLive).mem _).mpr ⟨rfl, object, hObject, rfl, by simp [hSelf]⟩
      have hStill : ⟨other, other, object.serial⟩ ∈ (s.moveConstruct this other object).callbacks := by
        simp only [Process.moveConstruct, hSelf, Process.callbacks_push, Process.callbacks_set,
          Process.callbacks_pop]
        refine List.mem_cons_of_mem _ ((List.mem_eraseP_of_neg ?_).mpr hLeft)
        simpa using hNe
      have hAfter : (s.moveConstruct this other object).finalized = false := by
        simpa [Process.moveConstruct, hSelf] using hLive
      have hSource : (s.moveConstruct this other object).objects other =
          some { object with self := none } := by
        simp [Process.moveConstruct, hSelf]
      obtain ⟨_, emptied, hEmptied, _, hValid⟩ := ((hWell.matched hAfter).mem _).mp hStill
      rw [hSource] at hEmptied
      rw [← Option.some.inj hEmptied] at hValid
      exact hValid rfl

/-- The callbacks match the live providers throughout a run, finalization resets all of them and
nothing null or destroyed is dereferenced, exactly as long as no `Provider` is moved before
finalization and no null `self` after it. -/
theorem callbacks_match_iff {steps : List (Step Process ProviderOperation)}
    (hRun : Run ProviderStep .start steps s) :
    (∀ x ∈ steps, StepsWell x.before x.label x.after) ↔ ∀ x ∈ steps, MovesLate x.before x.label := by
  refine hRun.exact_condition (I := fun s => s.finalized = false → Matched s) (G := StepsWell)
    (fun _ => start_matched) ?_ ?_
  · intro s op t hMatched hStep hLate
    have hWell := hStep.stepsWell hMatched hLate
    exact ⟨hWell.matched, hWell⟩
  · exact fun s op t hMatched hStep hEarly => hStep.not_stepsWell hMatched hEarly

theorem one_provider_well :
    StepsWell .start (.construct 0 7) (Process.start.construct 0 7) ∧
      StepsWell (Process.start.construct 0 7) .finalize
        (Process.start.construct 0 7).finalize := by
  have hConstruct : ProviderStep .start (.construct 0 7) (Process.start.construct 0 7) :=
    .construct 0 7 rfl rfl
  have hRun := Run.snoc (.snoc .nil hConstruct) (.finalize rfl rfl)
  have hWell := (callbacks_match_iff hRun).mpr fun x hMem => by
    rcases List.mem_append.mp hMem with hFirst | hSecond
    · rw [List.mem_singleton.mp hFirst]
      exact trivial
    · rw [List.mem_singleton.mp hSecond]
      exact trivial
  exact ⟨hWell _ (List.mem_append_left _ (List.mem_singleton_self _)),
    hWell _ (List.mem_append_right _ (List.mem_singleton_self _))⟩

/-- A `std::vector<Provider>` grows: its provider is constructed in the old storage, moved to the
new, and the old object is destroyed. -/
def grownVector : Process :=
  ((Process.start.construct 0 7).moveConstruct 1 0 ⟨0, some 7⟩).destroy 0 ⟨0, none⟩

theorem grown_vector_dangles :
    (∃ steps, Run ProviderStep .start steps grownVector) ∧ ¬ Matched grownVector ∧
      ProviderStep grownVector .finalize grownVector.finalize ∧
      grownVector.finalize.fault = some .danglingCallback := by
  refine ⟨⟨_, .snoc (.snoc (.snoc .nil (.construct 0 7 rfl rfl)) (.moveConstruct 1 0 _ rfl rfl rfl))
    (.destroy 0 _ rfl rfl)⟩, fun hMatched => ?_, .finalize rfl rfl, rfl⟩
  obtain ⟨_, object, hObject, _⟩ := (hMatched.mem ⟨0, 0, 0⟩).mp (by decide)
  cases hObject

end Mobject
