import Mathlib.Data.List.Induction
import Mathlib.Logic.Function.Basic
import Mobject.DummyBackend

/-! # Backend registration

`Backend.hpp` and `Backend.cpp`: the two maps of `SequencerFactory` are constructed by the
initialisers of one translation unit and filled by those of others. Inside a unit the language
fixes the order of initialisers, between units it does not.
-/
namespace Mobject
set_option autoImplicit false

variable {BackendType Json : Type}

/-- The static members of `SequencerFactory` while a program starts; `none` is not constructed. -/
structure Statics (BackendType : Type) where
  create_fn : Option (String → Option BackendType) := none
  open_fn : Option (String → Option BackendType) := none

inductive Initialiser (BackendType : Type) where
  | create_fn
  | open_fn
  /-- `MOBJECT_REGISTER_BACKEND(backend_name, backend_type)` -/
  | registration (backend_name : String) (backend_type : BackendType)

namespace Initialiser

/-- One dynamic initialiser; `none` is an access to a map that is not constructed. -/
def run (s : Statics BackendType) : Initialiser BackendType → Option (Statics BackendType)
  | create_fn => some { s with create_fn := some fun _ => none }
  | open_fn => some { s with open_fn := some fun _ => none }
  -- the constructor of `__MobjectBackendRegistration`
  | registration backend_name backend_type => do
    let create_fn ← s.create_fn
    let s := { s with
      create_fn := some (Function.update create_fn backend_name (some backend_type)) }
    let open_fn ← s.open_fn
    return { s with open_fn := some (Function.update open_fn backend_name (some backend_type)) }

end Initialiser

open Initialiser (registration)

def initialise (order : List (Initialiser BackendType)) : Option (Statics BackendType) :=
  order.foldlM Initialiser.run {}

/-- `Backend.cpp`. -/
def backendUnit : List (Initialiser BackendType) := [.create_fn, .open_fn]

/-- A translation unit with these registrations. -/
def registrationUnit (registrations : List (String × BackendType)) : List (Initialiser BackendType) :=
  registrations.map fun r => registration r.1 r.2

/-- The orders in which the initialisers of `Backend.cpp` and of these other units can run. -/
def Permitted (units : List (List (String × BackendType))) (order : List (Initialiser BackendType)) :
    Prop :=
  ∃ sequence : List (List (Initialiser BackendType)),
    sequence.Perm (backendUnit :: units.map registrationUnit) ∧ order = sequence.flatten

def SequencerFactory.statics (factory : SequencerFactory BackendType) : Statics BackendType :=
  ⟨some factory.create_fn, some factory.open_fn⟩

theorem SequencerFactory.statics_injective :
    Function.Injective (@SequencerFactory.statics BackendType) := by
  rintro ⟨create_fn, open_fn⟩ ⟨create_fn', open_fn'⟩ hStatics
  cases hStatics
  rfl

/-- The factory finds what was registered, and under each name what was registered last. -/
structure FindsRegistered (factory : SequencerFactory BackendType)
    (order : List (Initialiser BackendType)) : Prop where
  keys : ∀ map backend_name,
    (factory.fn map backend_name).isSome = true ↔ ∃ type, registration backend_name type ∈ order
  unknown : ∀ map backend_name, (∀ type, registration backend_name type ∉ order) →
    ∀ (Json : Type) (config : Json) (world : Outcomes BackendType Json),
      factory.sequencer map backend_name config world = .nullptr
  last : ∀ pre backend_name type post, order = pre ++ registration backend_name type :: post →
    (∀ type', registration backend_name type' ∉ post) →
    ∀ map (Json : Type) (config : Json) (world : Outcomes BackendType Json),
      factory.sequencer map backend_name config world = world.invoke map type config

/-- The condition under which it does not matter how the units are ordered: no registration runs
before `open_fn` is constructed, which is constructed second. -/
def RegistersLater (order : List (Initialiser BackendType)) : Prop :=
  ∀ pre post, order = pre ++ .open_fn :: post → ∀ backend_name type,
    registration backend_name type ∉ pre

def registeredFactory (registrations : List (String × BackendType)) : SequencerFactory BackendType where
  create_fn backend_name := registrations.reverse.lookup backend_name
  open_fn backend_name := registrations.reverse.lookup backend_name

theorem fn_registeredFactory (registrations : List (String × BackendType)) (map : FactoryMap) :
    (registeredFactory registrations).fn map = fun name => registrations.reverse.lookup name := by
  cases map <;> rfl

theorem update_lookup (l : List (String × BackendType)) (backend_name : String) (type : BackendType) :
    Function.update (fun name => l.lookup name) backend_name (some type) =
      fun name => ((backend_name, type) :: l).lookup name := by
  funext name
  by_cases hName : name = backend_name
  · subst hName
    simp
  · have hBeq : (name == backend_name) = false := beq_eq_false_iff_ne.mpr hName
    rw [Function.update_of_ne hName, List.lookup_cons, hBeq]

theorem initialise_registrations (registrations : List (String × BackendType)) :
    initialise (backendUnit ++ registrationUnit registrations) =
      some (registeredFactory registrations).statics := by
  induction registrations using List.reverseRecOn with
  | nil => rfl
  | append_singleton registrations r ih =>
    obtain ⟨backend_name, type⟩ := r
    rw [registrationUnit, List.map_append, ← List.append_assoc, initialise, List.foldlM_append]
    rw [initialise, registrationUnit] at ih
    rw [ih]
    simp only [registeredFactory, List.reverse_append, List.reverse_singleton, List.singleton_append]
    rw [← update_lookup]
    rfl

theorem Permitted.split {units : List (List (String × BackendType))}
    {order : List (Initialiser BackendType)} (h : Permitted units order) :
    ∃ early late, order = registrationUnit early ++ (backendUnit ++ registrationUnit late) := by
  obtain ⟨sequence, hPerm, rfl⟩ := h
  obtain ⟨before, after, rfl⟩ := List.append_of_mem (hPerm.mem_iff.mpr List.mem_cons_self)
  have hOthers : (before ++ after).Perm (units.map registrationUnit) :=
    (List.perm_cons backendUnit).mp (List.perm_middle.symm.trans hPerm)
  have hUnits : ∀ part : List (List (Initialiser BackendType)), part ⊆ before ++ after →
      ∃ registrations, part.flatten = registrationUnit registrations := by
    intro part hPart
    induction part with
    | nil => exact ⟨[], rfl⟩
    | cons unit part ih =>
      obtain ⟨registrations, hRest⟩ := ih fun u hMem => hPart (List.mem_cons_of_mem _ hMem)
      obtain ⟨first, _, hFirst⟩ :=
        List.mem_map.mp (hOthers.subset (hPart List.mem_cons_self))
      refine ⟨first ++ registrations, ?_⟩
      rw [List.flatten_cons, hRest, ← hFirst, registrationUnit, registrationUnit, registrationUnit,
        List.map_append]
  obtain ⟨early, hEarly⟩ := hUnits before (List.subset_append_left before after)
  obtain ⟨late, hLate⟩ := hUnits after (List.subset_append_right before after)
  exact ⟨early, late, by rw [List.flatten_append, List.flatten_cons, hEarly, hLate]⟩

def Initialiser.registered : Initialiser BackendType → Option (String × BackendType)
  | registration backend_name backend_type => some (backend_name, backend_type)
  | _ => none

theorem registered_eq_some {i : Initialiser BackendType} {r : String × BackendType} :
    i.registered = some r ↔ i = registration r.1 r.2 := by
  cases i with
  | registration backend_name type => simp [Initialiser.registered, Prod.ext_iff]
  | create_fn | open_fn => simp [Initialiser.registered]

theorem registered_registrationUnit (registrations : List (String × BackendType)) :
    (registrationUnit registrations).filterMap Initialiser.registered = registrations := by
  rw [registrationUnit, List.filterMap_map]
  exact List.filterMap_some

theorem registered_started (registrations : List (String × BackendType)) :
    (backendUnit ++ registrationUnit registrations).filterMap Initialiser.registered = registrations := by
  rw [List.filterMap_append, registered_registrationUnit]
  rfl

theorem mem_registered (order : List (Initialiser BackendType)) (r : String × BackendType) :
    r ∈ order.filterMap Initialiser.registered ↔ registration r.1 r.2 ∈ order := by
  simp [List.mem_filterMap, registered_eq_some]

theorem lookup_isSome_iff (registrations : List (String × BackendType)) (backend_name : String) :
    (registrations.reverse.lookup backend_name).isSome = true ↔
      ∃ type, (backend_name, type) ∈ registrations := by
  rw [List.lookup_isSome_iff]
  constructor
  · rintro ⟨⟨name, type⟩, hMem, hName⟩
    obtain rfl : backend_name = name := by simpa using hName
    exact ⟨type, by simpa using hMem⟩
  · rintro ⟨type, hMem⟩
    exact ⟨(backend_name, type), by simpa using hMem, by simp⟩

theorem findsRegistered_started (registrations : List (String × BackendType)) :
    FindsRegistered (registeredFactory registrations)
      (backendUnit ++ registrationUnit registrations) := by
  have hMem : ∀ backend_name type, (backend_name, type) ∈ registrations ↔
      registration backend_name type ∈ backendUnit ++ registrationUnit registrations := by
    intro backend_name type
    rw [← mem_registered _ (backend_name, type), registered_started]
  have hKeys : ∀ map backend_name, ((registeredFactory registrations).fn map backend_name).isSome = true ↔
      ∃ type, registration backend_name type ∈ backendUnit ++ registrationUnit registrations := by
    intro map backend_name
    rw [fn_registeredFactory, lookup_isSome_iff]
    exact exists_congr (hMem backend_name)
  refine ⟨hKeys, ?_, ?_⟩
  · intro map backend_name hNone Json config world
    have hMissing : (registeredFactory registrations).fn map backend_name = none := by
      rw [← Option.not_isSome_iff_eq_none, hKeys]
      rintro ⟨type, hRegistered⟩
      exact hNone type hRegistered
    rw [SequencerFactory.sequencer, hMissing]
  · intro pre backend_name type post hOrder hLast map Json config world
    have hSplit : registrations = pre.filterMap Initialiser.registered ++
        (backend_name, type) :: post.filterMap Initialiser.registered := by
      rw [← registered_started registrations, hOrder, List.filterMap_append]
      rfl
    have hFound : (registeredFactory registrations).fn map backend_name = some type := by
      rw [fn_registeredFactory]
      refine List.lookup_eq_some_iff.mpr ⟨(post.filterMap Initialiser.registered).reverse,
        (pre.filterMap Initialiser.registered).reverse, ?_, ?_⟩
      · rw [hSplit]
        simp
      · rintro ⟨name, other⟩ hPost
        rw [List.mem_reverse, mem_registered] at hPost
        simp only [bne_iff_ne]
        rintro rfl
        exact hLast other hPost
    rw [SequencerFactory.sequencer, hFound]

theorem initialise_early (r : String × BackendType) (registrations : List (String × BackendType))
    (later : List (Initialiser BackendType)) :
    initialise (registrationUnit (r :: registrations) ++ later) = none := rfl

theorem registersLater_started (registrations : List (String × BackendType)) :
    RegistersLater (backendUnit ++ registrationUnit registrations) := by
  intro pre post hOrder backend_name type hMem
  match pre, hOrder with
  | [], hOrder => cases hMem
  | [first], hOrder =>
    obtain ⟨rfl, _⟩ := List.cons.inj hOrder
    simp at hMem
  | first :: second :: pre, hOrder =>
    have hRest : registrationUnit registrations = pre ++ .open_fn :: post :=
      (List.cons.inj (List.cons.inj hOrder).2).2
    have hOpen : Initialiser.open_fn ∈ registrationUnit registrations :=
      hRest ▸ List.mem_append_right _ List.mem_cons_self
    simp [registrationUnit] at hOpen

/-- Registration works in exactly those orders in which no registration comes first: the maps are
constructed by initialisers of their own, in a translation unit that may come after the others. -/
theorem registration_ordered_iff {units : List (List (String × BackendType))}
    {order : List (Initialiser BackendType)} (hPermitted : Permitted units order) :
    (∃ factory : SequencerFactory BackendType,
      initialise order = some factory.statics ∧ FindsRegistered factory order) ↔
      RegistersLater order := by
  obtain ⟨early, late, rfl⟩ := hPermitted.split
  cases early with
  | nil =>
    -- `Backend.cpp` comes before every unit that registers something
    refine iff_of_true ⟨registeredFactory late, ?_, ?_⟩ ?_
    · exact initialise_registrations late
    · exact findsRegistered_started late
    · exact registersLater_started late
  | cons r early =>
    -- the first registration finds neither map constructed
    refine iff_of_false ?_ fun hLater => ?_
    · rintro ⟨factory, hInit, _⟩
      rw [initialise_early] at hInit
      cases hInit
    · have hOrder : registrationUnit (r :: early) ++ (backendUnit ++ registrationUnit late) =
          (registrationUnit (r :: early) ++ [.create_fn]) ++ .open_fn :: registrationUnit late := by
        simp [backendUnit]
      exact hLater _ _ hOrder r.1 r.2 (List.mem_append_left _ List.mem_cons_self)

/-- `DummyBackend.cpp`. -/
def dummyUnit : List (String × RegisteredBackend) := [("dummy", .DummySequencer)]

theorem permitted_in_order : Permitted [dummyUnit] (backendUnit ++ registrationUnit dummyUnit) :=
  ⟨[backendUnit, registrationUnit dummyUnit], .refl _, by simp⟩

/-- The factory of a process in which the dummy backend was registered in time. -/
theorem initialise_dummy : initialise (backendUnit ++ registrationUnit dummyUnit) =
    some registered.statics := by
  have hLookup : (fun name => dummyUnit.reverse.lookup name) =
      fun name => if name = "dummy" then some .DummySequencer else none := by
    funext name
    by_cases hName : name = "dummy" <;> simp [dummyUnit, hName]
  rw [initialise_registrations, SequencerFactory.statics, registeredFactory, hLookup]
  rfl

theorem dummy_registered_in_order :
    initialise (backendUnit ++ registrationUnit dummyUnit) = some registered.statics ∧
      FindsRegistered registered (backendUnit ++ registrationUnit dummyUnit) := by
  obtain ⟨factory, hInit, hFinds⟩ :=
    (registration_ordered_iff permitted_in_order).mpr (registersLater_started dummyUnit)
  obtain rfl : factory = registered :=
    SequencerFactory.statics_injective (Option.some.inj (hInit.symm.trans initialise_dummy))
  exact ⟨hInit, hFinds⟩

theorem dummy_registered_first :
    Permitted [dummyUnit] (registrationUnit dummyUnit ++ backendUnit) ∧
      ¬ ∃ factory : SequencerFactory RegisteredBackend,
        initialise (registrationUnit dummyUnit ++ backendUnit) = some factory.statics ∧
          FindsRegistered factory (registrationUnit dummyUnit ++ backendUnit) := by
  refine ⟨⟨[registrationUnit dummyUnit, backendUnit], .swap _ _ _, by simp⟩, ?_⟩
  rintro ⟨factory, hInit, _⟩
  cases hInit

end Mobject
