import Mobject.ClientImpl
import Mobject.Library.Reclaim
import Mobject.Provider.Callbacks

/-! # Which provider serves an RPC

The constructor of `ProviderImpl` defines its RPCs with the engine, its destructor deregisters them.
In between the `ProviderImpl` belongs to the `self` of a `Provider`, which can be moved, destroyed,
or reset by the engine.
-/
namespace Mobject
open SharedOwnership Runs
set_option autoImplicit false

abbrev ProviderImplId := Nat

/-- Whose handler the engine calls for a name and a provider id. -/
abbrev Handlers := String → UInt16 → Option ProviderImplId

namespace Handlers

def set (handlers : Handlers) (rpc : String) (provider_id : UInt16) (i : Option ProviderImplId) :
    Handlers :=
  fun rpc' provider_id' =>
    if rpc' = rpc ∧ provider_id' = provider_id then i else handlers rpc' provider_id'

/-- `define(rpc, ...)`. Which of two handlers the engine keeps under one id is left open. -/
def define (kept : ProviderImplId → ProviderImplId → ProviderImplId) (provider_id : UInt16)
    (i : ProviderImplId) (handlers : Handlers) (rpc : String) : Handlers :=
  set handlers rpc provider_id (some ((handlers rpc provider_id).elim i fun j => kept j i))

def deregister (provider_id : UInt16) (handlers : Handlers) (rpc : String) : Handlers :=
  set handlers rpc provider_id none

end Handlers

/-- The names that the constructor of `ProviderImpl` defines, in its order. -/
def ProviderImpl.rpcs : List String :=
  ["mobject_create_sequencer", "mobject_open_sequencer", "mobject_close_sequencer",
    "mobject_destroy_sequencer", "mobject_check_sequencer", "mobject_say_hello", "mobject_compute_sum"]

theorem rpc_mem (request : Request) : request.rpc ∈ ProviderImpl.rpcs := by
  cases request <;> simp [Request.rpc, ProviderImpl.rpcs]

structure Endpoints where
  process : Process
  /-- the owners are the addresses of `Provider` objects -/
  selfs : Ledger Address ProviderImplId
  provider_id : ProviderImplId → UInt16
  made : ProviderImplId
  handlers : Handlers

namespace Endpoints

def start : Endpoints := ⟨.start, .empty, fun _ => 0, 0, fun _ _ => none⟩

variable (kept : ProviderImplId → ProviderImplId → ProviderImplId) (s : Endpoints)

def self (this : Address) : Option ProviderImplId := s.selfs.self.owner this

/-- The constructor of `ProviderImpl`. -/
def makeImpl (provider_id : UInt16) : Endpoints :=
  { s with provider_id := Function.update s.provider_id s.made provider_id
           made := s.made + 1
           handlers := ProviderImpl.rpcs.foldl (Handlers.define kept provider_id s.made) s.handlers }

/-- `~ProviderImpl`. -/
def destroyImpl (i : ProviderImplId) : Endpoints :=
  { s with handlers := ProviderImpl.rpcs.foldl (Handlers.deregister (s.provider_id i)) s.handlers }

/-- Assignment to the `self` of the `Provider` at `this`. -/
def setSelf (this : Address) (x : Option ProviderImplId) : Endpoints :=
  match s.selfs.self.released this x with
  | some gone => { s.destroyImpl gone with selfs := s.selfs.assign this x }
  | none => { s with selfs := s.selfs.assign this x }

/-- `p->self.reset()`, where the object that `p` points to is still there. -/
def runCallback (callback : FinalizeCallback) : Endpoints :=
  match s.process.objects callback.p with
  | some object => if object.serial = callback.serial then s.setSelf callback.p none else s
  | none => s

/-- What an operation does to the `ProviderImpl`s. -/
def perform : ProviderOperation → Endpoints
  | .construct this provider_id => (s.makeImpl kept provider_id).setSelf this (some s.made)
  | .moveConstruct this other => (s.setSelf this (s.self other)).setSelf other none
  | .destroy this => s.setSelf this none
  | .finalize => s.process.callbacks.foldl runCallback s

def Next (s : Endpoints) (op : ProviderOperation) (t : Endpoints) : Prop :=
  ∃ process, ProviderStep s.process op process ∧ t = { s.perform kept op with process := process }

/-- The requests for a provider id reach the one `ProviderImpl` with this id that is owned by a
`Provider`; nothing else is defined. -/
structure Routed (s : Endpoints) : Prop where
  requests : ∀ (request : Request) provider_id i, s.handlers request.rpc provider_id = some i ↔
    s.provider_id i = provider_id ∧ ∃ p, s.self p = some i
  others : ∀ rpc, rpc ∉ ProviderImpl.rpcs → ∀ provider_id, s.handlers rpc provider_id = none

/-- The condition: no valid `Provider` has the id of the new one. -/
def FreshId (s : Endpoints) : ProviderOperation → Prop
  | .construct _ provider_id => ∀ p object, s.process.objects p = some object →
      object.self ≠ some provider_id
  | _ => True

end Endpoints

section Handlers
variable (kept : ProviderImplId → ProviderImplId → ProviderImplId) {provider_id : UInt16}
  {i : ProviderImplId} {rpcs : List String} {handlers : Handlers}

theorem foldl_define (hOnce : rpcs.Nodup) (hFree : ∀ rpc ∈ rpcs, handlers rpc provider_id = none)
    (rpc : String) (provider_id' : UInt16) :
    rpcs.foldl (Handlers.define kept provider_id i) handlers rpc provider_id' =
      if rpc ∈ rpcs ∧ provider_id' = provider_id then some i else handlers rpc provider_id' := by
  induction rpcs generalizing handlers with
  | nil => simp
  | cons first rpcs ih =>
    obtain ⟨hFirst, hOnce⟩ := List.nodup_cons.mp hOnce
    obtain ⟨hNone, hFree⟩ := List.forall_mem_cons.mp hFree
    have hDefine : Handlers.define kept provider_id i handlers first =
        Handlers.set handlers first provider_id (some i) := by
      rw [Handlers.define, hNone, Option.elim_none]
    rw [List.foldl_cons, hDefine, ih hOnce]
    · by_cases hMem : rpc ∈ rpcs <;> by_cases hHere : rpc = first <;>
        by_cases hId : provider_id' = provider_id <;> simp [Handlers.set, hMem, hHere, hId]
    · intro other hMem
      have hOther : other ≠ first := fun hSame => hFirst (hSame ▸ hMem)
      rw [Handlers.set, if_neg fun hBoth => hOther hBoth.1]
      exact hFree other hMem

theorem foldl_deregister (rpc : String) (provider_id' : UInt16) :
    rpcs.foldl (Handlers.deregister provider_id) handlers rpc provider_id' =
      if rpc ∈ rpcs ∧ provider_id' = provider_id then none else handlers rpc provider_id' := by
  induction rpcs generalizing handlers with
  | nil => simp
  | cons first rpcs ih =>
    rw [List.foldl_cons, ih]
    by_cases hMem : rpc ∈ rpcs <;> by_cases hHere : rpc = first <;>
      by_cases hId : provider_id' = provider_id <;>
      simp [Handlers.deregister, Handlers.set, hMem, hHere, hId]

end Handlers

namespace Endpoints
variable {kept : ProviderImplId → ProviderImplId → ProviderImplId} {s : Endpoints}
  {this p : Address} {x : Option ProviderImplId} {live : ProviderImplId → Prop}

/-- The RPCs that are defined are those of the `ProviderImpl`s in `live`. -/
def Routes (s : Endpoints) (live : ProviderImplId → Prop) : Prop :=
  ∀ rpc provider_id i, s.handlers rpc provider_id = some i ↔
    rpc ∈ ProviderImpl.rpcs ∧ s.provider_id i = provider_id ∧ live i

theorem Routes.congr {live' : ProviderImplId → Prop} (h : s.Routes live) (hSame : ∀ i, live i ↔ live' i) :
    s.Routes live' := by
  intro rpc provider_id i
  rw [h, hSame]

theorem Routes.makeImpl (h : s.Routes live) (hMade : ∀ i, live i → i < s.made) {provider_id : UInt16}
    (hFresh : ∀ i, live i → s.provider_id i ≠ provider_id) :
    (s.makeImpl kept provider_id).Routes fun i => live i ∨ i = s.made := by
  have hFree : ∀ rpc ∈ ProviderImpl.rpcs, s.handlers rpc provider_id = none := by
    intro rpc _
    by_contra hSome
    obtain ⟨i, hi⟩ := Option.ne_none_iff_exists'.mp hSome
    obtain ⟨_, hId, hLive⟩ := (h _ _ _).mp hi
    exact hFresh i hLive hId
  intro rpc provider_id' i
  have hDefined : (s.makeImpl kept provider_id).handlers rpc provider_id' = _ :=
    foldl_define kept (by decide) hFree rpc provider_id'
  change _ ↔ _ ∧ Function.update s.provider_id s.made provider_id i = provider_id' ∧ (live i ∨ i = s.made)
  rw [hDefined]
  rcases eq_or_ne i s.made with rfl | hOld
  · have hNew : ¬ live s.made := fun hLive => lt_irrefl _ (hMade _ hLive)
    have hNone : s.handlers rpc provider_id' ≠ some s.made := fun hi => hNew ((h _ _ _).mp hi).2.2
    simp [hNone, eq_comm (a := provider_id)]
  · rw [Function.update_of_ne hOld, or_iff_left hOld, ← h]
    split
    · next hHere =>
      obtain ⟨hMem, rfl⟩ := hHere
      simp [hFree rpc hMem, hOld.symm]
    · rfl

theorem Routes.destroyImpl (h : s.Routes live) {gone : ProviderImplId} (hGone : live gone) :
    (s.destroyImpl gone).Routes fun i => live i ∧ i ≠ gone := by
  intro rpc provider_id i
  have hDeregistered : (s.destroyImpl gone).handlers rpc provider_id = _ := foldl_deregister rpc provider_id
  change _ ↔ _ ∧ s.provider_id i = provider_id ∧ live i ∧ i ≠ gone
  rw [hDeregistered]
  split
  · next hHere =>
    obtain ⟨hMem, rfl⟩ := hHere
    refine ⟨nofun, ?_⟩
    rintro ⟨_, hId, hLive, hOther⟩
    -- both would be called for the same id
    have hBoth := ((h rpc _ i).mpr ⟨hMem, hId, hLive⟩).symm.trans ((h rpc _ gone).mpr ⟨hMem, rfl, hGone⟩)
    exact absurd (Option.some.inj hBoth) hOther
  · next hElse =>
    rw [h]
    refine and_congr_right fun hMem => and_congr_right fun hId => (and_iff_left ?_).symm
    rintro rfl
    exact hElse ⟨hMem, hId.symm⟩

section Fields

@[simp] theorem process_setSelf : (s.setSelf this x).process = s.process := by
  unfold setSelf
  split <;> rfl

@[simp] theorem selfs_setSelf : (s.setSelf this x).selfs = s.selfs.assign this x := by
  unfold setSelf
  split <;> rfl

@[simp] theorem provider_id_setSelf : (s.setSelf this x).provider_id = s.provider_id := by
  unfold setSelf
  split <;> rfl

@[simp] theorem made_setSelf : (s.setSelf this x).made = s.made := by
  unfold setSelf
  split <;> rfl

@[simp] theorem self_setSelf : (s.setSelf this x).self = Function.update s.self this x := by
  funext p
  change (s.setSelf this x).selfs.self.owner p = _
  rw [selfs_setSelf]
  rfl

end Fields

def Used (s : Endpoints) (i : ProviderImplId) : Prop := s.selfs.self.uses i ≠ 0

theorem used_iff (i : ProviderImplId) : s.Used i ↔ ∃ p, s.self p = some i := by
  rw [Used, ne_eq, Pool.uses_eq_zero_iff, not_forall]
  simp [self]

theorem Routes.setSelf (h : s.Routes fun i => s.Used i ∨ x = some i) :
    (s.setSelf this x).Routes (s.setSelf this x).Used := by
  have hUsed : ∀ i, (s.Used i ∨ x = some i) ∧ s.selfs.self.released this x ≠ some i ↔
      (s.setSelf this x).Used i := by
    intro i
    have hAfter : (s.setSelf this x).Used i ↔ (s.selfs.self.assign this x).uses i ≠ 0 := by
      rw [Used, selfs_setSelf]
      rfl
    rw [hAfter, Pool.used_assign_iff, Used]
  refine Routes.congr ?_ hUsed
  cases hReleased : s.selfs.self.released this x with
  | none =>
    simp only [Endpoints.setSelf, hReleased]
    exact h.congr fun i => by simp
  | some gone =>
    simp only [Endpoints.setSelf, hReleased]
    have hGone : s.Used gone := ((s.selfs.self.released_iff this x).mp hReleased).1
    exact (h.destroyImpl (.inl hGone)).congr fun i => by simp [eq_comm]

theorem Routes.release (h : s.Routes s.Used) (this : Address) :
    (s.setSelf this none).Routes (s.setSelf this none).Used :=
  Routes.setSelf (h.congr fun i => by simp)

/-- No two `Provider`s own the same `ProviderImpl`. -/
def Sole (self : Address → Option ProviderImplId) : Prop :=
  ∀ p p' i, self p = some i → self p' = some i → p = p'

theorem Sole.update {self : Address → Option ProviderImplId} (h : Sole self)
    (hNew : ∀ p ≠ this, ∀ i, self p = some i → x ≠ some i) : Sole (Function.update self this x) := by
  intro p p' i hp hp'
  by_cases hThis : p = this <;> by_cases hThis' : p' = this
  · exact hThis.trans hThis'.symm
  · subst hThis
    rw [Function.update_self] at hp
    rw [Function.update_of_ne hThis'] at hp'
    exact absurd hp (hNew p' hThis' i hp')
  · subst hThis'
    rw [Function.update_self] at hp'
    rw [Function.update_of_ne hThis] at hp
    exact absurd hp' (hNew p hThis i hp)
  · rw [Function.update_of_ne hThis] at hp
    rw [Function.update_of_ne hThis'] at hp'
    exact h p p' i hp hp'

structure Owned (s : Endpoints) : Prop where
  selfs : Ledger.Sound {i | i < s.made} s.selfs
  sole : Sole s.self

theorem Owned.lt_made (h : s.Owned) {i : ProviderImplId} (hSelf : s.self p = some i) : i < s.made :=
  (h.selfs.owned hSelf).1

theorem Owned.release (h : s.Owned) (this : Address) : (s.setSelf this none).Owned := by
  constructor
  · rw [selfs_setSelf, made_setSelf]
    exact h.selfs.release this
  · rw [self_setSelf]
    exact h.sole.update fun _ _ _ _ hNone => by cases hNone

theorem Owned.construct (h : s.Owned) (this : Address) (provider_id : UInt16) :
    ((s.makeImpl kept provider_id).setSelf this (some s.made)).Owned := by
  constructor
  · rw [selfs_setSelf, made_setSelf]
    exact h.selfs.makeNext this
  · rw [self_setSelf]
    refine h.sole.update fun p _ i hSelf hNew => ?_
    exact (h.lt_made hSelf).ne (Option.some.inj hNew).symm

theorem Owned.move (h : s.Owned) {other : Address} (hNe : other ≠ this) :
    ((s.setSelf this (s.self other)).setSelf other none).Owned := by
  constructor
  · rw [selfs_setSelf, selfs_setSelf, made_setSelf, made_setSelf]
    refine Ledger.Sound.release ?_ other
    cases hOther : s.self other with
    | none => exact h.selfs.release this
    | some i => exact h.selfs.share this (s.selfs.self.uses_pos hOther).ne'
  · rw [self_setSelf, self_setSelf, Function.update_comm hNe.symm]
    refine Sole.update (h.sole.update fun _ _ _ _ hNone => by cases hNone) fun p hp i hSelf hMoved => ?_
    rcases eq_or_ne p other with rfl | hOther
    · simp at hSelf
    · rw [Function.update_of_ne hOther] at hSelf
      exact hOther (h.sole p other i hSelf hMoved)

theorem setSelf_quiet (h : s.selfs.self.released this x = none) :
    (s.setSelf this x).handlers = s.handlers ∧ (s.setSelf this x).selfs.freed = s.selfs.freed := by
  constructor
  · simp only [setSelf, h]
  · rw [selfs_setSelf, Ledger.assign, h, Option.toList_none, List.append_nil]

/-- A move takes the `ProviderImpl` along: it is not destroyed, and the engine is told nothing. -/
theorem move_quiet {other : Address} (hNe : other ≠ this) (hFree : s.self this = none) :
    ((s.setSelf this (s.self other)).setSelf other none).handlers = s.handlers ∧
      ((s.setSelf this (s.self other)).setSelf other none).selfs.freed = s.selfs.freed := by
  have hFirst : s.selfs.self.released this (s.self other) = none := by
    rw [Pool.released, show s.selfs.self.owner this = none from hFree, Option.filter_none]
  have hSecond : (s.setSelf this (s.self other)).selfs.self.released other none = none := by
    by_contra hSome
    obtain ⟨i, hi⟩ := Option.ne_none_iff_exists'.mp hSome
    have hOther := ((Pool.released_eq_some _ _ _).mp hi).1
    obtain ⟨_, hZero⟩ := (Pool.released_iff _ _ _).mp hi
    rw [selfs_setSelf, Ledger.owner_assign, Function.update_of_ne hNe] at hOther
    -- the new owner has it
    refine Pool.unowned _ hZero this ?_
    rw [Pool.owner_assign, Function.update_of_ne hNe.symm, selfs_setSelf, Ledger.owner_assign,
      Function.update_self]
    exact hOther
  obtain ⟨hHandlers, hFreed⟩ := setSelf_quiet hFirst
  obtain ⟨hHandlers', hFreed'⟩ := setSelf_quiet hSecond
  exact ⟨hHandlers'.trans hHandlers, hFreed'.trans hFreed⟩

/-- What assignments of null keep, finalization keeps. -/
theorem foldl_runCallback_induction {I : Endpoints → Prop} (h : I s)
    (hReset : ∀ s this, I s → I (s.setSelf this none)) (callbacks : List FinalizeCallback) :
    I (callbacks.foldl runCallback s) := by
  induction callbacks generalizing s with
  | nil => exact h
  | cons callback callbacks ih =>
    refine ih ?_
    unfold runCallback
    split
    · split
      · exact hReset s callback.p h
      · exact h
    · exact h

theorem self_foldl_runCallback (callbacks : List FinalizeCallback) (s : Endpoints) (p : Address) :
    (callbacks.foldl runCallback s).self p =
      if ∃ callback ∈ callbacks, callback.p = p ∧
        ∃ object, s.process.objects p = some object ∧ object.serial = callback.serial then none
      else s.self p := by
  induction callbacks generalizing s with
  | nil => simp
  | cons callback callbacks ih =>
    have hProcess : (s.runCallback callback).process = s.process :=
      foldl_runCallback_induction (I := fun t => t.process = s.process) rfl (fun _ _ h => by simp [h]) [callback]
    have hSelf : (s.runCallback callback).self p = if callback.p = p ∧
        ∃ object, s.process.objects p = some object ∧ object.serial = callback.serial then none
        else s.self p := by
      unfold runCallback
      by_cases hp : callback.p = p
      · subst hp
        cases hObject : s.process.objects callback.p with
        | none => simp
        | some object => by_cases hSerial : object.serial = callback.serial <;> simp [hSerial]
      · simp only [hp, false_and, ↓reduceIte]
        split
        · split
          · rw [self_setSelf, Function.update_of_ne (Ne.symm hp)]
          · rfl
        · rfl
    rw [List.foldl_cons, ih, hProcess, hSelf]
    by_cases hFirst : callback.p = p ∧
        ∃ object, s.process.objects p = some object ∧ object.serial = callback.serial <;> simp [hFirst]

/-- A `Provider` is valid if it owns a `ProviderImpl`, and then it is called back. -/
structure Agrees (owns : Address → Option ProviderImplId) (provider_id : ProviderImplId → UInt16)
    (process : Process) : Prop where
  objects : ∀ p, (owns p).map provider_id = (process.objects p).bind ProviderObject.self
  expected : ∀ p object, process.objects p = some object → object.self ≠ none →
    ⟨p, p, object.serial⟩ ∈ process.callbacks

section Agrees
variable {owns : Address → Option ProviderImplId} {provider_id : ProviderImplId → UInt16}
  {process : Process} {object : ProviderObject} {other : Address}

theorem ne_of_free (hFree : process.objects this = none) (hObject : process.objects other = some object) :
    other ≠ this := by
  rintro rfl
  rw [hFree] at hObject
  cases hObject

theorem Agrees.valid (h : Agrees owns provider_id process) {i : ProviderImplId} (hOwns : owns p = some i) :
    ∃ object, process.objects p = some object ∧ object.self = some (provider_id i) := by
  have hObject := h.objects p
  rw [hOwns, Option.map_some, eq_comm, Option.bind_eq_some_iff] at hObject
  exact hObject

theorem Agrees.owned (h : Agrees owns provider_id process) (hObject : process.objects p = some object)
    {id : UInt16} (hValid : object.self = some id) : ∃ i, owns p = some i ∧ provider_id i = id := by
  have hOwns := h.objects p
  rw [hObject, Option.bind_some, hValid, Option.map_eq_some_iff] at hOwns
  exact hOwns

theorem Agrees.self_none (h : Agrees owns provider_id process) (hFree : process.objects this = none) :
    owns this = none := by
  have hNone := h.objects this
  rw [hFree, Option.bind_none] at hNone
  exact Option.map_eq_none_iff.mp hNone

theorem Agrees.construct (h : Agrees owns provider_id process) {i : ProviderImplId}
    (hNew : ∀ p, owns p ≠ some i) (this : Address) (id : UInt16) :
    Agrees (Function.update owns this (some i)) (Function.update provider_id i id)
      (process.construct this id) := by
  constructor
  · intro p
    rcases eq_or_ne p this with rfl | hp
    · simp [Process.construct]
    · simp only [Process.construct, Process.objects_push, Process.objects_set, Function.update_of_ne hp]
      rw [← h.objects]
      refine Option.map_congr fun j hj => Function.update_of_ne ?_ _ _
      rintro rfl
      exact hNew p hj
  · intro p object hObject hValid
    rcases eq_or_ne p this with rfl | hp
    · simp only [Process.construct, Process.objects_push, Process.objects_set, Function.update_self,
        Option.some.injEq] at hObject
      rw [← hObject]
      exact List.mem_cons_self
    · simp only [Process.construct, Process.objects_push, Process.objects_set,
        Function.update_of_ne hp] at hObject
      exact List.mem_cons_of_mem _ (h.expected p object hObject hValid)

theorem Agrees.destroy (h : Agrees owns provider_id process) (this : Address) (object : ProviderObject) :
    Agrees (Function.update owns this none) provider_id (process.destroy this object) := by
  constructor
  · intro p
    rw [Process.objects_destroy]
    rcases eq_or_ne p this with rfl | hp
    · simp
    · rw [Function.update_of_ne hp, Function.update_of_ne hp]
      exact h.objects p
  · intro p object' hObject hValid
    rw [Process.objects_destroy] at hObject
    rcases eq_or_ne p this with rfl | hp
    · simp at hObject
    · rw [Function.update_of_ne hp] at hObject
      have hOld := h.expected p object' hObject hValid
      unfold Process.destroy
      split
      · refine (List.mem_eraseP_of_neg ?_).mpr hOld
        simpa using hp
      · exact hOld

theorem Agrees.move (h : Agrees owns provider_id process) (hFree : process.objects this = none)
    (hObject : process.objects other = some object) :
    Agrees (Function.update (Function.update owns this (owns other)) other none) provider_id
      (process.moveConstruct this other object) := by
  have hNe := ne_of_free hFree hObject
  have hOther := h.objects other
  rw [hObject, Option.bind_some] at hOther
  cases hSelf : object.self with
  | none =>
    -- nothing is moved
    rw [hSelf, Option.map_eq_none_iff] at hOther
    have hSame : Function.update (Function.update owns this (owns other)) other none = owns := by
      rw [hOther, ← h.self_none hFree, Function.update_eq_self, h.self_none hFree, ← hOther,
        Function.update_eq_self]
    rw [hSame, Process.moveConstruct, hSelf]
    exact ⟨h.objects, h.expected⟩
  | some impl =>
    rw [hSelf] at hOther
    have hObjects : (process.moveConstruct this other object).objects =
        Function.update (Function.update process.objects this (some ⟨process.constructed, some impl⟩))
          other (some { object with self := none }) := by
      rw [Process.moveConstruct, hSelf]
      rfl
    have hCallbacks : (process.moveConstruct this other object).callbacks =
        ⟨this, this, process.constructed⟩ ::
          process.callbacks.eraseP fun callback => callback.owner = this := by
      rw [Process.moveConstruct, hSelf]
      rfl
    constructor
    · intro p
      rcases eq_or_ne p other with rfl | hp
      · simp [hObjects]
      · rcases eq_or_ne p this with rfl | hp'
        · simpa [hObjects, hp] using hOther
        · simpa [hObjects, hp, hp'] using h.objects p
    · intro p object' hObject' hValid
      rw [hObjects] at hObject'
      rw [hCallbacks]
      rcases eq_or_ne p other with rfl | hp
      · rw [Function.update_self, Option.some.injEq] at hObject'
        exact absurd (by rw [← hObject']) hValid
      · rw [Function.update_of_ne hp] at hObject'
        rcases eq_or_ne p this with rfl | hp'
        · rw [Function.update_self, Option.some.injEq] at hObject'
          rw [← hObject']
          exact List.mem_cons_self
        · rw [Function.update_of_ne hp'] at hObject'
          refine List.mem_cons_of_mem _ ((List.mem_eraseP_of_neg ?_).mpr (h.expected p _ hObject' hValid))
          simpa using hp'

theorem Agrees.finalize_reset (h : Agrees owns provider_id process) {p : Address}
    (hObject : process.finalize.objects p = some object) : object.self = none := by
  have hObjects : process.finalize.objects p = _ :=
    Process.objects_foldl_runCallback process.callbacks process p
  rw [hObjects, Option.map_eq_some_iff] at hObject
  obtain ⟨before, hBefore, rfl⟩ := hObject
  split
  · rfl
  · next hNone =>
    by_contra hValid
    exact hNone ⟨_, h.expected p before hBefore hValid, rfl, rfl⟩

end Agrees

/-- Finalization takes their `ProviderImpl` from all that are called back, which is everybody. -/
theorem finalize_self (h : Agrees s.self s.provider_id s.process) (p : Address) :
    (s.process.callbacks.foldl runCallback s).self p = none := by
  rw [self_foldl_runCallback]
  split
  · rfl
  · next hNone =>
    by_contra hSome
    obtain ⟨i, hSelf⟩ := Option.ne_none_iff_exists'.mp hSome
    obtain ⟨object, hObject, hValid⟩ := h.valid hSelf
    exact hNone ⟨_, h.expected p object hObject (by simp [hValid]), rfl, object, hObject, rfl⟩

structure Sound (s : Endpoints) : Prop extends s.Owned where
  agrees : Agrees s.self s.provider_id s.process

theorem start_sound : Sound .start where
  selfs := Ledger.sound_start
  sole := fun p _ i hSelf => by cases hSelf
  agrees := ⟨fun _ => rfl, fun p object hObject => by cases hObject⟩

theorem Sound.perform (h : s.Sound) {op : ProviderOperation} {process : Process}
    (hStep : ProviderStep s.process op process) :
    (s.perform kept op).Owned ∧ Agrees (s.perform kept op).self (s.perform kept op).provider_id process := by
  cases hStep with
  | construct this provider_id _ hFree =>
    refine ⟨h.toOwned.construct this provider_id, ?_⟩
    rw [Endpoints.perform, self_setSelf, provider_id_setSelf]
    exact h.agrees.construct (fun p hSelf => (h.lt_made hSelf).ne rfl) this provider_id
  | moveConstruct this other object _ hFree hObject =>
    refine ⟨h.move (ne_of_free hFree hObject), ?_⟩
    rw [Endpoints.perform, self_setSelf, self_setSelf, provider_id_setSelf, provider_id_setSelf]
    exact h.agrees.move hFree hObject
  | destroy this object _ hObject =>
    refine ⟨h.release this, ?_⟩
    rw [Endpoints.perform, self_setSelf, provider_id_setSelf]
    exact h.agrees.destroy this object
  | finalize _ _ =>
    refine ⟨foldl_runCallback_induction h.toOwned (fun _ this hOwned => hOwned.release this) _, ?_⟩
    refine ⟨fun p => ?_, fun p object hObject hValid => absurd (h.agrees.finalize_reset hObject) hValid⟩
    rw [Endpoints.perform, finalize_self h.agrees]
    cases hObject : s.process.finalize.objects p with
    | none => rfl
    | some object => exact (h.agrees.finalize_reset hObject).symm

theorem Sound.next (h : s.Sound) {op : ProviderOperation} {t : Endpoints} (hNext : Next kept s op t) :
    t.Sound := by
  obtain ⟨process, hStep, rfl⟩ := hNext
  obtain ⟨hOwned, hAgrees⟩ : (s.perform kept op).Owned ∧ Agrees _ _ process := h.perform hStep
  exact ⟨⟨hOwned.selfs, hOwned.sole⟩, hAgrees⟩

theorem Sound.routes_perform (h : s.Sound) (hRoutes : s.Routes s.Used) {op : ProviderOperation}
    (hFresh : FreshId s op) : (s.perform kept op).Routes (s.perform kept op).Used := by
  cases op with
  | construct this provider_id =>
    refine Routes.setSelf ((hRoutes.makeImpl (fun i hUsed => ?_) fun i hUsed hId => ?_).congr fun i => ?_)
    · obtain ⟨p, hSelf⟩ := (used_iff i).mp hUsed
      exact h.lt_made hSelf
    · obtain ⟨p, hSelf⟩ := (used_iff i).mp hUsed
      obtain ⟨object, hObject, hValid⟩ := h.agrees.valid hSelf
      exact hFresh p object hObject (hValid.trans (congrArg some hId))
    · exact or_congr Iff.rfl (by rw [Option.some.injEq, eq_comm])
  | moveConstruct this other =>
    have hMoved : s.Routes fun i => s.Used i ∨ s.self other = some i := hRoutes.congr fun i =>
      (or_iff_left_of_imp fun hSelf => (used_iff i).mpr ⟨other, hSelf⟩).symm
    exact hMoved.setSelf.release other
  | destroy this => exact hRoutes.release this
  | finalize =>
    exact foldl_runCallback_induction (I := fun t => t.Routes t.Used) hRoutes
      (fun _ this hRoutes => hRoutes.release this) _

theorem Routes.routed (h : s.Routes s.Used) : s.Routed := by
  constructor
  · intro request provider_id i
    rw [h, used_iff]
    exact and_iff_right (rpc_mem request)
  · intro rpc hOther provider_id
    by_contra hSome
    obtain ⟨i, hi⟩ := Option.ne_none_iff_exists'.mp hSome
    exact hOther ((h _ _ _).mp hi).1

/-- A new `ProviderImpl` with an id that is in use: of the two, requests reach one at most. -/
theorem Sound.not_routed (h : s.Sound) {op : ProviderOperation} {t : Endpoints} (hNext : Next kept s op t)
    (hUsed : ¬ FreshId s op) : ¬ t.Routed := by
  intro hRouted
  obtain ⟨process, hStep, hEq⟩ := hNext
  cases hStep with
  | moveConstruct | destroy | finalize => exact hUsed trivial
  | construct this provider_id _ hFree =>
    simp only [FreshId, not_forall, not_not] at hUsed
    obtain ⟨p, object, hObject, hValid⟩ := hUsed
    obtain ⟨i, hSelf, hId⟩ := h.agrees.owned hObject hValid
    have hOld : i ≠ s.made := (h.lt_made hSelf).ne
    have hNe := ne_of_free hFree hObject
    have hSelfs : t.self = Function.update s.self this (some s.made) := by
      rw [hEq]
      exact self_setSelf
    have hIds : t.provider_id = Function.update s.provider_id s.made provider_id := by
      rw [hEq]
      exact provider_id_setSelf
    have hFirst : t.handlers (Request.sayHello .cleared).rpc provider_id = some i :=
      (hRouted.requests _ _ _).mpr ⟨by rw [hIds, Function.update_of_ne hOld, hId],
        p, by rw [hSelfs, Function.update_of_ne hNe, hSelf]⟩
    have hSecond : t.handlers (Request.sayHello .cleared).rpc provider_id = some s.made :=
      (hRouted.requests _ _ _).mpr ⟨by rw [hIds, Function.update_self],
        this, by rw [hSelfs, Function.update_self]⟩
    exact hOld (Option.some.inj (hFirst.symm.trans hSecond))

end Endpoints

/-- What the operations on `Provider`s leave of the `ProviderImpl`s and their RPCs. -/
structure EndpointsSafe (steps : List (Step Endpoints ProviderOperation)) (s : Endpoints) : Prop where
  routed : (∀ x ∈ steps, x.after.Routed) ↔ ∀ x ∈ steps, Endpoints.FreshId x.before x.label
  owners : ∀ p p' i, s.self p = some i → s.self p' = some i → p = p'
  valid : ∀ p, (s.self p).map s.provider_id = (s.process.objects p).bind ProviderObject.self
  destroyed : s.selfs.freed.Nodup ∧ ∀ i, i ∈ s.selfs.freed ↔ i < s.made ∧ ∀ p, s.self p ≠ some i
  moved : ∀ x ∈ steps, ∀ this other, x.label = .moveConstruct this other →
    x.after.handlers = x.before.handlers ∧ x.after.selfs.freed = x.before.selfs.freed
  finalized : ∀ x ∈ steps, x.label = .finalize → x.after.process.fault = none →
    ∀ p, x.after.self p = none

/-- The engine calls live `ProviderImpl`s only, and reaches each of them under every name it defines,
exactly as long as no two of them have the same id. -/
theorem endpoints_safe (kept : ProviderImplId → ProviderImplId → ProviderImplId)
    {steps : List (Step Endpoints ProviderOperation)} {s : Endpoints}
    (hRun : Run (Endpoints.Next kept) .start steps s) : EndpointsSafe steps s := by
  have hNext : ∀ s op t, s.Sound → Endpoints.Next kept s op t → t.Sound := fun s op t h => h.next
  have hSound := hRun.invariant Endpoints.start_sound hNext
  have hSteps := hRun.steps_invariant Endpoints.start_sound hNext
  refine ⟨?_, hSound.sole, hSound.agrees.objects, ⟨hSound.selfs.once, fun i => ?_⟩, ?_, ?_⟩
  · refine hRun.exact_condition (I := fun s => s.Sound ∧ s.Routes s.Used) (G := fun _ _ t => t.Routed)
      ⟨Endpoints.start_sound, ?_⟩ ?_ ?_
    · exact fun rpc provider_id i => by simp [Endpoints.start, Endpoints.Used, Ledger.empty, Pool.empty]
    · rintro s op t ⟨hSound, hRoutes⟩ hNext hFresh
      have hAfter : t.Routes t.Used := by
        obtain ⟨process, _, rfl⟩ := hNext
        exact hSound.routes_perform hRoutes hFresh
      exact ⟨⟨hSound.next hNext, hAfter⟩, hAfter.routed⟩
    · exact fun s op t hInv hNext hUsed => hInv.1.not_routed hNext hUsed
  · rw [hSound.selfs.freed_iff, Pool.uses_eq_zero_iff]
    rfl
  · intro x hMem this other hLabel
    obtain ⟨hBefore, process, hStep, hAfter⟩ := hSteps x hMem
    rw [hLabel] at hStep hAfter
    cases hStep with
    | moveConstruct _ _ object _ hFree hObject =>
      rw [hAfter]
      exact Endpoints.move_quiet (Endpoints.ne_of_free hFree hObject) (hBefore.agrees.self_none hFree)
  · intro x hMem hLabel _ p
    obtain ⟨hBefore, process, _, hAfter⟩ := hSteps x hMem
    rw [hLabel] at hAfter
    rw [hAfter]
    exact Endpoints.finalize_self hBefore.agrees p

theorem moved_provider_safe : ∃ steps s, EndpointsSafe steps s ∧ s.self 0 = none ∧
    s.handlers "mobject_check_sequencer" 7 = some 0 :=
  ⟨_, _, endpoints_safe (fun j _ => j)
    (.snoc (.snoc .nil ⟨_, .construct 0 7 rfl rfl, rfl⟩) ⟨_, .moveConstruct 1 0 _ rfl rfl rfl, rfl⟩),
    by decide, by decide⟩

end Mobject
