import Mathlib.Logic.Function.Basic

/-! # Provider objects and the finalize callbacks of their engine

`Provider.cpp`: a `Provider` registers a callback with the engine under its own address, and the
callback captures that address. The callbacks are kept with the most recently pushed first, which
is the order in which the engine runs them.
-/
namespace Mobject
set_option autoImplicit false

abbrev Address := Nat

/-- A `Provider`. An address can be reused, so each object also has a serial number; `self` is
the `ProviderImpl` with that provider id, if any. -/
structure ProviderObject where
  serial : Nat
  self : Option UInt16
  deriving DecidableEq

/-- `[p=this]() { p->self.reset(); }`, with the object that `p` points to. -/
structure FinalizeCallback where
  owner : Address
  p : Address
  serial : Nat
  deriving DecidableEq

inductive Fault where
  /-- `other.self->get_engine()` on a null `self` -/
  | nullSelf
  /-- a callback runs whose `p` has been destroyed -/
  | danglingCallback
  deriving DecidableEq

structure Process where
  objects : Address → Option ProviderObject
  callbacks : List FinalizeCallback
  finalized : Bool
  /-- how many objects have been constructed -/
  constructed : Nat
  fault : Option Fault

namespace Process

def start : Process := ⟨fun _ => none, [], false, 0, none⟩

variable (s : Process)

def push_finalize_callback (owner p : Address) (serial : Nat) : Process :=
  { s with callbacks := ⟨owner, p, serial⟩ :: s.callbacks }

/-- `engine.pop_finalize_callback(owner)`: the most recent callback of this owner, if any. -/
def pop_finalize_callback (owner : Address) : Process :=
  { s with callbacks := s.callbacks.eraseP fun callback => callback.owner = owner }

def set (this : Address) (object : Option ProviderObject) : Process :=
  { s with objects := Function.update s.objects this object }

section Fields
variable (this owner p : Address) (serial : Nat) (object : Option ProviderObject)

@[simp] theorem objects_set : (s.set this object).objects = Function.update s.objects this object :=
  rfl
@[simp] theorem callbacks_set : (s.set this object).callbacks = s.callbacks := rfl
@[simp] theorem objects_pop : (s.pop_finalize_callback owner).objects = s.objects := rfl
@[simp] theorem callbacks_pop : (s.pop_finalize_callback owner).callbacks =
    s.callbacks.eraseP fun callback => callback.owner = owner := rfl
@[simp] theorem objects_push : (s.push_finalize_callback owner p serial).objects = s.objects := rfl
@[simp] theorem callbacks_push : (s.push_finalize_callback owner p serial).callbacks =
    ⟨owner, p, serial⟩ :: s.callbacks := rfl
@[simp] theorem fault_set : (s.set this object).fault = s.fault := rfl
@[simp] theorem fault_pop : (s.pop_finalize_callback owner).fault = s.fault := rfl
@[simp] theorem fault_push : (s.push_finalize_callback owner p serial).fault = s.fault := rfl
@[simp] theorem finalized_set : (s.set this object).finalized = s.finalized := rfl
@[simp] theorem finalized_pop : (s.pop_finalize_callback owner).finalized = s.finalized := rfl
@[simp] theorem finalized_push :
    (s.push_finalize_callback owner p serial).finalized = s.finalized := rfl

end Fields

/-- Both constructors from an engine or a margo instance; `config` and `p` are not used. -/
def construct (this : Address) (provider_id : UInt16) : Process :=
  let t := s.set this (some ⟨s.constructed, some provider_id⟩)
  { t.push_finalize_callback this this s.constructed with constructed := s.constructed + 1 }

/-- `Provider(Provider&& other)`, which pops under `this` and not under `&other`. -/
def moveConstruct (this other : Address) (object : ProviderObject) : Process :=
  match object.self with
  | none => { s with fault := some .nullSelf }
  | some impl =>
    let t := s.pop_finalize_callback this
    let t := t.set this (some ⟨s.constructed, some impl⟩)
    let t := t.set other (some { object with self := none })
    { t.push_finalize_callback this this s.constructed with constructed := s.constructed + 1 }

/-- `~Provider`. -/
def destroy (this : Address) (object : ProviderObject) : Process :=
  if object.self.isSome then (s.pop_finalize_callback this).set this none else s.set this none

def runCallback (callback : FinalizeCallback) : Process :=
  match s.objects callback.p with
  | some object =>
    if object.serial = callback.serial then s.set callback.p (some { object with self := none })
    else { s with fault := some .danglingCallback }
  | none => { s with fault := some .danglingCallback }

/-- The engine runs what is left, last in first out. -/
def finalize : Process :=
  { s.callbacks.foldl runCallback s with callbacks := [], finalized := true }

end Process

inductive ProviderOperation where
  | construct (this : Address) (provider_id : UInt16)
  | moveConstruct (this other : Address)
  | destroy (this : Address)
  | finalize

/-- One step of the program that uses the library, as long as nothing has gone wrong: an object
is constructed where there is none, moved from or destroyed where there is one, and the engine is
finalized once. -/
inductive ProviderStep (s : Process) : ProviderOperation → Process → Prop
  | construct (this : Address) (provider_id : UInt16) : s.fault = none → s.objects this = none →
      ProviderStep s (.construct this provider_id) (s.construct this provider_id)
  | moveConstruct (this other : Address) (object : ProviderObject) : s.fault = none →
      s.objects this = none → s.objects other = some object →
      ProviderStep s (.moveConstruct this other) (s.moveConstruct this other object)
  | destroy (this : Address) (object : ProviderObject) : s.fault = none →
      s.objects this = some object → ProviderStep s (.destroy this) (s.destroy this object)
  | finalize : s.fault = none → s.finalized = false → ProviderStep s .finalize s.finalize

end Mobject
