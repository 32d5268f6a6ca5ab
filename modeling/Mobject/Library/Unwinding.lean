/-! # Procedures that throw

A procedure acts on a state and returns, throws an exception, or ends the program. Leaving a
scope, by either of the first two ways, runs the destructor of what the scope owns; a destructor
that throws ends the program.
-/
namespace Unwinding
set_option autoImplicit false

inductive Exit (ε α : Type) where
  | normal (value : α)
  | threw (exception : ε)
  | terminated
  deriving DecidableEq

/-- A procedure over the state `σ` that can throw `ε`. -/
def Proc (σ ε α : Type) : Type := σ → Exit ε α × σ

variable {σ ε α β : Type}

namespace Proc

def bind (p : Proc σ ε α) (f : α → Proc σ ε β) : Proc σ ε β := fun s =>
  match p s with
  | (.normal value, t) => f value t
  | (.threw exception, t) => (.threw exception, t)
  | (.terminated, t) => (.terminated, t)

instance : Monad (Proc σ ε) where
  pure value := fun s => (.normal value, s)
  bind := bind

def get (f : σ → α) : Proc σ ε α := fun s => (.normal (f s), s)

def modify (f : σ → σ) : Proc σ ε Unit := fun s => (.normal (), f s)

def throw (exception : ε) : Proc σ ε α := fun s => (.threw exception, s)

def noexcept (p : Proc σ ε α) : Proc σ ε α := fun s =>
  match p s with
  | (.threw _, t) => (.terminated, t)
  | r => r

/-- A scope whose one object has this destructor. -/
def inScope (destructor : Proc σ ε Unit) (body : Proc σ ε α) : Proc σ ε α := fun s =>
  match body s with
  | (.normal value, t) => (destructor.noexcept >>= fun _ => pure value) t
  | (.threw exception, t) => (destructor.noexcept >>= fun _ => throw exception) t
  | (.terminated, t) => (.terminated, t)

section Rules
variable {p : Proc σ ε α} {f : α → Proc σ ε β} {destructor : Proc σ ε Unit} {s t u : σ}
  {value : α} {exception : ε}

@[simp] theorem pure_apply (value : α) (s : σ) :
    (pure value : Proc σ ε α) s = (.normal value, s) := rfl
@[simp] theorem modify_apply (f : σ → σ) (s : σ) :
    (modify f : Proc σ ε Unit) s = (.normal (), f s) := rfl

@[simp] theorem get_bind (g : σ → α) (f : α → Proc σ ε β) (s : σ) :
    (get g >>= f) s = f (g s) s := rfl
@[simp] theorem modify_bind (g : σ → σ) (f : Unit → Proc σ ε β) (s : σ) :
    (modify g >>= f) s = f () (g s) := rfl

theorem bind_normal (h : p s = (.normal value, t)) : (p >>= f) s = f value t := by
  show bind p f s = _
  rw [bind, h]

theorem bind_threw (h : p s = (.threw exception, t)) : (p >>= f) s = (.threw exception, t) := by
  show bind p f s = _
  rw [bind, h]

theorem noexcept_normal (h : p s = (.normal value, t)) : p.noexcept s = (.normal value, t) := by
  rw [noexcept, h]

theorem noexcept_threw (h : p s = (.threw exception, t)) : p.noexcept s = (.terminated, t) := by
  rw [noexcept, h]

theorem inScope_normal (h : p s = (.normal value, t)) (hDestructor : destructor t = (.normal (), u)) :
    inScope destructor p s = (.normal value, u) := by
  rw [inScope, h]
  exact bind_normal (noexcept_normal hDestructor)

theorem inScope_threw (h : p s = (.threw exception, t)) (hDestructor : destructor t = (.normal (), u)) :
    inScope destructor p s = (.threw exception, u) := by
  rw [inScope, h]
  exact bind_normal (noexcept_normal hDestructor)

end Rules

end Proc

end Unwinding
