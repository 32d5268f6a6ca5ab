import Mobject.RequestResult
import Mobject.Library.SharedOwnership
import Mobject.Library.Unwinding

/-! # AsyncRequest and SequencerHandle::computeSum

The client side of an asynchronous RPC. An `AsyncRequestImpl` is shared by every copy of the
request, and once more by the local variable of `computeSum` while that runs. An `AsyncRequest`
variable that does not exist is one whose `self` is null.
-/
namespace Mobject
open SharedOwnership Unwinding
set_option autoImplicit false

/-- The `std::shared_ptr<AsyncRequestImpl>` objects of a program. -/
inductive Owner where
  | var (v : Nat)
  /-- `AsyncRequest(std::move(async_request_impl))` in `computeSum` -/
  | temporary
  /-- the local variable of `computeSum` -/
  | async_request_impl
  deriving DecidableEq

abbrev ImplId := Nat

/-- A non-null `int32_t*`. -/
abbrev Pointer := Nat

/-- `tl::async_response`: what each call of its `wait()` returns. The first is the answer of the
provider; the others read a request that margo has already freed. -/
structure AsyncResponse where
  answers : Nat → RequestResult Int32
  waits : Nat := 0

structure AsyncRequestImpl where
  m_async_response : AsyncResponse
  m_waited : Bool := false
  /-- what `m_wait_callback` captures -/
  result : Option Pointer

structure SequencerHandleImpl where
  m_sequencer_id : UUID
  m_ph : Nat

abbrev SequencerHandle := Option SequencerHandleImpl

inductive HeapEvent where
  | sent (m_ph : Nat) (sequencer_id : UUID) (x y : Int32)
  | invoked (impl : ImplId)
  | waited (impl : ImplId)
  | received (impl : ImplId)
  /-- `*result = value`, by a callback or by a synchronous call -/
  | wrote (source : Option ImplId) (result : Pointer) (value : Int32)
  /-- the last `shared_ptr` is gone -/
  | freed (impl : ImplId)
  deriving DecidableEq

structure Heap where
  self : Pool Owner ImplId
  impl : ImplId → AsyncRequestImpl
  next : ImplId
  memory : Pointer → Int32
  log : List HeapEvent
  terminated : Bool

namespace Heap

def start (memory : Pointer → Int32) : Heap where
  self := .empty
  impl _ := { m_async_response := { answers := fun _ => { m_value := 0 } }, result := none }
  next := 0
  memory := memory
  log := []
  terminated := false

variable (s : Heap)

def record (e : HeapEvent) : Heap := { s with log := s.log ++ [e] }

def store (source : Option ImplId) (result : Pointer) (value : Int32) : Heap :=
  { s with memory := Function.update s.memory result value
           log := s.log ++ [.wrote source result value] }

/-- `m_async_response.wait()`. -/
def consume (i : ImplId) : Heap :=
  { s with
    impl := Function.update s.impl i { s.impl i with
      m_async_response := { (s.impl i).m_async_response with
        waits := (s.impl i).m_async_response.waits + 1 } }
    log := s.log ++ [.waited i] }

def setWaited (i : ImplId) : Heap :=
  { s with impl := Function.update s.impl i { s.impl i with m_waited := true } }

/-- One `shared_ptr` is assigned; an impl that nobody owns any more is freed. -/
def assign (o : Owner) (x : Option ImplId) : Heap :=
  { s with self := s.self.assign o x
           log := s.log ++ ((s.self.released o x).map HeapEvent.freed).toList }

/-- `std::make_shared<AsyncRequestImpl>`, with its callback set. -/
def make_shared (answers : Nat → RequestResult Int32) (result : Option Pointer) : Heap :=
  { s with impl := Function.update s.impl s.next
             { m_async_response := { answers := answers }, result := result }
           next := s.next + 1 }

variable (e : HeapEvent) (i : ImplId) (o : Owner) (x : Option ImplId)

@[simp] theorem self_record : (s.record e).self = s.self := rfl
@[simp] theorem impl_record : (s.record e).impl = s.impl := rfl
@[simp] theorem next_record : (s.record e).next = s.next := rfl
@[simp] theorem log_record : (s.record e).log = s.log ++ [e] := rfl
@[simp] theorem self_assign : (s.assign o x).self = s.self.assign o x := rfl
@[simp] theorem next_assign : (s.assign o x).next = s.next := rfl

theorem assign_none (h : s.self.owner o = none) : s.assign o none = s := by
  have hSelf : s.self.assign o none = s.self := by
    rw [← h]
    exact s.self.assign_owner o
  simp [assign, hSelf, Pool.released, h]

end Heap

abbrev Client := Proc Heap Exception

open Proc (get modify throw noexcept inScope)

namespace AsyncRequest

def self (this : Owner) : Client (Option ImplId) := get fun s => s.self.owner this

def m_wait_callback (i : ImplId) : Client Unit := do
  modify fun s => s.record (.invoked i)
  let async_response ← get fun s => (s.impl i).m_async_response
  modify fun s => s.consume i
  let response := async_response.answers async_response.waits
  if response.success then
    match ← get fun s => (s.impl i).result with
    | some result => modify fun s => s.store (some i) result response.value
    | none => return
  else
    throw ⟨response.error⟩

def wait (this : Owner) : Client Unit := do
  let some i ← self this | throw ⟨"Invalid mobject::AsyncRequest object"⟩
  if ← get fun s => (s.impl i).m_waited then return
  m_wait_callback i
  modify fun s => s.setWaited i

/-- `if(self && self.unique()) wait();`, which opens the destructor and both assignments. -/
def waitIfUnique (this : Owner) : Client Unit := do
  let some i ← self this | return
  if ← get fun s => s.self.uses i == 1 then wait this

/-- `self = other.self`. -/
def copySelf (this other : Owner) : Client Unit := do
  let x ← self other
  modify fun s => s.assign this x

/-- `self = std::move(other.self); other.self = nullptr;`. -/
def moveSelf (this other : Owner) : Client Unit := do
  copySelf this other
  modify fun s => s.assign other none

/-- `~AsyncRequest`, with the destructor of its member. -/
def destructor (this : Owner) : Client Unit := noexcept do
  waitIfUnique this
  modify fun s => s.assign this none

def copyAssign (this other : Owner) : Client Unit := do
  if this = other ∨ (← self this) = (← self other) then return
  waitIfUnique this
  copySelf this other

def moveAssign (this other : Owner) : Client Unit := do
  if this = other ∨ (← self this) = (← self other) then return
  waitIfUnique this
  moveSelf this other

/-- `m_async_response.received()` answers what margo says at that moment. -/
def completed (this : Owner) (received : Bool) : Client Bool := do
  let some i ← self this | throw ⟨"Invalid mobject::AsyncRequest object"⟩
  modify fun s => s.record (.received i)
  return received

end AsyncRequest

open AsyncRequest

/-- `SequencerHandle::computeSum`; a `req` that is not null names an `AsyncRequest` variable. -/
def SequencerHandle.computeSum (self : SequencerHandle) (x y : Int32) (result : Option Pointer)
    (req : Option Nat) (answers : Nat → RequestResult Int32) : Client Unit :=
  match self with
  | none => throw ⟨"Invalid mobject::SequencerHandle object"⟩
  | some self =>
    match req with
    | none => do
      modify fun s => s.record (.sent self.m_ph self.m_sequencer_id x y)
      let response := answers 0
      if response.success then
        match result with
        | some result => modify fun s => s.store none result response.value
        | none => return
      else
        throw ⟨response.error⟩
    | some req => do
      modify fun s => s.record (.sent self.m_ph self.m_sequencer_id x y)
      let i ← get Heap.next
      modify fun s => s.make_shared answers result
      modify fun s => s.assign .async_request_impl (some i)
      inScope (modify fun s => s.assign .async_request_impl none) do
        -- the constructor from a `const std::shared_ptr&` copies the local variable
        copySelf .temporary .async_request_impl
        inScope (destructor .temporary) (moveAssign (.var req) .temporary)

inductive Operation where
  | construct (v : Nat)
  | copyConstruct (v other : Nat)
  | moveConstruct (v other : Nat)
  | copyAssign (v other : Nat)
  | moveAssign (v other : Nat)
  | wait (v : Nat)
  | completed (v : Nat) (received : Bool)
  | destroy (v : Nat)
  | computeSum (handle : SequencerHandle) (x y : Int32) (result : Option Pointer)
      (req : Option Nat) (answers : Nat → RequestResult Int32)

namespace Operation

def run : Operation → Client Unit
  | construct v => modify fun s => s.assign (.var v) none
  | copyConstruct v other => AsyncRequest.copySelf (.var v) (.var other)
  | moveConstruct v other => AsyncRequest.moveSelf (.var v) (.var other)
  | copyAssign v other => AsyncRequest.copyAssign (.var v) (.var other)
  | moveAssign v other => AsyncRequest.moveAssign (.var v) (.var other)
  | wait v => AsyncRequest.wait (.var v)
  | completed v received => do let _ ← AsyncRequest.completed (.var v) received
  | destroy v => AsyncRequest.destructor (.var v)
  | computeSum handle x y result req answers => handle.computeSum x y result req answers

/-- A constructor is called where no object is. -/
def Valid (s : Heap) : Operation → Prop
  | construct v => s.self.owner (.var v) = none
  | copyConstruct v _ => s.self.owner (.var v) = none
  | moveConstruct v _ => s.self.owner (.var v) = none
  | _ => True

end Operation

/-- The heap after an operation. An exception is caught by the caller, who goes on. -/
def Heap.step (s : Heap) (op : Operation) : Heap :=
  match op.run s with
  | (.normal _, t) => t
  | (.threw _, t) => t
  | (.terminated, t) => { t with terminated := true }

def Next (s : Heap) (op : Operation) (t : Heap) : Prop :=
  s.terminated = false ∧ op.Valid s ∧ t = s.step op

end Mobject
