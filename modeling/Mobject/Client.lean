import Mobject.ClientImpl
import Mobject.Serialization
import Mobject.AsyncRequest

/-! # The client functions and what the provider receives

`Admin.cpp`, `Client.cpp` and the calls of `SequencerHandle.cpp`, each around its one RPC; and the
parameters by which the handlers of `ProviderImpl` are called. The address and the provider id
choose the provider, so they are left out.
-/
namespace Mobject
open Codecs
set_option autoImplicit false

/-- A client function makes one RPC at most; the bytes of the response may not be readable. -/
inductive Remote (α : Type) where
  | exit (result : Except Exception α)
  | call (rpc : RemoteProcedure) (arguments : List UInt8)
      (receive : List UInt8 → Option (Except Exception α))

/-- How the function ends when these bytes come back. -/
def Remote.finish {α : Type} (response : List UInt8) : Remote α → Option (Except Exception α)
  | .exit result => some result
  | .call _ _ receive => receive response

/-- `R result = rpc.on(ph)(arguments...)`, and what follows. -/
def RemoteProcedure.on {R α : Type} (rpc : RemoteProcedure) (arguments : List UInt8) (result : Codec R)
    (next : R → Except Exception α) : Remote α :=
  .call rpc arguments fun bytes => (result.read bytes).map fun received => next received.1

variable (a : Archive)

/-- The parameters `(token, sequencer_type, sequencer_config)`. -/
def Archive.typed : Codec (String × String × String) := a.string.and (a.string.and a.string)

/-- The parameters `(token, sequencer_id)`. -/
def Archive.authorised : Codec (String × UUID) := a.string.and (UUID.codec a)

/-- The parameters `(sequencer_id, x, y)`. -/
def Archive.summands : Codec (UUID × Int32 × Int32) := (UUID.codec a).and (a.int32.and a.int32)

namespace Admin

def createSequencer (sequencer_type sequencer_config token : String) : Remote UUID :=
  AdminImpl.m_create_sequencer.on (a.typed.write (token, sequencer_type, sequencer_config))
    (RequestResult.serialize a (UUID.codec a)) fun result => do
      if !result.success then throw ⟨result.error⟩
      return result.value

def openSequencer (sequencer_type sequencer_config token : String) : Remote UUID :=
  AdminImpl.m_open_sequencer.on (a.typed.write (token, sequencer_type, sequencer_config))
    (RequestResult.serialize a (UUID.codec a)) fun result => do
      if !result.success then throw ⟨result.error⟩
      return result.value

def closeSequencer (sequencer_id : UUID) (token : String) : Remote Unit :=
  AdminImpl.m_close_sequencer.on (a.authorised.write (token, sequencer_id))
    (RequestResultBool.serialize a) fun result => do
      if !result.success then throw ⟨result.error⟩

def destroySequencer (sequencer_id : UUID) (token : String) : Remote Unit :=
  AdminImpl.m_destroy_sequencer.on (a.authorised.write (token, sequencer_id))
    (RequestResultBool.serialize a) fun result => do
      if !result.success then throw ⟨result.error⟩

end Admin

def Client.handleOf (m_ph : Nat) (sequencer_id : UUID) (result : RequestResultBool) :
    Except Exception SequencerHandle := do
  if result.success then return some ⟨sequencer_id, m_ph⟩
  throw ⟨result.error⟩

def Client.makeSequencerHandle (m_ph : Nat) (sequencer_id : UUID) (check : Bool) :
    Remote SequencerHandle :=
  if check then
    ClientImpl.m_check_sequencer.on ((UUID.codec a).write sequencer_id)
      (RequestResultBool.serialize a) (Client.handleOf m_ph sequencer_id)
  else .exit (Client.handleOf m_ph sequencer_id { m_success := true })

/-- `rpc.on(ph)(sequencer_id, x, y)`, of which both branches of `SequencerHandle::computeSum` make
a `RequestResult<int32_t>`, one of them later. -/
def SequencerHandle.compute_sum (sequencer_id : UUID) (x y : Int32) : Remote (RequestResult Int32) :=
  ClientImpl.m_compute_sum.on (a.summands.write (sequencer_id, x, y))
    (RequestResult.serialize a a.int32) fun response => return response

def SequencerHandle.say_hello (sequencer_id : UUID) : Remote Unit :=
  -- the response of this RPC is disabled
  .call ClientImpl.m_say_hello ((UUID.codec a).write sequencer_id) fun _ => some (.ok ())

/-- The handler that `ProviderImpl` defines under this name, with its parameters read. -/
def Request.receive (rpc : String) (arguments : List UInt8) : Option Request :=
  if rpc = "mobject_create_sequencer" then
    (a.typed.read arguments).map fun r => .createSequencer r.1.1 r.1.2.1 r.1.2.2
  else if rpc = "mobject_open_sequencer" then
    (a.typed.read arguments).map fun r => .openSequencer r.1.1 r.1.2.1 r.1.2.2
  else if rpc = "mobject_close_sequencer" then
    (a.authorised.read arguments).map fun r => .closeSequencer r.1.1 r.1.2
  else if rpc = "mobject_destroy_sequencer" then
    (a.authorised.read arguments).map fun r => .destroySequencer r.1.1 r.1.2
  else if rpc = "mobject_check_sequencer" then
    ((UUID.codec a).read arguments).map fun r => .checkSequencer r.1
  else if rpc = "mobject_say_hello" then
    ((UUID.codec a).read arguments).map fun r => .sayHello r.1
  else if rpc = "mobject_compute_sum" then
    (a.summands.read arguments).map fun r => .computeSum r.1.1 r.1.2.1 r.1.2.2
  else none

def Remote.request {α : Type} : Remote α → Option Request
  | .exit _ => none
  | .call rpc arguments _ => Request.receive a rpc.name arguments

section Received
variable (token sequencer_type sequencer_config : String) (sequencer_id : UUID) (m_ph : Nat)
  (x y : Int32)

@[simp] theorem request_createSequencer :
    (Admin.createSequencer a sequencer_type sequencer_config token).request a =
      some (.createSequencer token sequencer_type sequencer_config) := by
  change (a.typed.read (a.typed.write _)).map _ = _
  rw [a.typed.read_write_nil]
  rfl

@[simp] theorem request_openSequencer :
    (Admin.openSequencer a sequencer_type sequencer_config token).request a =
      some (.openSequencer token sequencer_type sequencer_config) := by
  change (a.typed.read (a.typed.write _)).map _ = _
  rw [a.typed.read_write_nil]
  rfl

@[simp] theorem request_closeSequencer : (Admin.closeSequencer a sequencer_id token).request a =
    some (.closeSequencer token sequencer_id) := by
  change (a.authorised.read (a.authorised.write _)).map _ = _
  rw [a.authorised.read_write_nil]
  rfl

@[simp] theorem request_destroySequencer : (Admin.destroySequencer a sequencer_id token).request a =
    some (.destroySequencer token sequencer_id) := by
  change (a.authorised.read (a.authorised.write _)).map _ = _
  rw [a.authorised.read_write_nil]
  rfl

@[simp] theorem request_makeSequencerHandle :
    (Client.makeSequencerHandle a m_ph sequencer_id true).request a =
      some (.checkSequencer sequencer_id) := by
  change ((UUID.codec a).read ((UUID.codec a).write _)).map _ = _
  rw [(UUID.codec a).read_write_nil]
  rfl

@[simp] theorem request_say_hello : (SequencerHandle.say_hello a sequencer_id).request a =
    some (.sayHello sequencer_id) := by
  change ((UUID.codec a).read ((UUID.codec a).write _)).map _ = _
  rw [(UUID.codec a).read_write_nil]
  rfl

@[simp] theorem request_compute_sum : (SequencerHandle.compute_sum a sequencer_id x y).request a =
    some (.computeSum sequencer_id x y) := by
  change (a.summands.read (a.summands.write _)).map _ = _
  rw [a.summands.read_write_nil]
  rfl

end Received

theorem finish_on {R α : Type} (rpc : RemoteProcedure) (arguments : List UInt8) (codec : Codec R)
    (next : R → Except Exception α) (result : R) (rest : List UInt8) :
    (rpc.on arguments codec next).finish (codec.write result ++ rest) = some (next result) := by
  simp [RemoteProcedure.on, Remote.finish, codec.read_write]

end Mobject
