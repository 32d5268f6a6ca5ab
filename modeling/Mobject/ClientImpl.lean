import Mobject.ProviderImpl

/-! # The two sides of an RPC

`ClientImpl`, `AdminImpl` and the constructor of `ProviderImpl` each define the RPCs by name, in
different libraries. Only the client side can disable the response.
-/
namespace Mobject
set_option autoImplicit false

/-- `tl::remote_procedure` as the calling side sees it. -/
structure RemoteProcedure where
  name : String
  response : Bool
  deriving DecidableEq

def RemoteProcedure.define (name : String) : RemoteProcedure := ⟨name, true⟩

def RemoteProcedure.disable_response (rpc : RemoteProcedure) : RemoteProcedure :=
  { rpc with response := false }

open RemoteProcedure (define)

namespace ClientImpl

def m_check_sequencer : RemoteProcedure := define "mobject_check_sequencer"
def m_say_hello : RemoteProcedure := (define "mobject_say_hello").disable_response
def m_compute_sum : RemoteProcedure := define "mobject_compute_sum"

end ClientImpl

namespace AdminImpl

def m_create_sequencer : RemoteProcedure := define "mobject_create_sequencer"
def m_open_sequencer : RemoteProcedure := define "mobject_open_sequencer"
def m_close_sequencer : RemoteProcedure := define "mobject_close_sequencer"
def m_destroy_sequencer : RemoteProcedure := define "mobject_destroy_sequencer"

end AdminImpl

def callers : List RemoteProcedure :=
  [AdminImpl.m_create_sequencer, AdminImpl.m_open_sequencer, AdminImpl.m_close_sequencer,
    AdminImpl.m_destroy_sequencer, ClientImpl.m_check_sequencer, ClientImpl.m_say_hello,
    ClientImpl.m_compute_sum]

def expectsResponse (name : String) : Bool := callers.any fun rpc => rpc.name == name && rpc.response

/-- The name under which `ProviderImpl` registers the handler that serves the request. -/
def Request.rpc : Request → String
  | .createSequencer .. => "mobject_create_sequencer"
  | .openSequencer .. => "mobject_open_sequencer"
  | .closeSequencer .. => "mobject_close_sequencer"
  | .destroySequencer .. => "mobject_destroy_sequencer"
  | .checkSequencer .. => "mobject_check_sequencer"
  | .sayHello .. => "mobject_say_hello"
  | .computeSum .. => "mobject_compute_sum"

theorem expectsResponse_rpc (request : Request) :
    expectsResponse request.rpc = true ↔ ∀ sequencer_id, request ≠ .sayHello sequencer_id := by
  cases request <;> simp [Request.rpc] <;> decide

@[simp] theorem expectsResponse_sayHello (sequencer_id : UUID) :
    expectsResponse (Request.sayHello sequencer_id).rpc = false :=
  Bool.eq_false_iff.mpr fun h => (expectsResponse_rpc _).mp h sequencer_id rfl

end Mobject
