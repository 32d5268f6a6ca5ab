import Mobject.RequestResult
import Mobject.Library.Interleaving

/-! # The provider and its seven RPC handlers

A handler is a program over the actions below. A block under `m_backends_mtx` is one action,
and so is a backend call made outside the lock; a `req.respond` inside a locked block belongs to
that block. Logging and the engine argument of the factories are left out: no result reads them.
-/
namespace Mobject
open Interleaving
set_option autoImplicit false

/-- The identity of a backend object: the number of objects the factories had made before it. -/
abbrev BackendId := Nat

/-- `nlohmann::json::parse`: a value, `parse_error`, or `out_of_range`, its sibling under
`json::exception`. -/
inductive ParseResult (Json : Type) where
  | value (json : Json)
  | parse_error (what : String)
  | out_of_range (what : String)

inductive FactoryResult where
  | backend
  | nullptr
  | exception (what : String)
  deriving DecidableEq

inductive MethodResult (α : Type) where
  | returned (value : α)
  | threw (what : String)
  deriving DecidableEq

inductive FactoryMap where
  | create_fn
  | open_fn
  deriving DecidableEq

structure SequencerFactory (BackendType : Type) where
  create_fn : String → Option BackendType
  open_fn : String → Option BackendType

def SequencerFactory.fn {BackendType : Type} (factory : SequencerFactory BackendType) :
    FactoryMap → String → Option BackendType
  | .create_fn => factory.create_fn
  | .open_fn => factory.open_fn

/-- What the handlers of one provider read and never write: the token, the registered backend
types, and the two libraries they call (nlohmann::json and libuuid). -/
structure ProviderImpl (BackendType Json : Type) where
  m_token : String
  factory : SequencerFactory BackendType
  parse : String → ParseResult Json
  uuid_unparse : UUID → String

/-- What the world outside the handlers decides when one step is taken. -/
structure Outcomes (BackendType Json : Type) where
  generated : UUID
  indeterminate : Int32
  invoke : FactoryMap → BackendType → Json → FactoryResult
  sayHello : BackendId → MethodResult Unit
  computeSum : BackendId → Int32 → Int32 → MethodResult (RequestResult Int32)
  destroy : BackendId → MethodResult RequestResultBool

structure Registry where
  m_backends : UUID → Option BackendId
  made : BackendId
  /-- an exception has left a handler: `std::terminate` -/
  terminated : Bool

namespace Registry

def empty : Registry := ⟨fun _ => none, 0, false⟩

def bind (s : Registry) (sequencer_id : UUID) (backend : BackendId) : Registry :=
  { s with m_backends := Function.update s.m_backends sequencer_id (some backend) }

def erase (s : Registry) (sequencer_id : UUID) : Registry :=
  { s with m_backends := Function.update s.m_backends sequencer_id none }

def allocate (s : Registry) : Registry := { s with made := s.made + 1 }

def terminate (s : Registry) : Registry := { s with terminated := true }

variable (s : Registry) (sequencer_id : UUID) (backend : BackendId)

@[simp] theorem m_backends_bind : (s.bind sequencer_id backend).m_backends =
    Function.update s.m_backends sequencer_id (some backend) := rfl
@[simp] theorem m_backends_erase : (s.erase sequencer_id).m_backends =
    Function.update s.m_backends sequencer_id none := rfl
@[simp] theorem m_backends_allocate : s.allocate.m_backends = s.m_backends := rfl
@[simp] theorem m_backends_terminate : s.terminate.m_backends = s.m_backends := rfl
@[simp] theorem terminated_bind : (s.bind sequencer_id backend).terminated = s.terminated := rfl
@[simp] theorem terminated_erase : (s.erase sequencer_id).terminated = s.terminated := rfl
@[simp] theorem terminated_allocate : s.allocate.terminated = s.terminated := rfl
@[simp] theorem terminated_terminate : s.terminate.terminated = true := rfl

end Registry

inductive Action (Json : Type) where
  | generate
  | uninitialised
  | factory (map : FactoryMap) (backend_name : String) (config : Json)
  | insert (sequencer_id : UUID) (backend : BackendId)
  | find (sequencer_id : UUID) (notFound : Response)
  | close (sequencer_id : UUID) (notFound : Response)
  | destroy (sequencer_id : UUID) (notFound : Response)
  | sayHello (sequencer : BackendId)
  | computeSum (sequencer : BackendId) (x y : Int32)
  | respond (result : Response)
  | escape (what : String)

/-- The `std::unique_ptr<Backend>` a factory call returns, or the exception it throws. -/
inductive FactoryAnswer where
  | backend (backend : BackendId)
  | nullptr
  | exception (what : String)

/-- How the locked block of `destroySequencer` ends; `called` and `threw` name the backend. -/
inductive DestroyAnswer where
  | notFound
  | called (backend : BackendId) (result : RequestResultBool)
  | threw (backend : BackendId) (what : String)

def Answer {Json : Type} : Action Json → Type
  | .generate => UUID
  | .uninitialised => Int32
  | .factory .. => FactoryAnswer
  | .insert .. => Unit
  | .find .. => Option BackendId
  | .close .. => Bool
  | .destroy .. => DestroyAnswer
  | .sayHello .. => MethodResult Unit
  | .computeSum .. => MethodResult (RequestResult Int32)
  | .respond .. => Unit
  | .escape .. => Unit

variable {BackendType Json : Type}

/-- `SequencerFactory::createSequencer` and `SequencerFactory::openSequencer`. -/
def SequencerFactory.sequencer (factory : SequencerFactory BackendType) (map : FactoryMap)
    (backend_name : String) (config : Json) (world : Outcomes BackendType Json) : FactoryResult :=
  match factory.fn map backend_name with
  | none => .nullptr
  | some f => world.invoke map f config

/-- No handler catches what a backend method throws, so a throw ends the process. -/
def Registry.afterCall {α : Type} (s : Registry) : MethodResult α → Registry
  | .returned _ => s
  | .threw _ => s.terminate

def ProviderImpl.perform (self : ProviderImpl BackendType Json) :
    (a : Action Json) → Outcomes BackendType Json → Registry → Answer a × Registry
  | .generate, world, s => (world.generated, s)
  | .uninitialised, world, s => (world.indeterminate, s)
  | .factory map backend_name config, world, s =>
    match self.factory.sequencer map backend_name config world with
    | .backend => (.backend s.made, s.allocate)
    | .nullptr => (.nullptr, s)
    | .exception what => (.exception what, s)
  | .insert sequencer_id backend, _, s =>
    ((), s.bind sequencer_id backend)
  | .find sequencer_id _, _, s => (s.m_backends sequencer_id, s)
  | .close sequencer_id _, _, s =>
    match s.m_backends sequencer_id with
    | none => (false, s)
    | some _ => (true, s.erase sequencer_id)
  | .destroy sequencer_id _, world, s =>
    match s.m_backends sequencer_id with
    | none => (.notFound, s)
    | some backend =>
      match world.destroy backend with
      | .returned result => (.called backend result, s.erase sequencer_id)
      -- the exception leaves before `erase` is reached
      | .threw what => (.threw backend what, s.terminate)
  | .sayHello sequencer, world, s => (world.sayHello sequencer, s.afterCall (world.sayHello sequencer))
  | .computeSum sequencer x y, world, s =>
    (world.computeSum sequencer x y, s.afterCall (world.computeSum sequencer x y))
  | .respond _, _, s => ((), s)
  | .escape _, _, s => ((), s.terminate)

def ProviderImpl.machine (self : ProviderImpl BackendType Json) :
    Machine Registry (Outcomes BackendType Json) (Action Json) Answer where
  perform := self.perform
  halted := Registry.terminated

abbrev Handler (Json : Type) := Prog (Action Json) Answer

namespace Handler
open Prog (call)

def generate : Handler Json UUID := call Action.generate
def uninitialised : Handler Json Int32 := call Action.uninitialised
def factory (map : FactoryMap) (backend_name : String) (config : Json) :
    Handler Json FactoryAnswer := call (Action.factory map backend_name config)
def insert (sequencer_id : UUID) (backend : BackendId) : Handler Json Unit :=
  call (Action.insert sequencer_id backend)
def find (sequencer_id : UUID) (notFound : Response) : Handler Json (Option BackendId) :=
  call (Action.find sequencer_id notFound)
def close (sequencer_id : UUID) (notFound : Response) : Handler Json Bool :=
  call (Action.close sequencer_id notFound)
def destroy (sequencer_id : UUID) (notFound : Response) : Handler Json DestroyAnswer :=
  call (Action.destroy sequencer_id notFound)
def sayHello (sequencer : BackendId) : Handler Json (MethodResult Unit) :=
  call (Action.sayHello sequencer)
def computeSum (sequencer : BackendId) (x y : Int32) :
    Handler Json (MethodResult (RequestResult Int32)) := call (Action.computeSum sequencer x y)
def respond (result : Response) : Handler Json Unit := call (Action.respond result)
def escape (what : String) : Handler Json Unit := call (Action.escape what)

end Handler

namespace ProviderImpl

variable (self : ProviderImpl BackendType Json)

def to_string (sequencer_id : UUID) : String := self.uuid_unparse sequencer_id

/-- The guard that opens every admin handler. -/
def rejects (token : String) : Bool := self.m_token.length > 0 && self.m_token != token

/-- `createSequencer` and `openSequencer` differ in the factory map they use. -/
def addSequencer (map : FactoryMap) (token sequencer_type sequencer_config : String) :
    Handler Json Unit := do
  let sequencer_id ← Handler.generate
  let result : RequestResult UUID := { m_value := .cleared }
  if self.rejects token then
    Handler.respond (.uuid { result with
      m_success := false, m_error := "Invalid security token" })
    return
  match self.parse sequencer_config with
  | .parse_error what =>
    Handler.respond (.uuid { result with m_error := what, m_success := false })
  -- only `json::parse_error` is caught here
  | .out_of_range what => Handler.escape what
  | .value json_config =>
    match ← Handler.factory map sequencer_type json_config with
    | .exception what =>
      Handler.respond (.uuid { result with m_success := false, m_error := what })
    | .nullptr =>
      Handler.respond (.uuid { result with
        m_success := false, m_error := "Unknown sequencer type " ++ sequencer_type })
    | .backend backend =>
      Handler.insert sequencer_id backend
      Handler.respond (.uuid { result with m_value := sequencer_id })

def createSequencer (token sequencer_type sequencer_config : String) : Handler Json Unit :=
  self.addSequencer .create_fn token sequencer_type sequencer_config

def openSequencer (token sequencer_type sequencer_config : String) : Handler Json Unit :=
  self.addSequencer .open_fn token sequencer_type sequencer_config

def closeSequencer (token : String) (sequencer_id : UUID) : Handler Json Unit := do
  let result : RequestResultBool := {}
  if self.rejects token then
    Handler.respond (.bool { result with
      m_success := false, m_error := "Invalid security token" })
    return
  let notFound : RequestResultBool := { result with
    m_success := false, m_error := "Sequencer " ++ self.to_string sequencer_id ++ " not found" }
  if ← Handler.close sequencer_id (.bool notFound) then
    Handler.respond (.bool result)

def destroySequencer (token : String) (sequencer_id : UUID) : Handler Json Unit := do
  let result : RequestResultBool := {}
  if self.rejects token then
    Handler.respond (.bool { result with
      m_success := false, m_error := "Invalid security token" })
    return
  let notFound : RequestResultBool := { result with
    m_success := false, m_error := "Sequencer " ++ self.to_string sequencer_id ++ " not found" }
  match ← Handler.destroy sequencer_id (.bool notFound) with
  | .notFound => return
  | .threw _ _ => return
  | .called _ result => Handler.respond (.bool result)

/-- The error of the macro `FIND_SEQUENCER`. -/
def notFoundError (sequencer_id : UUID) : String :=
  "Sequencer with UUID " ++ self.to_string sequencer_id ++ " not found"

def checkSequencer (sequencer_id : UUID) : Handler Json Unit := do
  let result : RequestResultBool := {}
  let some _ ← Handler.find sequencer_id (.bool { result with
      m_success := false, m_error := self.notFoundError sequencer_id })
    | return
  Handler.respond (.bool { result with m_success := true })

def sayHello (sequencer_id : UUID) : Handler Json Unit := do
  let result : RequestResultBool := {}
  let some sequencer ← Handler.find sequencer_id (.bool { result with
      m_success := false, m_error := self.notFoundError sequencer_id })
    | return
  let _ ← Handler.sayHello sequencer

def computeSum (sequencer_id : UUID) (x y : Int32) : Handler Json Unit := do
  let m_value ← Handler.uninitialised
  let result : RequestResult Int32 := { m_value := m_value }
  let some sequencer ← Handler.find sequencer_id (.int32 { result with
      m_success := false, m_error := self.notFoundError sequencer_id })
    | return
  match ← Handler.computeSum sequencer x y with
  | .returned result => Handler.respond (.int32 result)
  | .threw _ => return

end ProviderImpl

inductive Request where
  | createSequencer (token sequencer_type sequencer_config : String)
  | openSequencer (token sequencer_type sequencer_config : String)
  | closeSequencer (token : String) (sequencer_id : UUID)
  | destroySequencer (token : String) (sequencer_id : UUID)
  | checkSequencer (sequencer_id : UUID)
  | sayHello (sequencer_id : UUID)
  | computeSum (sequencer_id : UUID) (x y : Int32)
  deriving DecidableEq

def ProviderImpl.handler (self : ProviderImpl BackendType Json) : Request → Handler Json Unit
  | .createSequencer token sequencer_type sequencer_config =>
    self.createSequencer token sequencer_type sequencer_config
  | .openSequencer token sequencer_type sequencer_config =>
    self.openSequencer token sequencer_type sequencer_config
  | .closeSequencer token sequencer_id => self.closeSequencer token sequencer_id
  | .destroySequencer token sequencer_id => self.destroySequencer token sequencer_id
  | .checkSequencer sequencer_id => self.checkSequencer sequencer_id
  | .sayHello sequencer_id => self.sayHello sequencer_id
  | .computeSum sequencer_id x y => self.computeSum sequencer_id x y

/-- The response an event sends; a lookup that fails answers inside its locked block. -/
def Event.response : Event (@Answer Json) → Option Response
  | ⟨.respond result, _⟩ => some result
  | ⟨.find _ notFound, none⟩ => some notFound
  | ⟨.close _ notFound, false⟩ => some notFound
  | ⟨.destroy _ notFound, .notFound⟩ => some notFound
  | _ => none

def responses (events : List (Event (@Answer Json))) : List Response :=
  events.filterMap Event.response

/-- A handler run with no other handler in between, from `s`. -/
def ProviderImpl.handle (self : ProviderImpl BackendType Json) (world : Outcomes BackendType Json)
    (request : Request) (s : Registry) : List (Event (@Answer Json)) × Registry :=
  self.machine.exec world (self.handler request) s

end Mobject
