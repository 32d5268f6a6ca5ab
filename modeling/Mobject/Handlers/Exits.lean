import Mobject.ClientImpl

/-! # Every exit of every handler

`Exits` lists, for a request served with no other handler in between, each way the handler can
end: its guard, the responses it sends and the registry it leaves. The results about single
requests are read off this list.
-/
namespace Mobject
open Interleaving
set_option autoImplicit false

variable {BackendType Json : Type}

def Request.add : FactoryMap → String → String → String → Request
  | .create_fn => .createSequencer
  | .open_fn => .openSequencer

variable (provider : ProviderImpl BackendType Json) (world : Outcomes BackendType Json) (s : Registry)

open Response (uuidFailure) in
inductive AddExits (map : FactoryMap) (token type config : String) :
    List Response → Registry → Prop
  | rejected : provider.rejects token = true →
      AddExits map token type config [uuidFailure "Invalid security token"] s
  | parseError (what : String) :
      provider.rejects token = false → provider.parse config = .parse_error what →
      AddExits map token type config [uuidFailure what] s
  | escaped (what : String) :
      provider.rejects token = false → provider.parse config = .out_of_range what →
      AddExits map token type config [] s.terminate
  | threw (what : String) (json : Json) :
      provider.rejects token = false → provider.parse config = .value json →
      provider.factory.sequencer map type json world = .exception what →
      AddExits map token type config [uuidFailure what] s
  | unknown (json : Json) :
      provider.rejects token = false → provider.parse config = .value json →
      provider.factory.sequencer map type json world = .nullptr →
      AddExits map token type config [uuidFailure ("Unknown sequencer type " ++ type)] s
  | added (json : Json) :
      provider.rejects token = false → provider.parse config = .value json →
      provider.factory.sequencer map type json world = .backend →
      AddExits map token type config [.uuid { m_value := world.generated }]
        (s.allocate.bind world.generated s.made)

open Response (boolFailure) in
inductive Exits : Request → List Response → Registry → Prop
  | add (map : FactoryMap) {token type config : String} {sent : List Response} {after : Registry} :
      AddExits provider world s map token type config sent after →
      Exits (.add map token type config) sent after
  | closeRejected (token : String) (sequencer_id : UUID) : provider.rejects token = true →
      Exits (.closeSequencer token sequencer_id) [boolFailure "Invalid security token"] s
  | closeNotFound (token : String) (sequencer_id : UUID) :
      provider.rejects token = false → s.m_backends sequencer_id = none →
      Exits (.closeSequencer token sequencer_id)
        [boolFailure ("Sequencer " ++ provider.to_string sequencer_id ++ " not found")] s
  | closed (token : String) (sequencer_id : UUID) (backend : BackendId) :
      provider.rejects token = false → s.m_backends sequencer_id = some backend →
      Exits (.closeSequencer token sequencer_id) [.bool {}] (s.erase sequencer_id)
  | destroyRejected (token : String) (sequencer_id : UUID) : provider.rejects token = true →
      Exits (.destroySequencer token sequencer_id) [boolFailure "Invalid security token"] s
  | destroyNotFound (token : String) (sequencer_id : UUID) :
      provider.rejects token = false → s.m_backends sequencer_id = none →
      Exits (.destroySequencer token sequencer_id)
        [boolFailure ("Sequencer " ++ provider.to_string sequencer_id ++ " not found")] s
  | destroyThrew (token : String) (sequencer_id : UUID) (backend : BackendId) (what : String) :
      provider.rejects token = false → s.m_backends sequencer_id = some backend →
      world.destroy backend = .threw what →
      Exits (.destroySequencer token sequencer_id) [] s.terminate
  | destroyed (token : String) (sequencer_id : UUID) (backend : BackendId)
      (result : RequestResultBool) :
      provider.rejects token = false → s.m_backends sequencer_id = some backend →
      world.destroy backend = .returned result →
      Exits (.destroySequencer token sequencer_id) [.bool result] (s.erase sequencer_id)
  | checkNotFound (sequencer_id : UUID) : s.m_backends sequencer_id = none →
      Exits (.checkSequencer sequencer_id) [boolFailure (provider.notFoundError sequencer_id)] s
  | checked (sequencer_id : UUID) (backend : BackendId) :
      s.m_backends sequencer_id = some backend →
      Exits (.checkSequencer sequencer_id) [.bool {}] s
  | helloNotFound (sequencer_id : UUID) : s.m_backends sequencer_id = none →
      Exits (.sayHello sequencer_id) [boolFailure (provider.notFoundError sequencer_id)] s
  | helloSaid (sequencer_id : UUID) (backend : BackendId) :
      s.m_backends sequencer_id = some backend →
      Exits (.sayHello sequencer_id) [] (s.afterCall (world.sayHello backend))
  | sumNotFound (sequencer_id : UUID) (x y : Int32) : s.m_backends sequencer_id = none →
      Exits (.computeSum sequencer_id x y)
        [.int32 { m_success := false, m_error := provider.notFoundError sequencer_id,
                  m_value := world.indeterminate }] s
  | sumComputed (sequencer_id : UUID) (x y : Int32) (backend : BackendId)
      (result : RequestResult Int32) : s.m_backends sequencer_id = some backend →
      world.computeSum backend x y = .returned result →
      Exits (.computeSum sequencer_id x y) [.int32 result] s
  | sumThrew (sequencer_id : UUID) (x y : Int32) (backend : BackendId) (what : String) :
      s.m_backends sequencer_id = some backend → world.computeSum backend x y = .threw what →
      Exits (.computeSum sequencer_id x y) [] s.terminate

@[simp] theorem machine_perform (a : Action Json) :
    provider.machine.perform a world s = provider.perform a world s := rfl
@[simp] theorem machine_halted : provider.machine.halted s = s.terminated := rfl

theorem exec_addSequencer (map : FactoryMap) (token type config : String)
    (hLive : s.terminated = false) :
    AddExits provider world s map token type config
      (responses (provider.machine.exec world (provider.addSequencer map token type config) s).1)
      (provider.machine.exec world (provider.addSequencer map token type config) s).2 := by
  simp only [ProviderImpl.addSequencer, Handler.generate, Handler.respond, Handler.escape,
    Handler.factory, Handler.insert, bind, Prog.bind, Prog.call, pure]
  cases hToken : provider.rejects token with
  | true =>
    simp only [Machine.exec, machine_perform, machine_halted, ProviderImpl.perform, hLive,
      ↓reduceIte, Bool.false_eq_true]
    exact .rejected hToken
  | false =>
    cases hParse : provider.parse config with
    | parse_error what =>
      simp only [Machine.exec, machine_perform, machine_halted, ProviderImpl.perform, hLive,
        ↓reduceIte, Bool.false_eq_true]
      exact .parseError what hToken hParse
    | out_of_range what =>
      simp only [Machine.exec, machine_perform, machine_halted, ProviderImpl.perform, hLive,
        ↓reduceIte, Bool.false_eq_true]
      exact .escaped what hToken hParse
    | value json =>
      cases hFactory : provider.factory.sequencer map type json world with
      | exception what =>
        simp only [Machine.exec, machine_perform, machine_halted, ProviderImpl.perform, hLive,
          hFactory, ↓reduceIte, Bool.false_eq_true]
        exact .threw what json hToken hParse hFactory
      | nullptr =>
        simp only [Machine.exec, machine_perform, machine_halted, ProviderImpl.perform, hLive,
          hFactory, ↓reduceIte, Bool.false_eq_true]
        exact .unknown json hToken hParse hFactory
      | backend =>
        simp only [Machine.exec, machine_perform, machine_halted, ProviderImpl.perform, hLive,
          hFactory, ↓reduceIte, Bool.false_eq_true, Registry.terminated_allocate,
          Registry.terminated_bind]
        exact .added json hToken hParse hFactory

theorem exec_closeSequencer (token : String) (sequencer_id : UUID) (hLive : s.terminated = false) :
    Exits provider world s (.closeSequencer token sequencer_id)
      (responses (provider.machine.exec world (provider.closeSequencer token sequencer_id) s).1)
      (provider.machine.exec world (provider.closeSequencer token sequencer_id) s).2 := by
  simp only [ProviderImpl.closeSequencer, Handler.respond, Handler.close, bind, Prog.bind,
    Prog.call, pure]
  cases hToken : provider.rejects token with
  | true =>
    simp only [Machine.exec, machine_perform, machine_halted, ProviderImpl.perform, hLive,
      ↓reduceIte, Bool.false_eq_true]
    exact .closeRejected token sequencer_id hToken
  | false =>
    cases hFind : s.m_backends sequencer_id with
    | none =>
      simp only [Machine.exec, machine_perform, machine_halted, ProviderImpl.perform, hLive, hFind,
        ↓reduceIte, Bool.false_eq_true]
      exact .closeNotFound token sequencer_id hToken hFind
    | some backend =>
      simp only [Machine.exec, machine_perform, machine_halted, ProviderImpl.perform, hLive, hFind,
        ↓reduceIte, Bool.false_eq_true, Registry.terminated_erase]
      exact .closed token sequencer_id backend hToken hFind

theorem exec_destroySequencer (token : String) (sequencer_id : UUID)
    (hLive : s.terminated = false) :
    Exits provider world s (.destroySequencer token sequencer_id)
      (responses (provider.machine.exec world (provider.destroySequencer token sequencer_id) s).1)
      (provider.machine.exec world (provider.destroySequencer token sequencer_id) s).2 := by
  simp only [ProviderImpl.destroySequencer, Handler.respond, Handler.destroy, bind, Prog.bind,
    Prog.call, pure]
  cases hToken : provider.rejects token with
  | true =>
    simp only [Machine.exec, machine_perform, machine_halted, ProviderImpl.perform, hLive,
      ↓reduceIte, Bool.false_eq_true]
    exact .destroyRejected token sequencer_id hToken
  | false =>
    cases hFind : s.m_backends sequencer_id with
    | none =>
      simp only [Machine.exec, machine_perform, machine_halted, ProviderImpl.perform, hLive, hFind,
        ↓reduceIte, Bool.false_eq_true]
      exact .destroyNotFound token sequencer_id hToken hFind
    | some backend =>
      cases hDestroy : world.destroy backend with
      | returned result =>
        simp only [Machine.exec, machine_perform, machine_halted, ProviderImpl.perform, hLive,
          hFind, hDestroy, ↓reduceIte, Bool.false_eq_true, Registry.terminated_erase]
        exact .destroyed token sequencer_id backend result hToken hFind hDestroy
      | threw what =>
        simp only [Machine.exec, machine_perform, machine_halted, ProviderImpl.perform, hLive,
          hFind, hDestroy, ↓reduceIte, Bool.false_eq_true]
        exact .destroyThrew token sequencer_id backend what hToken hFind hDestroy

theorem exec_checkSequencer (sequencer_id : UUID) (hLive : s.terminated = false) :
    Exits provider world s (.checkSequencer sequencer_id)
      (responses (provider.machine.exec world (provider.checkSequencer sequencer_id) s).1)
      (provider.machine.exec world (provider.checkSequencer sequencer_id) s).2 := by
  simp only [ProviderImpl.checkSequencer, Handler.respond, Handler.find, bind, Prog.bind,
    Prog.call, pure]
  cases hFind : s.m_backends sequencer_id with
  | none =>
    simp only [Machine.exec, machine_perform, machine_halted, ProviderImpl.perform, hLive, hFind,
      ↓reduceIte, Bool.false_eq_true]
    exact .checkNotFound sequencer_id hFind
  | some backend =>
    simp only [Machine.exec, machine_perform, machine_halted, ProviderImpl.perform, hLive, hFind,
      ↓reduceIte, Bool.false_eq_true]
    exact .checked sequencer_id backend hFind

theorem exec_sayHello (sequencer_id : UUID) (hLive : s.terminated = false) :
    Exits provider world s (.sayHello sequencer_id)
      (responses (provider.machine.exec world (provider.sayHello sequencer_id) s).1)
      (provider.machine.exec world (provider.sayHello sequencer_id) s).2 := by
  simp only [ProviderImpl.sayHello, Handler.sayHello, Handler.find, bind, Prog.bind, Prog.call, pure]
  cases hFind : s.m_backends sequencer_id with
  | none =>
    simp only [Machine.exec, machine_perform, machine_halted, ProviderImpl.perform, hLive, hFind,
      ↓reduceIte, Bool.false_eq_true]
    exact .helloNotFound sequencer_id hFind
  | some backend =>
    simp only [Machine.exec, machine_perform, machine_halted, ProviderImpl.perform, hLive, hFind,
      ↓reduceIte, Bool.false_eq_true]
    exact .helloSaid sequencer_id backend hFind

theorem exec_computeSum (sequencer_id : UUID) (x y : Int32) (hLive : s.terminated = false) :
    Exits provider world s (.computeSum sequencer_id x y)
      (responses (provider.machine.exec world (provider.computeSum sequencer_id x y) s).1)
      (provider.machine.exec world (provider.computeSum sequencer_id x y) s).2 := by
  simp only [ProviderImpl.computeSum, Handler.uninitialised, Handler.respond, Handler.computeSum,
    Handler.find, bind, Prog.bind, Prog.call, pure]
  cases hFind : s.m_backends sequencer_id with
  | none =>
    simp only [Machine.exec, machine_perform, machine_halted, ProviderImpl.perform, hLive, hFind,
      ↓reduceIte, Bool.false_eq_true]
    exact .sumNotFound sequencer_id x y hFind
  | some backend =>
    cases hSum : world.computeSum backend x y with
    | returned result =>
      simp only [Machine.exec, machine_perform, machine_halted, ProviderImpl.perform, hLive, hFind,
        hSum, Registry.afterCall, ↓reduceIte, Bool.false_eq_true]
      exact .sumComputed sequencer_id x y backend result hFind hSum
    | threw what =>
      simp only [Machine.exec, machine_perform, machine_halted, ProviderImpl.perform, hLive, hFind,
        hSum, Registry.afterCall, ↓reduceIte, Bool.false_eq_true]
      exact .sumThrew sequencer_id x y backend what hFind hSum

theorem handle_exits (request : Request) (hLive : s.terminated = false) :
    Exits provider world s request (responses (provider.handle world request s).1)
      (provider.handle world request s).2 := by
  cases request with
  | createSequencer token type config =>
    exact .add .create_fn (exec_addSequencer provider world s .create_fn _ _ _ hLive)
  | openSequencer token type config =>
    exact .add .open_fn (exec_addSequencer provider world s .open_fn _ _ _ hLive)
  | closeSequencer token sequencer_id => exact exec_closeSequencer provider world s _ _ hLive
  | destroySequencer token sequencer_id => exact exec_destroySequencer provider world s _ _ hLive
  | checkSequencer sequencer_id => exact exec_checkSequencer provider world s _ hLive
  | sayHello sequencer_id => exact exec_sayHello provider world s _ hLive
  | computeSum sequencer_id x y => exact exec_computeSum provider world s _ _ _ hLive

/-- What is said of `handle` is said of a run in which the steps of one handler come together. -/
theorem handle_scheduled {ι : Type} [DecidableEq ι] (request : Request) (k : ι)
    (c : Config ι Registry (Action Json) Answer Unit) (hRest : c.rest k = provider.handler request) :
    ∃ n, (provider.machine.run c (List.replicate n (k, world))).shared =
        (provider.handle world request c.shared).2 ∧
      (provider.machine.run c (List.replicate n (k, world))).log =
        c.log ++ (provider.handle world request c.shared).1.map fun e => (k, e) :=
  provider.machine.run_alone world k _ c hRest

end Mobject
