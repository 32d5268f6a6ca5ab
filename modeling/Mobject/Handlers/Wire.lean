import Mobject.Client
import Mobject.Handlers.Linearizable
import Mobject.Requests.Refinement

/-! # What the client observes is what the provider answered

Every response of a handler is of the type that the client function of its RPC reads, in any
interleaving; the codecs do the rest.
-/
namespace Mobject
open Interleaving Codecs Runs
set_option autoImplicit false

variable {BackendType Json ι : Type}

/-- The template argument of the `RequestResult` a response is made of. -/
inductive ResultType where
  | uuid
  | bool
  | int32
  deriving DecidableEq

def Response.type : Response → ResultType
  | .uuid _ => .uuid
  | .bool _ => .bool
  | .int32 _ => .int32

def Request.resultType : Request → ResultType
  | .createSequencer .. => .uuid
  | .openSequencer .. => .uuid
  | .closeSequencer .. => .bool
  | .destroySequencer .. => .bool
  | .checkSequencer _ => .bool
  | .sayHello _ => .bool
  | .computeSum .. => .int32

def Action.sends : Action Json → Option Response
  | .respond response => some response
  | .find _ notFound => some notFound
  | .close _ notFound => some notFound
  | .destroy _ notFound => some notFound
  | _ => none

theorem Event.sends_of_response {e : Event (@Answer Json)} {response : Response}
    (h : Event.response e = some response) : e.1.sends = some response := by
  obtain ⟨a, answer⟩ := e
  cases a with
  | respond => exact h
  | find => cases answer with
    | none => exact h
    | some => cases h
  | close => cases answer with
    | false => exact h
    | true => cases h
  | destroy => cases answer with
    | notFound => exact h
    | called | threw => cases h
  | generate | uninitialised | factory | insert | sayHello | computeSum | escape => cases h

/-- A handler sends responses of one type. Only where that is `int32_t` does it declare a `result`
whose value has no initialiser. -/
structure Typed (request : Request) (_ : List (Event (@Answer Json))) (a : Action Json) : Prop where
  uninitialised : a = .uninitialised → request.resultType = .int32
  sends : ∀ response, a.sends = some response → response.type = request.resultType

variable (provider : ProviderImpl BackendType Json)

theorem Typed.quiet {request : Request} {t : List (Event (@Answer Json))} {a : Action Json}
    (h : a.sends = none) (hInitialised : a ≠ .uninitialised) : Typed request t a := by
  refine ⟨fun hEq => absurd hEq hInitialised, fun response hSends => ?_⟩
  rw [h] at hSends
  cases hSends

theorem Typed.sent {request : Request} {t : List (Event (@Answer Json))} {a : Action Json}
    {response : Response} (h : a.sends = some response) (hType : response.type = request.resultType) :
    Typed request t a := by
  constructor
  · rintro rfl
    cases h
  · intro other hSends
    rw [h] at hSends
    exact Option.some.inj hSends ▸ hType

theorem addSequencer_typed {request : Request} (hType : request.resultType = .uuid) (map : FactoryMap)
    (token type config : String) :
    Along (Typed request) (provider.addSequencer map token type config) [] := by
  have hSent : ∀ (t : List (Event (@Answer Json))) (result : RequestResult UUID),
      Typed request t (.respond (.uuid result)) := fun t result => .sent rfl hType.symm
  refine ⟨.quiet rfl (by simp), fun sequencer_id => ?_⟩
  cases provider.rejects token with
  | true => exact ⟨hSent _ _, fun _ => trivial⟩
  | false =>
    simp only [Bool.false_eq_true, ↓reduceIte]
    cases provider.parse config with
    | parse_error what => exact ⟨hSent _ _, fun _ => trivial⟩
    | out_of_range what => exact ⟨.quiet rfl (by simp), fun _ => trivial⟩
    | value json =>
      refine ⟨.quiet rfl (by simp), fun answer => ?_⟩
      match answer with
      | .exception what => exact ⟨hSent _ _, fun _ => trivial⟩
      | .nullptr => exact ⟨hSent _ _, fun _ => trivial⟩
      | .backend backend => exact ⟨.quiet rfl (by simp), fun _ => ⟨hSent _ _, fun _ => trivial⟩⟩

theorem closeSequencer_typed (token : String) (sequencer_id : UUID) :
    Along (Typed (.closeSequencer token sequencer_id)) (provider.closeSequencer token sequencer_id)
      [] := by
  unfold ProviderImpl.closeSequencer
  cases provider.rejects token with
  | true => exact ⟨.sent rfl rfl, fun _ => trivial⟩
  | false =>
    refine ⟨.sent rfl rfl, fun answer => ?_⟩
    cases answer with
    | true => exact ⟨.sent rfl rfl, fun _ => trivial⟩
    | false => exact trivial

theorem destroySequencer_typed (token : String) (sequencer_id : UUID) :
    Along (Typed (.destroySequencer token sequencer_id))
      (provider.destroySequencer token sequencer_id) [] := by
  unfold ProviderImpl.destroySequencer
  cases provider.rejects token with
  | true => exact ⟨.sent rfl rfl, fun _ => trivial⟩
  | false =>
    refine ⟨.sent rfl rfl, fun answer => ?_⟩
    match answer with
    | .notFound => exact trivial
    | .threw _ _ => exact trivial
    | .called _ result => exact ⟨.sent rfl rfl, fun _ => trivial⟩

theorem checkSequencer_typed (sequencer_id : UUID) :
    Along (Typed (.checkSequencer sequencer_id)) (provider.checkSequencer sequencer_id) [] := by
  refine ⟨.sent rfl rfl, fun answer => ?_⟩
  match answer with
  | none => exact trivial
  | some _ => exact ⟨.sent rfl rfl, fun _ => trivial⟩

theorem sayHello_typed (sequencer_id : UUID) :
    Along (Typed (.sayHello sequencer_id)) (provider.sayHello sequencer_id) [] := by
  refine ⟨.sent rfl rfl, fun answer => ?_⟩
  match answer with
  | none => exact trivial
  | some _ => exact ⟨.quiet rfl (by simp), fun _ => trivial⟩

theorem computeSum_typed (sequencer_id : UUID) (x y : Int32) :
    Along (Typed (.computeSum sequencer_id x y)) (provider.computeSum sequencer_id x y) [] := by
  have hDeclared : ∀ t : List (Event (@Answer Json)),
      Typed (.computeSum sequencer_id x y) t .uninitialised :=
    fun t => ⟨fun _ => rfl, fun _ hSends => by cases hSends⟩
  refine ⟨hDeclared [], fun _ => ⟨.sent rfl rfl, fun answer => ?_⟩⟩
  match answer with
  | none => exact trivial
  | some backend =>
    refine ⟨.quiet rfl (by simp), fun answer => ?_⟩
    match answer with
    | .threw _ => exact trivial
    | .returned result => exact ⟨.sent rfl rfl, fun _ => trivial⟩

theorem handler_typed (request : Request) :
    Along (Typed request) (provider.handler request) [] := by
  cases request with
  | createSequencer token type config => exact addSequencer_typed provider rfl .create_fn _ _ _
  | openSequencer token type config => exact addSequencer_typed provider rfl .open_fn _ _ _
  | closeSequencer token sequencer_id => exact closeSequencer_typed provider token sequencer_id
  | destroySequencer token sequencer_id => exact destroySequencer_typed provider token sequencer_id
  | checkSequencer sequencer_id => exact checkSequencer_typed provider sequencer_id
  | sayHello sequencer_id => exact sayHello_typed provider sequencer_id
  | computeSum sequencer_id x y => exact computeSum_typed provider sequencer_id x y

variable {provider} in
theorem Served.typed [DecidableEq ι] {requests : ι → Request} {s : Registry} {log : Log ι Json}
    (h : Served provider requests s log) {k : ι} {e : Event (@Answer Json)} (hMem : (k, e) ∈ log)
    {response : Response} (hResponse : Event.response e = some response) :
    response.type = (requests k).resultType := by
  obtain ⟨pre, post, hLog⟩ := List.append_of_mem hMem
  obtain ⟨_, _, _, _, _, hPath, _⟩ := Reaches.split _ h pre post k e hLog
  exact (hPath.along [] (handler_typed provider (requests k))).sends response
    (Event.sends_of_response hResponse)

variable (a : Archive)

/-- The function sends this request, and ends with the value or with the error of the response. -/
def Remote.Observes {α : Type} (f : Remote α) (request : Request) (response : Response) (value : α) :
    Prop :=
  f.request a = some request ∧ ∀ rest, f.finish (response.encode a ++ rest) =
    some (if response.success then .ok value else .error ⟨response.error⟩)

/-- `computeSum` reads this response, and delivers it to a synchronous caller or to the first wait. -/
def ObservesSum (sequencer_id : UUID) (x y : Int32) (response : RequestResult Int32) : Prop :=
  (SequencerHandle.compute_sum a sequencer_id x y).request a = some (.computeSum sequencer_id x y) ∧
    (∀ rest, (SequencerHandle.compute_sum a sequencer_id x y).finish
      ((Response.int32 response).encode a ++ rest) = some (.ok response)) ∧
    ∀ memory steps s m_ph result answers, Run Next (.start memory) steps s → answers 0 = response →
      DeliversSum s ⟨sequencer_id, m_ph⟩ x y result answers response

/-- The client function of the RPC reads the response at its own type. Nobody waits for the
response to a `sayHello`. -/
def Observed : Request → Response → Prop
  | .createSequencer token sequencer_type sequencer_config, .uuid result =>
    (Admin.createSequencer a sequencer_type sequencer_config token).Observes a
      (.createSequencer token sequencer_type sequencer_config) (.uuid result) result.value
  | .openSequencer token sequencer_type sequencer_config, .uuid result =>
    (Admin.openSequencer a sequencer_type sequencer_config token).Observes a
      (.openSequencer token sequencer_type sequencer_config) (.uuid result) result.value
  | .closeSequencer token sequencer_id, .bool result =>
    (Admin.closeSequencer a sequencer_id token).Observes a (.closeSequencer token sequencer_id)
      (.bool result) ()
  | .destroySequencer token sequencer_id, .bool result =>
    (Admin.destroySequencer a sequencer_id token).Observes a (.destroySequencer token sequencer_id)
      (.bool result) ()
  | .checkSequencer sequencer_id, .bool result => ∀ m_ph,
    (Client.makeSequencerHandle a m_ph sequencer_id true).Observes a (.checkSequencer sequencer_id)
      (.bool result) (some ⟨sequencer_id, m_ph⟩)
  | .sayHello _, .bool _ => True
  | .computeSum sequencer_id x y, .int32 result => ObservesSum a sequencer_id x y result
  | _, _ => False

theorem observes_uuid (rpc : RemoteProcedure) (arguments : List UInt8) (result : RequestResult UUID)
    (rest : List UInt8) :
    (rpc.on arguments (RequestResult.serialize a (UUID.codec a)) fun result => do
        if !result.success then throw ⟨result.error⟩
        return result.value : Remote UUID).finish ((Response.uuid result).encode a ++ rest) =
      some (if result.success then .ok result.value else .error ⟨result.error⟩) := by
  rw [Response.encode, finish_on]
  cases result.success <;> rfl

theorem observes_bool (rpc : RemoteProcedure) (arguments : List UInt8) (result : RequestResultBool)
    (rest : List UInt8) :
    (rpc.on arguments (RequestResultBool.serialize a) fun result => do
        if !result.success then throw ⟨result.error⟩ : Remote Unit).finish
        ((Response.bool result).encode a ++ rest) =
      some (if result.success then .ok () else .error ⟨result.error⟩) := by
  rw [Response.encode, finish_on]
  cases result.success <;> rfl

theorem handleOf_eq (m_ph : Nat) (sequencer_id : UUID) (result : RequestResultBool) :
    Client.handleOf m_ph sequencer_id result =
      if result.success then .ok (some ⟨sequencer_id, m_ph⟩) else .error ⟨result.error⟩ := by
  unfold Client.handleOf
  cases result.success <;> rfl

theorem observed_of_type (request : Request) (response : Response)
    (hType : response.type = request.resultType) : Observed a request response := by
  cases request with
  | createSequencer token type config =>
    cases response with
    | uuid result => exact ⟨by simp, observes_uuid a _ _ result⟩
    | bool | int32 => cases hType
  | openSequencer token type config =>
    cases response with
    | uuid result => exact ⟨by simp, observes_uuid a _ _ result⟩
    | bool | int32 => cases hType
  | closeSequencer token sequencer_id =>
    cases response with
    | bool result => exact ⟨by simp, observes_bool a _ _ result⟩
    | uuid | int32 => cases hType
  | destroySequencer token sequencer_id =>
    cases response with
    | bool result => exact ⟨by simp, observes_bool a _ _ result⟩
    | uuid | int32 => cases hType
  | checkSequencer sequencer_id =>
    cases response with
    | bool result =>
      refine fun m_ph => ⟨by simp, fun rest => ?_⟩
      exact (finish_on _ _ _ _ result rest).trans (congrArg some (handleOf_eq m_ph sequencer_id result))
    | uuid | int32 => cases hType
  | sayHello sequencer_id =>
    cases response with
    | bool => trivial
    | uuid | int32 => cases hType
  | computeSum sequencer_id x y =>
    cases response with
    | int32 result =>
      refine ⟨by simp, fun rest => finish_on _ _ _ _ result rest, ?_⟩
      rintro memory steps s m_ph p answers hRun rfl
      exact delivers_sum _ x y p answers (run_sound hRun)
    | uuid | bool => cases hType

/-- A `RequestResult` is read back from its encoding and no further. -/
structure RoundTrips : Prop where
  uuid : ∀ (r : RequestResult UUID) rest,
    (RequestResult.serialize a (UUID.codec a)).read
      ((RequestResult.serialize a (UUID.codec a)).write r ++ rest) = some (r, rest)
  int32 : ∀ (r : RequestResult Int32) rest,
    (RequestResult.serialize a a.int32).read
      ((RequestResult.serialize a a.int32).write r ++ rest) = some (r, rest)
  bool : ∀ (r : RequestResultBool) rest,
    (RequestResultBool.serialize a).read ((RequestResultBool.serialize a).write r ++ rest) =
      some (r, rest)
  string : ∀ (r : RequestResultString) rest,
    (RequestResultString.serialize a).read ((RequestResultString.serialize a).write r ++ rest) =
      some (r, rest)

/-- Over archives that read back what they wrote, every `RequestResult` makes the round trip, and
every response of every run is what the client function of its RPC ends with. -/
theorem client_observes_answer [DecidableEq ι] (requests : ι → Request)
    (schedule : List (ι × Outcomes BackendType Json)) :
    RoundTrips a ∧ ∀ k e response, (k, e) ∈ (provider.serve requests schedule).log →
      Event.response e = some response → Observed a (requests k) response := by
  refine ⟨⟨?_, ?_, ?_, ?_⟩, fun k e response hMem hResponse => ?_⟩
  · exact (RequestResult.serialize a (UUID.codec a)).read_write
  · exact (RequestResult.serialize a a.int32).read_write
  · exact (RequestResultBool.serialize a).read_write
  · exact (RequestResultString.serialize a).read_write
  · exact observed_of_type a _ _ ((serve_served provider requests schedule).typed hMem hResponse)

theorem client_observes_destroyed :
    Observed .memory (.destroySequencer "" .cleared) (.bool DummySequencer.destroy) :=
  (client_observes_answer (dummyProvider "") .memory threeRequests destroyedMeanwhile).2 2
    ⟨.respond (.bool DummySequencer.destroy), ()⟩ _ (List.mem_of_getElem? (i := 7) rfl) rfl

end Mobject
