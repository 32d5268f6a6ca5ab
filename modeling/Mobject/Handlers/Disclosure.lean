import Mobject.Handlers.Wire
import Mobject.Library.Lockstep

/-! # No response discloses memory that was never initialised

Two runs that differ only in what the storage of `m_value` held before it was written go in
lockstep. The bytes they send differ only where `FIND_SEQUENCER` answers a `computeSum`.
-/
namespace Mobject
open Interleaving Codecs
set_option autoImplicit false

variable {BackendType Json ι : Type}

/-- The action reads storage without an initialiser, or has a response that carries it. -/
def Action.Reads : Action Json → Prop
  | .uninitialised => True
  | .find _ (.int32 _) => True
  | _ => False

/-- The failure that `FIND_SEQUENCER` puts into a `RequestResult<int32_t>`, over this storage. -/
def sumFailure (error : String) (m_value : Int32) : Response :=
  .int32 { m_success := false, m_error := error, m_value := m_value }

section Correspondence
variable (ρ : Int32 → Int32 → Prop)

/-- The same action, but for uninitialised values related by `ρ`. -/
inductive SameAction : Action Json → Action Json → Prop
  | same (a : Action Json) : ¬ a.Reads → SameAction a a
  | uninitialised : SameAction .uninitialised .uninitialised
  | find (sequencer_id : UUID) (error : String) (v v' : Int32) : ρ v v' →
      SameAction (.find sequencer_id (sumFailure error v)) (.find sequencer_id (sumFailure error v'))

inductive SameEvent : Event (@Answer Json) → Event (@Answer Json) → Prop
  | same (e : Event (@Answer Json)) : ¬ e.1.Reads → SameEvent e e
  | uninitialised (v v' : Int32) : ρ v v' → SameEvent ⟨.uninitialised, v⟩ ⟨.uninitialised, v'⟩
  | find (sequencer_id : UUID) (error : String) (v v' : Int32) (sequencer : Option BackendId) :
      ρ v v' → SameEvent ⟨.find sequencer_id (sumFailure error v), sequencer⟩
        ⟨.find sequencer_id (sumFailure error v'), sequencer⟩

def SameOutcomes (world world' : Outcomes BackendType Json) : Prop :=
  ρ world.indeterminate world'.indeterminate ∧
    world' = { world with indeterminate := world'.indeterminate }

variable {ρ}

theorem SameEvent.eq_of_same {a : Action Json} {r r' : Answer a} (hReads : ¬ a.Reads)
    (h : SameEvent ρ ⟨a, r⟩ ⟨a, r'⟩) : r = r' := by
  cases h with
  | same => rfl
  | uninitialised => exact absurd trivial hReads
  | find => rfl

theorem SameEvent.found_eq {e e' : Event (@Answer Json)} (h : SameEvent ρ e e') :
    Event.found e = Event.found e' := by
  cases h <;> rfl

theorem SameEvent.responds {e e' : Event (@Answer Json)} (h : SameEvent ρ e e') :
    (Event.response e).isSome = (Event.response e').isSome := by
  cases h with
  | same => rfl
  | uninitialised => rfl
  | find sequencer_id error v v' sequencer => cases sequencer <;> rfl

theorem machine_keeps (provider : ProviderImpl BackendType Json) :
    provider.machine.Keeps (SameOutcomes ρ) (SameAction ρ) (SameEvent ρ) := by
  constructor
  · rintro a a' world world' s hAction ⟨hValue, hWorld⟩
    rw [hWorld]
    cases hAction with
    | same _ hReads =>
      cases a with
      | uninitialised => exact absurd trivial hReads
      | generate | factory | insert | find | close | destroy | sayHello | computeSum | respond
      | escape => exact .same _ hReads
    | uninitialised => exact .uninitialised _ _ hValue
    | find sequencer_id error v v' hRel => exact .find sequencer_id error v v' _ hRel
  · rintro a a' world world' s hAction ⟨_, hWorld⟩
    rw [hWorld]
    cases hAction with
    | same _ hReads =>
      cases a with
      | uninitialised => rfl
      | generate | factory | insert | find | close | destroy | sayHello | computeSum | respond
      | escape => rfl
    | uninitialised => rfl
    | find => rfl

variable (provider : ProviderImpl BackendType Json)

theorem computeSum_inStep (sequencer_id : UUID) (x y : Int32) :
    InStep (SameAction ρ) (SameEvent ρ) (provider.computeSum sequencer_id x y)
      (provider.computeSum sequencer_id x y) := by
  refine .act .uninitialised fun v v' hAnswers => ?_
  cases hAnswers with
  | same _ hReads => exact absurd trivial hReads
  | uninitialised _ _ hValue =>
    refine .act (.find sequencer_id _ v v' hValue) fun answer answer' hFound => ?_
    have hSame : answer = answer' :=
      (Prod.mk.inj (Option.some.inj (SameEvent.found_eq hFound))).2
    subst hSame
    cases answer with
    | none => exact .pure ()
    | some backend =>
      have hReads : ¬ (Action.computeSum backend x y : Action Json).Reads := not_false
      refine .act (.same _ hReads) fun sum sum' hSums => ?_
      obtain rfl := hSums.eq_of_same hReads
      cases sum with
      | threw _ => exact .pure ()
      | returned result => exact .act (.same _ not_false) fun _ _ _ => .pure ()

theorem Typed.not_reads {request : Request} {t : List (Event (@Answer Json))} {a : Action Json}
    (h : Typed request t a) (hType : request.resultType ≠ .int32) : ¬ a.Reads := by
  intro hReads
  cases a with
  | uninitialised => exact hType (h.uninitialised rfl)
  | find sequencer_id notFound =>
    cases notFound with
    | int32 result => exact hType (h.sends _ rfl).symm
    | uuid | bool => exact hReads
  | generate | factory | insert | close | destroy | sayHello | computeSum | respond | escape =>
    exact hReads

theorem resultType_int32 {request : Request} (hType : request.resultType = .int32) :
    ∃ sequencer_id x y, request = .computeSum sequencer_id x y := by
  cases request with
  | computeSum sequencer_id x y => exact ⟨sequencer_id, x, y, rfl⟩
  | createSequencer | openSequencer | closeSequencer | destroySequencer | checkSequencer | sayHello =>
    cases hType

theorem handler_inStep (request : Request) :
    InStep (SameAction ρ) (SameEvent ρ) (provider.handler request) (provider.handler request) := by
  by_cases hType : request.resultType = .int32
  · obtain ⟨sequencer_id, x, y, rfl⟩ := resultType_int32 hType
    exact computeSum_inStep provider sequencer_id x y
  · refine InStep.refl_of_along (Q := fun a => ¬ a.Reads) (fun a => .same a)
      (fun a r r' hReads hSim => hSim.eq_of_same hReads) _ [] ?_
    exact (handler_typed provider request).imp fun _ _ hTyped => hTyped.not_reads hType

end Correspondence

section Bytes
variable [DecidableEq ι] (a : Archive) (provider : ProviderImpl BackendType Json)

def sentBytes (k : ι) (log : Log ι Json) : List (List UInt8) :=
  (responses (project k log)).map (Response.encode a)

/-- The same schedule, but for what uninitialised storage holds. -/
def SameSchedule (schedule schedule' : List (ι × Outcomes BackendType Json)) : Prop :=
  List.Forall₂ (fun l l' => l.1 = l'.1 ∧ SameOutcomes (fun _ _ => True) l.2 l'.2) schedule schedule'

theorem sentBytes_eq (k : ι) (log : Log ι Json) : sentBytes a k log =
    (project k log).filterMap fun e => (Event.response e).map (Response.encode a) :=
  List.map_filterMap

variable {ρ : Int32 → Int32 → Prop} {requests : ι → Request}

theorem serve_lockstep {schedule schedule' : List (ι × Outcomes BackendType Json)}
    (hSchedule : List.Forall₂ (fun l l' => l.1 = l'.1 ∧ SameOutcomes ρ l.2 l'.2) schedule schedule')
    (k : ι) : List.Forall₂ (SameEvent ρ) (project k (provider.serve requests schedule).log)
      (project k (provider.serve requests schedule').log) := by
  have hRuns : Lockstep (SameAction ρ) (SameEvent ρ) (provider.serve requests schedule)
      (provider.serve requests schedule') := by
    refine Lockstep.run (machine_keeps provider) hSchedule ⟨rfl, fun j => ?_, .nil⟩
    exact handler_inStep provider (requests j)
  exact hRuns.project k

theorem encode_sumFailure_injective {error : String} {v v' : Int32}
    (h : (sumFailure error v).encode a = (sumFailure error v').encode a) : v = v' := by
  have hResult := (RequestResult.serialize a a.int32).write_injective h
  exact congrArg RequestResult.m_value hResult

variable {provider} in
/-- A handler that answers an `int32_t` and finds no sequencer stands at `FIND_SEQUENCER`. -/
theorem missed_sum {request : Request}
    {t t' : List (Event (@Answer Json))} {e : Event (@Answer Json)} {sequencer_id : UUID}
    (hGuarded : Guarded provider request t e.1) (hTyped : Typed request t' e.1)
    (hType : request.resultType = .int32) (hMissed : Event.missed e = some sequencer_id) :
    ∃ result, e = ⟨.find sequencer_id (.int32 result), none⟩ := by
  have hRemoval : ∀ u, ¬ AuthorisedRemoval provider request u := by
    rintro u ⟨token, _, rfl | rfl⟩ <;> cases hType
  obtain ⟨a, answer⟩ := e
  cases a with
  | find u notFound =>
    cases answer with
    | some backend => cases hMissed
    | none =>
      cases hMissed
      have hSent := hTyped.sends notFound rfl
      cases notFound with
      | int32 result => exact ⟨result, rfl⟩
      | uuid | bool => rw [hType] at hSent; cases hSent
  | close u => exact absurd hGuarded.1 (hRemoval u)
  | destroy u => exact absurd hGuarded.1 (hRemoval u)
  | generate | uninitialised | factory | insert | sayHello | computeSum | respond | escape =>
    cases hMissed

variable {provider} in
theorem Served.guarded_typed {s : Registry} {log : Log ι Json} (h : Served provider requests s log)
    {pre post : Log ι Json} {k : ι} {e : Event (@Answer Json)} (hLog : log = pre ++ (k, e) :: post) :
    Guarded provider (requests k) (project k pre) e.1 ∧ Typed (requests k) (project k pre) e.1 := by
  obtain ⟨_, _, _, _, _, hPath, _⟩ := Reaches.split _ h pre post k e hLog
  exact ⟨by simpa using hPath.along [] (handler_guarded provider (requests k)),
    by simpa using hPath.along [] (handler_typed provider (requests k))⟩

def otherValue (v : Int32) : Int32 := if v = 0 then 1 else 0

theorem ne_otherValue (v : Int32) : v ≠ otherValue v := by
  unfold otherValue
  split
  · next h => rw [h]; decide
  · next h => exact h

/-- The same run with another value wherever storage is not initialised. -/
def overwritten (schedule : List (ι × Outcomes BackendType Json)) :
    List (ι × Outcomes BackendType Json) :=
  schedule.map fun l => (l.1, { l.2 with indeterminate := otherValue l.2.indeterminate })

omit [DecidableEq ι] in
theorem overwritten_related {ρ : Int32 → Int32 → Prop} (hρ : ∀ v, ρ v (otherValue v))
    (schedule : List (ι × Outcomes BackendType Json)) :
    List.Forall₂ (fun l l' => l.1 = l'.1 ∧ SameOutcomes ρ l.2 l'.2) schedule (overwritten schedule) := by
  refine List.forall₂_map_right_iff.mpr (List.forall₂_same.mpr fun l _ => ?_)
  exact ⟨rfl, hρ _, rfl⟩

/-- `FIND_SEQUENCER` sends the storage of a `computeSum` that it finds no sequencer for. -/
theorem missed_discloses {schedule : List (ι × Outcomes BackendType Json)} {k : ι}
    {pre post : Log ι Json} {e : Event (@Answer Json)} {sequencer_id : UUID}
    (hLog : (provider.serve requests schedule).log = pre ++ (k, e) :: post)
    (hType : (requests k).resultType = .int32) (hMissed : Event.missed e = some sequencer_id) :
    sentBytes a k (provider.serve requests (overwritten schedule)).log ≠
      sentBytes a k (provider.serve requests schedule).log := by
  obtain ⟨hGuarded, hTyped⟩ := (serve_served provider requests schedule).guarded_typed hLog
  obtain ⟨result, rfl⟩ := missed_sum hGuarded hTyped hType hMissed
  have hMem : ⟨.find sequencer_id (.int32 result), none⟩ ∈
      project k (provider.serve requests schedule).log := by
    rw [mem_project, hLog]
    exact List.mem_append_right _ List.mem_cons_self
  rw [sentBytes_eq, sentBytes_eq]
  -- everything else the handler sends is sent at the same places in both runs
  refine (filterMap_ne_of_forall₂ (serve_lockstep provider (overwritten_related ne_otherValue schedule) k)
    (fun e e' hEvent => ?_) hMem fun e' hEvent hEncoded => ?_).symm
  · rw [Option.isSome_map, Option.isSome_map]
    exact hEvent.responds
  · cases hEvent with
    | same _ hReads => exact hReads trivial
    | find _ error v v' _ hValue =>
      exact hValue (encode_sumFailure_injective a (Option.some.inj hEncoded))

variable {provider} in
theorem Served.missed_sum_unregistered {s : Registry} {log : Log ι Json}
    (h : Served provider requests s log) {k : ι} {sequencer_id : UUID} {error : String} {v : Int32}
    (hMem : (k, ⟨.find sequencer_id (sumFailure error v), none⟩) ∈ log) :
    ∃ x y, requests k = .computeSum sequencer_id x y ∧ ∃ pre post,
      log = pre ++ (k, ⟨.find sequencer_id (sumFailure error v), none⟩) :: post ∧
        sequencer_id ∉ ids pre := by
  obtain ⟨pre, post, hLog⟩ := List.append_of_mem hMem
  obtain ⟨hGuarded, hTyped⟩ := h.guarded_typed hLog
  obtain ⟨u, x, y, hRequest⟩ := resultType_int32 (hTyped.sends _ rfl).symm
  have hNames : (requests k).sequencer_id = some sequencer_id := hGuarded.1
  rw [hRequest] at hNames
  obtain rfl : u = sequencer_id := Option.some.inj hNames
  exact ⟨x, y, hRequest, pre, post, hLog, (h.answered pre _ post u hLog rfl).mp rfl⟩

/-- Every byte that is sent was initialised, for every request in every interleaving, exactly where
no `computeSum` is told by `FIND_SEQUENCER` that its sequencer is not registered: the macro sets the
success flag and the error of a `RequestResult<int32_t>` and sends its value as it is. -/
theorem responses_initialised_iff (requests : ι → Request)
    (schedule : List (ι × Outcomes BackendType Json)) (k : ι) :
    (∀ schedule', SameSchedule schedule schedule' →
      sentBytes a k (provider.serve requests schedule').log =
        sentBytes a k (provider.serve requests schedule).log) ↔
      ∀ sequencer_id x y, requests k = .computeSum sequencer_id x y → ∀ pre e post,
        (provider.serve requests schedule).log = pre ++ (k, e) :: post →
        Event.lookedUp e = some sequencer_id → sequencer_id ∈ ids pre := by
  have h := serve_served provider requests schedule
  constructor
  · intro hSame sequencer_id x y hRequest pre e post hLog hLookup
    by_contra hOut
    have hMissed := (h.answered pre (k, e) post sequencer_id hLog hLookup).mpr hOut
    exact missed_discloses a provider hLog (by rw [hRequest]; rfl) hMissed
      (hSame _ (overwritten_related (fun _ => trivial) schedule))
  · intro hFound schedule' hSchedule
    rw [sentBytes_eq, sentBytes_eq]
    refine (filterMap_eq_of_forall₂ (serve_lockstep provider hSchedule k) fun e hMem e' hEvent => ?_).symm
    cases hEvent with
    | same => rfl
    | uninitialised => rfl
    | find sequencer_id error v v' sequencer =>
      cases sequencer with
      | some backend => rfl
      | none =>
        -- the one response with storage in it needs a lookup that `hFound` excludes
        obtain ⟨x, y, hRequest, pre, post, hLog, hOut⟩ :=
          h.missed_sum_unregistered ((mem_project k _ _).mp hMem)
        exact absurd (hFound sequencer_id x y hRequest pre _ post hLog rfl) hOut

def unregisteredSum (indeterminate : Int32) : List (Unit × Outcomes RegisteredBackend Unit) :=
  List.replicate 2 ((), DummySequencer.outcomes .cleared indeterminate)

theorem unregistered_sum_discloses :
    SameSchedule (unregisteredSum 0) (unregisteredSum 1) ∧
      sentBytes .memory ()
          ((dummyProvider "").serve (fun _ => .computeSum .cleared 42 51) (unregisteredSum 1)).log ≠
        sentBytes .memory ()
          ((dummyProvider "").serve (fun _ => .computeSum .cleared 42 51) (unregisteredSum 0)).log := by
  refine ⟨.cons ⟨rfl, trivial, rfl⟩ (.cons ⟨rfl, trivial, rfl⟩ .nil), fun hBytes => ?_⟩
  have hSent : [(sumFailure ((dummyProvider "").notFoundError .cleared) 1).encode .memory] =
      [(sumFailure ((dummyProvider "").notFoundError .cleared) 0).encode .memory] := hBytes
  have hValue := encode_sumFailure_injective .memory (List.cons.inj hSent).1
  exact absurd hValue (by decide)

end Bytes

end Mobject
