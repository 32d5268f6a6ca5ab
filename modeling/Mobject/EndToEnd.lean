import Mobject.Handlers.Answers
import Mobject.Handlers.Wire

/-! # A sum from the client to the dummy backend and back

What one `computeSum` handler can have done when it is finished, whatever ran in between, and what
its caller gets from that.
-/
namespace Mobject
open Interleaving Unwinding Runs
set_option autoImplicit false

variable {BackendType Json ι : Type}

/-- The mathematical sum is an `int32_t`. -/
def Fits (x y : Int32) : Prop :=
  Int32.minValue.toInt ≤ x.toInt + y.toInt ∧ x.toInt + y.toInt ≤ Int32.maxValue.toInt

instance (x y : Int32) : Decidable (Fits x y) := inferInstanceAs (Decidable (_ ∧ _))

theorem computeSum_eq_none (x y : Int32) : DummySequencer.computeSum x y = none ↔ ¬ Fits x y := by
  unfold Fits DummySequencer.computeSum
  split
  · next h => exact iff_of_false (by simp) (not_not_intro h)
  · next h => exact iff_of_true rfl h

theorem computeSum_of_fits {x y : Int32} (h : Fits x y) : ∃ result : RequestResult Int32,
    DummySequencer.computeSum x y = some result ∧ result.success = true ∧
      result.value.toInt = x.toInt + y.toInt := by
  refine ⟨{ m_value := Int32.ofInt (x.toInt + y.toInt) }, if_pos h, rfl, ?_⟩
  obtain ⟨hLow, hHigh⟩ := h
  rw [Int32.toInt_minValue] at hLow
  rw [Int32.toInt_maxValue] at hHigh
  exact Int32.toInt_ofInt_of_le hLow (by omega)

/-- The backends are `DummySequencer`s. Nothing is known of a sum that overflows. -/
def Outcomes.Dummies (world : Outcomes BackendType Json) : Prop :=
  ∀ backend x y result, DummySequencer.computeSum x y = some result →
    world.computeSum backend x y = .returned result

theorem DummySequencer.dummies (generated : UUID) (indeterminate : Int32) :
    (DummySequencer.outcomes generated indeterminate).Dummies := by
  intro backend x y result hSum
  simp [DummySequencer.outcomes, hSum]

variable (provider : ProviderImpl BackendType Json)

/-- What a `computeSum` handler has done when it is finished. -/
inductive SumTrace (sequencer_id : UUID) (x y : Int32) : List (Event (@Answer Json)) → Prop
  | missed (error : String) (v : Int32) : SumTrace sequencer_id x y [⟨.uninitialised, v⟩,
      ⟨.find sequencer_id (.int32 { m_success := false, m_error := error, m_value := v }), none⟩]
  | threw (v : Int32) (notFound : Response) (backend : BackendId) (what : String) :
      SumTrace sequencer_id x y [⟨.uninitialised, v⟩, ⟨.find sequencer_id notFound, some backend⟩,
        ⟨.computeSum backend x y, .threw what⟩]
  | computed (v : Int32) (notFound : Response) (backend : BackendId) (result : RequestResult Int32) :
      SumTrace sequencer_id x y [⟨.uninitialised, v⟩, ⟨.find sequencer_id notFound, some backend⟩,
        ⟨.computeSum backend x y, .returned result⟩, ⟨.respond (.int32 result), ()⟩]

theorem computeSum_trace {sequencer_id : UUID} {x y : Int32} {t : List (Event (@Answer Json))}
    (h : Path (provider.computeSum sequencer_id x y) t (.pure ())) :
    SumTrace sequencer_id x y t := by
  obtain ⟨v, t₁, rfl, h₁⟩ := Path.of_act h
  obtain ⟨answer, t₂, rfl, h₂⟩ := Path.of_act h₁
  cases answer with
  | none =>
    obtain rfl := Path.of_pure h₂
    exact .missed _ v
  | some backend =>
    obtain ⟨sum, t₃, rfl, h₃⟩ := Path.of_act h₂
    cases sum with
    | threw what =>
      obtain rfl := Path.of_pure h₃
      exact .threw v _ backend what
    | returned result =>
      obtain ⟨_, t₄, rfl, h₄⟩ := Path.of_act h₃
      obtain rfl := Path.of_pure h₄
      exact .computed v _ backend result

theorem computeSum_safe (world : Outcomes BackendType Json) (hReturn : world.MethodsReturn)
    (sequencer_id : UUID) (x y : Int32) :
    provider.machine.Safe world (provider.computeSum sequencer_id x y) := by
  refine ⟨fun s hLive => hLive, fun v => ⟨fun s hLive => hLive, fun answer => ?_⟩⟩
  cases answer with
  | none => trivial
  | some backend =>
    refine ⟨fun s hLive => ?_, fun sum => ?_⟩
    · obtain ⟨result, hResult⟩ := hReturn.computeSum backend x y
      simp only [machine_perform, machine_halted, ProviderImpl.perform, hResult,
        Registry.afterCall] at hLive ⊢
      exact hLive
    · cases sum with
      | threw _ => trivial
      | returned result => exact ⟨fun s hLive => hLive, fun _ => trivial⟩

/-- A call returns with the sum, its sequencer having been registered, or throws and leaves
`*result` alone. -/
def EndsExactly (registered : Prop) (x y : Int32) (result : Pointer) (before : Heap)
    (outcome : Exit Exception Unit × Heap) : Prop :=
  outcome.1 = .normal () ∧ registered ∧ (outcome.2.memory result).toInt = x.toInt + y.toInt ∨
    (∃ e, outcome.1 = .threw e) ∧ outcome.2.memory result = before.memory result

/-- The synchronous call, and the asynchronous call with the first wait for its request. The latter
can throw what an earlier request of the same variable reports. -/
structure CallsExactly (registered : Prop) (s : Heap) (handle : SequencerHandleImpl) (x y : Int32)
    (result : Pointer) (answers : Nat → RequestResult Int32) : Prop where
  sync : EndsExactly registered x y result s
    (SequencerHandle.computeSum (some handle) x y (some result) none answers s)
  async : ∀ req,
    (∃ e, (SequencerHandle.computeSum (some handle) x y (some result) (some req) answers s).1 = .threw e) ∧
        (SequencerHandle.computeSum (some handle) x y (some result) (some req) answers s).2.memory result =
          s.memory result ∨
      (SequencerHandle.computeSum (some handle) x y (some result) (some req) answers s).1 = .normal () ∧
        Pending (s.step (.computeSum (some handle) x y (some result) (some req) answers)) req s.next ∧
        ∀ steps t w,
          Run Next (s.step (.computeSum (some handle) x y (some result) (some req) answers)) steps t →
          Pending t w s.next →
          EndsExactly registered x y result t (AsyncRequest.wait (.var w) t)

theorem endsExactly_of_verdict {registered : Prop} {x y : Int32} {result : Pointer} {before : Heap}
    {outcome : Exit Exception Unit × Heap} {response : RequestResult Int32}
    (hExit : outcome.1 = verdict response)
    (hMemory : outcome.2.memory = writeBack (some result) response before.memory)
    (hSum : response.success = true → registered ∧ response.value.toInt = x.toInt + y.toInt) :
    EndsExactly registered x y result before outcome := by
  rw [EndsExactly, hExit, hMemory]
  cases hSuccess : response.success with
  | true =>
    obtain ⟨hRegistered, hValue⟩ := hSum hSuccess
    exact .inl ⟨by simp [verdict, hSuccess], hRegistered, by simpa [writeBack, hSuccess] using hValue⟩
  | false => exact .inr ⟨⟨_, by simp [verdict, hSuccess]; rfl⟩, by simp [writeBack, hSuccess]⟩

theorem DeliversSum.callsExactly {registered : Prop} {s : Heap} {handle : SequencerHandleImpl}
    {x y : Int32} {result : Pointer} {answers : Nat → RequestResult Int32}
    {response : RequestResult Int32} (h : DeliversSum s handle x y (some result) answers response)
    (hSum : response.success = true → registered ∧ response.value.toInt = x.toInt + y.toInt) :
    CallsExactly registered s handle x y result answers where
  sync := endsExactly_of_verdict h.sync.1 h.sync.2 hSum
  async req := by
    rcases h.issued req with ⟨hNormal, hPending⟩ | ⟨e, hThrew, hMemory⟩
    · refine .inr ⟨hNormal, hPending, fun steps t w hRun hWaiting => ?_⟩
      obtain ⟨hExit, hMemory⟩ := h.firstWait req steps t w hRun hWaiting
      exact endsExactly_of_verdict hExit hMemory hSum
    · exact .inl ⟨⟨e, hThrew⟩, congrFun hMemory result⟩

section Runs
variable [DecidableEq ι]

/-- The lookup of this handler comes where its id is in the registry. -/
def FindsRegisteredId (log : Log ι Json) (k : ι) (sequencer_id : UUID) : Prop :=
  ∃ pre e post, log = pre ++ (k, e) :: post ∧ Event.lookedUp e = some sequencer_id ∧
    sequencer_id ∈ ids pre

/-- What one call of `computeSum` is to get from a run in which its handler is finished: no sum is
evaluated that leaves `int32_t`, and the call ends exactly. -/
structure SumsExactly (a : Archive) (log : Log ι Json) (k : ι) (sequencer_id : UUID) (x y : Int32) :
    Prop where
  noOverflow : ∀ backend x' y' sum, (k, ⟨.computeSum backend x' y', sum⟩) ∈ log →
    DummySequencer.computeSum x' y' ≠ none
  answered : ∃ response, responses (project k log) = [.int32 response] ∧
    (∀ rest, (SequencerHandle.compute_sum a sequencer_id x y).finish
      ((Response.int32 response).encode a ++ rest) = some (.ok response)) ∧
    ∀ memory steps s m_ph result answers, Run Next (.start memory) steps s → answers 0 = response →
      CallsExactly (FindsRegisteredId log k sequencer_id) s ⟨sequencer_id, m_ph⟩ x y result answers

variable {provider} {requests : ι → Request} {s : Registry} {log : Log ι Json}

theorem Served.found_registered (h : Served provider requests s log) {k : ι} {sequencer_id : UUID}
    {notFound : Response} {backend : BackendId}
    (hMem : (k, ⟨.find sequencer_id notFound, some backend⟩) ∈ log) :
    FindsRegisteredId log k sequencer_id := by
  obtain ⟨pre, post, hLog⟩ := List.append_of_mem hMem
  refine ⟨pre, _, post, hLog, rfl, ?_⟩
  by_contra hOut
  have hMissed := (h.answered pre _ post sequencer_id hLog rfl).mpr hOut
  cases hMissed

theorem Served.missed_unregistered (h : Served provider requests s log) {k : ι} {sequencer_id : UUID}
    {error : String} {v : Int32} (hTrace : project k log = [⟨.uninitialised, v⟩,
      ⟨.find sequencer_id (.int32 { m_success := false, m_error := error, m_value := v }), none⟩]) :
    ¬ FindsRegisteredId log k sequencer_id := by
  rintro ⟨pre, e, post, hLog, hLookup, hIn⟩
  have hMem : e ∈ project k log := by
    rw [mem_project, hLog]
    exact List.mem_append_right _ List.mem_cons_self
  rw [hTrace] at hMem
  rcases List.mem_cons.mp hMem with rfl | hMem
  · cases hLookup
  · rw [List.mem_singleton.mp hMem] at hLog
    exact (h.answered pre _ post sequencer_id hLog rfl).mp rfl hIn

theorem dummy_sum {schedule : List (ι × Outcomes BackendType Json)}
    (hDummies : ∀ l ∈ schedule, l.2.Dummies) {k : ι} {backend : BackendId} {x y : Int32}
    {sum : MethodResult (RequestResult Int32)}
    (hMem : (k, ⟨.computeSum backend x y, sum⟩) ∈ (provider.serve requests schedule).log)
    (hFits : Fits x y) : ∃ result, sum = .returned result ∧ result.success = true ∧
      result.value.toInt = x.toInt + y.toInt := by
  obtain ⟨result, hSum, hSuccess, hValue⟩ := computeSum_of_fits hFits
  rcases provider.machine.run_answered _ schedule _ hMem with hNone | ⟨l, hSchedule, t, hAnswer⟩
  · cases hNone
  · have hReturned : sum = l.2.computeSum backend x y := hAnswer
    exact ⟨result, hReturned.trans (hDummies l hSchedule backend x y result hSum), hSuccess, hValue⟩

theorem sumsExactly_of_response (a : Archive) {k : ι} {sequencer_id : UUID} {x y : Int32}
    {response : RequestResult Int32} (hSent : responses (project k log) = [.int32 response])
    (hSum : response.success = true →
      FindsRegisteredId log k sequencer_id ∧ response.value.toInt = x.toInt + y.toInt)
    (hFits : ∀ backend x' y' sum, (k, ⟨.computeSum backend x' y', sum⟩) ∈ log → Fits x' y') :
    SumsExactly a log k sequencer_id x y := by
  refine ⟨fun backend x' y' sum hSum hNone => ?_, response, hSent, fun rest => finish_on _ _ _ _ response rest, ?_⟩
  · exact (computeSum_eq_none x' y').mp hNone (hFits backend x' y' sum hSum)
  rintro memory steps s m_ph result answers hRun rfl
  exact (delivers_sum _ x y (some result) answers (run_sound hRun)).callsExactly hSum

theorem SumTrace.exact_iff (a : Archive) (h : Served provider requests s log) {k : ι}
    {sequencer_id : UUID} {x y : Int32} {t : List (Event (@Answer Json))}
    (hTrace : SumTrace sequencer_id x y t) (hProject : project k log = t)
    (hSums : ∀ backend sum, (k, ⟨.computeSum backend x y, sum⟩) ∈ log → Fits x y →
      ∃ result, sum = .returned result ∧ result.success = true ∧
        result.value.toInt = x.toInt + y.toInt) :
    SumsExactly a log k sequencer_id x y ↔ (FindsRegisteredId log k sequencer_id → Fits x y) := by
  have hMem : ∀ e, (k, e) ∈ log ↔ e ∈ t := fun e => by rw [← hProject, mem_project]
  cases hTrace with
  | missed error v =>
    have hUnregistered := h.missed_unregistered hProject
    refine iff_of_true ?_ fun hRegistered => absurd hRegistered hUnregistered
    refine sumsExactly_of_response a (by rw [hProject]; rfl) (fun hSuccess => by cases hSuccess) ?_
    intro backend x' y' sum hSum
    rw [hMem] at hSum
    rcases List.mem_cons.mp hSum with hDrawn | hSum
    · cases hDrawn
    · cases List.mem_singleton.mp hSum
  | threw v notFound backend what =>
    have hRegistered : FindsRegisteredId log k sequencer_id :=
      h.found_registered ((hMem ⟨.find sequencer_id notFound, some backend⟩).mpr (by simp))
    refine iff_of_false (fun hExact => ?_) fun hFits => ?_
    · obtain ⟨response, hSent, _⟩ := hExact.answered
      rw [hProject] at hSent
      cases hSent
    · -- a sum that fits is returned, not thrown
      obtain ⟨result, hReturned, _⟩ := hSums backend (.threw what) ((hMem _).mpr (by simp))
        (hFits hRegistered)
      cases hReturned
  | computed v notFound backend result =>
    have hRegistered : FindsRegisteredId log k sequencer_id :=
      h.found_registered ((hMem ⟨.find sequencer_id notFound, some backend⟩).mpr (by simp))
    have hCalled : (k, ⟨.computeSum backend x y, .returned result⟩) ∈ log := (hMem _).mpr (by simp)
    constructor
    · intro hExact _
      by_contra hLarge
      exact hExact.noOverflow backend x y _ hCalled ((computeSum_eq_none x y).mpr hLarge)
    · intro hFits
      obtain ⟨_, hReturned, _, hValue⟩ := hSums backend _ hCalled (hFits hRegistered)
      cases hReturned
      refine sumsExactly_of_response a (by rw [hProject]; rfl) (fun _ => ⟨hRegistered, hValue⟩) ?_
      intro backend' x' y' sum hSum
      rw [hMem] at hSum
      -- the handler calls the backend once
      rcases List.mem_cons.mp hSum with hDrawn | hSum
      · cases hDrawn
      rcases List.mem_cons.mp hSum with hFound | hSum
      · cases hFound
      rcases List.mem_cons.mp hSum with hSame | hSum
      · cases hSame
        exact hFits hRegistered
      · cases List.mem_singleton.mp hSum

/-- With dummy backends a `computeSum` is exact end to end, whatever else the provider serves,
exactly where its sequencer is not registered or the sum fits: `DummySequencer::computeSum` adds
without looking. On a live provider every such request is finished, if its handler gets its turns. -/
theorem computeSum_exact_iff (a : Archive) (provider : ProviderImpl BackendType Json)
    (requests : ι → Request) (schedule : List (ι × Outcomes BackendType Json))
    (hDummies : ∀ l ∈ schedule, l.2.Dummies) {k : ι} {sequencer_id : UUID} {x y : Int32}
    (hRequest : requests k = .computeSum sequencer_id x y) :
    ((provider.serve requests schedule).shared.terminated = false →
      ∀ world : Outcomes BackendType Json, world.MethodsReturn →
        ∃ n, (provider.serve requests (schedule ++ List.replicate n (k, world))).rest k = .pure ()) ∧
      ((provider.serve requests schedule).rest k = .pure () →
        (SumsExactly a (provider.serve requests schedule).log k sequencer_id x y ↔
          (FindsRegisteredId (provider.serve requests schedule).log k sequencer_id → Fits x y))) := by
  have hPath := (provider.machine.run_reaches (fun k => provider.handler (requests k)) .empty
    schedule).2 k
  rw [hRequest] at hPath
  constructor
  · intro hLive world hReturn
    have hSafe := (computeSum_safe provider world hReturn sequencer_id x y).of_path hPath
    obtain ⟨n, value, hDone⟩ := provider.machine.run_finishes world k _
      (provider.serve requests schedule) rfl hSafe hLive
    refine ⟨n, ?_⟩
    rw [ProviderImpl.serve, Machine.run, List.foldl_append]
    exact hDone
  · intro hDone
    have hFinished : Path (provider.computeSum sequencer_id x y)
        (project k (provider.serve requests schedule).log) (.pure ()) := hDone ▸ hPath
    exact (computeSum_trace provider hFinished).exact_iff a (serve_served provider requests schedule)
      rfl fun backend sum hCalled hFits => dummy_sum hDummies hCalled hFits

def createdSum (x y : Int32) : Nat → Request
  | 0 => .createSequencer "" "dummy" "\x7b\x7d"
  | _ => .computeSum .cleared x y

def createdFirst : List (Nat × Outcomes RegisteredBackend Unit) :=
  [0, 0, 0, 0, 1, 1, 1, 1].map fun k => (k, DummySequencer.outcomes .cleared 0)

theorem createdFirst_dummies : ∀ l ∈ createdFirst, l.2.Dummies := by
  intro l hMem
  obtain ⟨k, _, rfl⟩ := List.mem_map.mp hMem
  exact DummySequencer.dummies .cleared 0

theorem createdSum_exact :
    SumsExactly .memory ((dummyProvider "").serve (createdSum 42 51) createdFirst).log 1 .cleared 42 51 :=
  ((computeSum_exact_iff .memory (dummyProvider "") (createdSum 42 51) createdFirst
    createdFirst_dummies rfl).2 rfl).mpr fun _ => by decide

/-- The sequencer is found and the call is answered, but the sum is one too large. -/
theorem overflow_evaluated :
    (∀ l ∈ createdFirst, l.2.Dummies) ∧
      ((dummyProvider "").serve (createdSum 2147483647 1) createdFirst).rest 1 = .pure () ∧
      FindsRegisteredId ((dummyProvider "").serve (createdSum 2147483647 1) createdFirst).log 1 .cleared ∧
      ¬ SumsExactly .memory ((dummyProvider "").serve (createdSum 2147483647 1) createdFirst).log 1
        .cleared 2147483647 1 := by
  refine ⟨createdFirst_dummies, rfl, ?_, fun hExact => ?_⟩
  · exact (serve_served (dummyProvider "") (createdSum 2147483647 1) createdFirst).found_registered
      (List.mem_of_getElem? (i := 5) rfl)
  · exact hExact.noOverflow 0 2147483647 1 _ (List.mem_of_getElem? (i := 6) rfl) (by decide)

end Runs

end Mobject
