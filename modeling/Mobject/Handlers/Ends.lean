import Mobject.ClientImpl
import Mobject.Handlers.Registry
import Mobject.Library.Shape

/-! # How a handler ends

No handler takes more than four actions. When it has finished it has responded once, or not at all
where it is not to, unless an exception left it.
-/
namespace Mobject
open Interleaving
set_option autoImplicit false

variable {BackendType Json ι : Type}

/-- The responses due to a request whose handler has done `t`: none to a `sayHello`, except that it
is told when its id was not found. -/
def due (request : Request) (t : List (Event (@Answer Json))) : Nat :=
  if expectsResponse request.rpc || t.any fun e => (Event.missed e).isSome then 1 else 0

def AnsweredDue (request : Request) (t : List (Event (@Answer Json))) : Prop :=
  (∀ e ∈ t, Event.fatal e = false) → (responses t).length = due request t

/-- No way through the handler is longer than four actions, and at its end the request is answered. -/
structure Ends (request : Request) (handler : Handler Json Unit) : Prop where
  within : handler.Within 4
  answered : handler.Ensures (AnsweredDue request) []

theorem AnsweredDue.once {request : Request} {t : List (Event (@Answer Json))}
    (hExpects : expectsResponse request.rpc = true) (hOne : (responses t).length = 1) :
    AnsweredDue request t := by
  intro _
  rw [hOne, due, hExpects, Bool.true_or, if_pos rfl]

theorem AnsweredDue.fatal {request : Request} {t : List (Event (@Answer Json))}
    (h : ∃ e ∈ t, Event.fatal e = true) : AnsweredDue request t := by
  intro hNone
  obtain ⟨e, hMem, hFatal⟩ := h
  rw [hNone e hMem] at hFatal
  cases hFatal

variable (provider : ProviderImpl BackendType Json)

theorem addSequencer_ends {request : Request} (hExpects : expectsResponse request.rpc = true)
    (map : FactoryMap) (token type config : String) :
    Ends request (provider.addSequencer map token type config) := by
  constructor
  · intro u
    cases provider.rejects token with
    | true => exact fun _ => trivial
    | false =>
      simp only [Bool.false_eq_true, ↓reduceIte]
      cases provider.parse config with
      | parse_error | out_of_range => exact fun _ => trivial
      | value json =>
        intro answer
        cases answer with
        | exception | nullptr => exact fun _ => trivial
        | backend => exact fun _ _ => trivial
  · intro u
    cases provider.rejects token with
    | true => exact fun _ => .once hExpects rfl
    | false =>
      simp only [Bool.false_eq_true, ↓reduceIte]
      cases provider.parse config with
      | parse_error => exact fun _ => .once hExpects rfl
      | out_of_range => exact fun _ => .fatal ⟨_, List.mem_concat_self, rfl⟩
      | value json =>
        intro answer
        cases answer with
        | exception | nullptr => exact fun _ => .once hExpects rfl
        | backend => exact fun _ _ => .once hExpects rfl

theorem closeSequencer_ends (token : String) (sequencer_id : UUID) :
    Ends (.closeSequencer token sequencer_id) (provider.closeSequencer token sequencer_id) := by
  unfold ProviderImpl.closeSequencer
  have hExpects := (expectsResponse_rpc (.closeSequencer token sequencer_id)).mpr nofun
  cases provider.rejects token with
  | true => exact ⟨fun _ => trivial, fun _ => .once hExpects rfl⟩
  | false =>
    refine ⟨fun answer => ?_, fun answer => ?_⟩
    · cases answer with
      | true => exact fun _ => trivial
      | false => trivial
    · cases answer with
      | true => exact fun _ => .once hExpects rfl
      | false => exact .once hExpects rfl

theorem destroySequencer_ends (token : String) (sequencer_id : UUID) :
    Ends (.destroySequencer token sequencer_id) (provider.destroySequencer token sequencer_id) := by
  unfold ProviderImpl.destroySequencer
  have hExpects := (expectsResponse_rpc (.destroySequencer token sequencer_id)).mpr nofun
  cases provider.rejects token with
  | true => exact ⟨fun _ => trivial, fun _ => .once hExpects rfl⟩
  | false =>
    refine ⟨fun answer => ?_, fun answer => ?_⟩
    · cases answer with
      | called => exact fun _ => trivial
      | notFound | threw => trivial
    · cases answer with
      | called => exact fun _ => .once hExpects rfl
      | notFound => exact .once hExpects rfl
      | threw => exact .fatal ⟨_, List.mem_concat_self, rfl⟩

theorem checkSequencer_ends (sequencer_id : UUID) :
    Ends (.checkSequencer sequencer_id) (provider.checkSequencer sequencer_id) := by
  have hExpects := (expectsResponse_rpc (.checkSequencer sequencer_id)).mpr nofun
  refine ⟨fun answer => ?_, fun answer => ?_⟩
  · cases answer with
    | none => trivial
    | some => exact fun _ => trivial
  · cases answer with
    | none => exact .once hExpects rfl
    | some => exact fun _ => .once hExpects rfl

theorem sayHello_ends (sequencer_id : UUID) :
    Ends (.sayHello sequencer_id) (provider.sayHello sequencer_id) := by
  refine ⟨fun answer => ?_, fun answer => ?_⟩
  · cases answer with
    | none => trivial
    | some => exact fun _ => trivial
  · cases answer with
    | none => exact fun _ => by simp [due, Event.missed, responses, Event.response]
    | some backend =>
      intro result
      cases result with
      | threw => exact .fatal ⟨_, List.mem_concat_self, rfl⟩
      | returned => exact fun _ => by simp [due, Event.missed, responses, Event.response]

theorem computeSum_ends (sequencer_id : UUID) (x y : Int32) :
    Ends (.computeSum sequencer_id x y) (provider.computeSum sequencer_id x y) := by
  have hExpects := (expectsResponse_rpc (.computeSum sequencer_id x y)).mpr nofun
  refine ⟨fun _ answer => ?_, fun _ answer => ?_⟩
  · cases answer with
    | none => trivial
    | some =>
      intro sum
      cases sum with
      | threw => trivial
      | returned => exact fun _ => trivial
  · cases answer with
    | none => exact .once hExpects rfl
    | some =>
      intro sum
      cases sum with
      | threw => exact .fatal ⟨_, List.mem_concat_self, rfl⟩
      | returned => exact fun _ => .once hExpects rfl

theorem handler_ends (request : Request) : Ends request (provider.handler request) := by
  cases request with
  | createSequencer token type config =>
    have hExpects := (expectsResponse_rpc (.createSequencer token type config)).mpr nofun
    exact addSequencer_ends provider hExpects .create_fn _ _ _
  | openSequencer token type config =>
    have hExpects := (expectsResponse_rpc (.openSequencer token type config)).mpr nofun
    exact addSequencer_ends provider hExpects .open_fn _ _ _
  | closeSequencer token sequencer_id => exact closeSequencer_ends provider token sequencer_id
  | destroySequencer token sequencer_id => exact destroySequencer_ends provider token sequencer_id
  | checkSequencer sequencer_id => exact checkSequencer_ends provider sequencer_id
  | sayHello sequencer_id => exact sayHello_ends provider sequencer_id
  | computeSum sequencer_id x y => exact computeSum_ends provider sequencer_id x y

theorem serve_answeredDue [DecidableEq ι] (requests : ι → Request)
    (schedule : List (ι × Outcomes BackendType Json)) {k : ι}
    (hDone : (provider.serve requests schedule).rest k = .pure ()) :
    AnsweredDue (requests k) (project k (provider.serve requests schedule).log) := by
  have hFinished := serve_path provider requests schedule k
  rw [hDone] at hFinished
  exact hFinished.ensures [] (handler_ends provider (requests k)).answered

end Mobject
