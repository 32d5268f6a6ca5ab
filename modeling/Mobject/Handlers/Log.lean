import Mobject.ProviderImpl
import Mobject.Library.Lifetimes

/-! # What one handler can have done before each of its actions

Event projections for the log of a run, and `Guarded`: the facts about a handler's own earlier
events and its request that hold wherever it stands. Everything the whole-run results know about
the seven handlers is in `handler_guarded`.
-/
namespace Mobject
open Interleaving
set_option autoImplicit false

variable {BackendType Json ι : Type}

namespace Event

def drawn : Event (@Answer Json) → Option UUID
  | ⟨.generate, sequencer_id⟩ => some sequencer_id
  | _ => none

def made : Event (@Answer Json) → Option BackendId
  | ⟨.factory .., .backend backend⟩ => some backend
  | _ => none

def inserted : Event (@Answer Json) → Option (UUID × BackendId)
  | ⟨.insert sequencer_id backend, _⟩ => some (sequencer_id, backend)
  | _ => none

def insertedId (e : Event (@Answer Json)) : Option UUID := (inserted e).map Prod.fst

def insertedBackend (e : Event (@Answer Json)) : Option BackendId := (inserted e).map Prod.snd

def closed : Event (@Answer Json) → Option UUID
  | ⟨.close sequencer_id _, true⟩ => some sequencer_id
  | _ => none

def destroyed : Event (@Answer Json) → Option (UUID × BackendId)
  | ⟨.destroy sequencer_id _, .called backend _⟩ => some (sequencer_id, backend)
  | ⟨.destroy sequencer_id _, .threw backend _⟩ => some (sequencer_id, backend)
  | _ => none

def destroyedBackend (e : Event (@Answer Json)) : Option BackendId := (destroyed e).map Prod.snd

def destroyResult : Event (@Answer Json) → Option RequestResultBool
  | ⟨.destroy .., .called _ result⟩ => some result
  | _ => none

def erased : Event (@Answer Json) → Option UUID
  | ⟨.close sequencer_id _, true⟩ => some sequencer_id
  | ⟨.destroy sequencer_id _, .called ..⟩ => some sequencer_id
  | _ => none

/-- The id a locked block of `closeSequencer` or `destroySequencer` was entered for. -/
def removal : Event (@Answer Json) → Option UUID
  | ⟨.close sequencer_id _, _⟩ => some sequencer_id
  | ⟨.destroy sequencer_id _, _⟩ => some sequencer_id
  | _ => none

theorem erased_eq_none {e : Event (@Answer Json)} (h : removal e = none) : erased e = none := by
  obtain ⟨a, answer⟩ := e
  cases a with
  | close | destroy => cases h
  | generate | uninitialised | factory | insert | find | sayHello | computeSum | respond | escape =>
    rfl

theorem destroyed_eq_none {e : Event (@Answer Json)} (h : removal e = none) : destroyed e = none := by
  obtain ⟨a, answer⟩ := e
  cases a with
  | close | destroy => cases h
  | generate | uninitialised | factory | insert | find | sayHello | computeSum | respond | escape =>
    rfl

theorem erased_of_closed {e : Event (@Answer Json)} {sequencer_id : UUID}
    (h : closed e = some sequencer_id) : erased e = some sequencer_id := by
  obtain ⟨a, answer⟩ := e
  cases a with
  | close => cases answer with
    | true => exact h
    | false => cases h
  | generate | uninitialised | factory | insert | find | destroy | sayHello | computeSum | respond
  | escape => cases h

/-- The lookup of `FIND_SEQUENCER`: the id and the pointer copied under the lock. -/
def found : Event (@Answer Json) → Option (UUID × Option BackendId)
  | ⟨.find sequencer_id _, sequencer⟩ => some (sequencer_id, sequencer)
  | _ => none

def lookedUp : Event (@Answer Json) → Option UUID
  | ⟨.find sequencer_id _, _⟩ => some sequencer_id
  | ⟨.close sequencer_id _, _⟩ => some sequencer_id
  | ⟨.destroy sequencer_id _, _⟩ => some sequencer_id
  | _ => none

theorem lookedUp_eq_none {e : Event (@Answer Json)} (hFound : found e = none)
    (hRemoval : removal e = none) : lookedUp e = none := by
  obtain ⟨a, answer⟩ := e
  cases a with
  | find => cases hFound
  | close | destroy => cases hRemoval
  | generate | uninitialised | factory | insert | sayHello | computeSum | respond | escape => rfl

/-- The id a locked block looked up in vain, having answered that it is not found. -/
def missed : Event (@Answer Json) → Option UUID
  | ⟨.find sequencer_id _, none⟩ => some sequencer_id
  | ⟨.close sequencer_id _, false⟩ => some sequencer_id
  | ⟨.destroy sequencer_id _, .notFound⟩ => some sequencer_id
  | _ => none

theorem lookedUp_of_missed {e : Event (@Answer Json)} {sequencer_id : UUID}
    (h : missed e = some sequencer_id) : lookedUp e = some sequencer_id := by
  obtain ⟨a, answer⟩ := e
  cases a with
  | find => cases answer with
    | none => exact h
    | some => cases h
  | close => cases answer with
    | false => exact h
    | true => cases h
  | destroy => cases answer with
    | notFound => exact h
    | called | threw => cases h
  | generate | uninitialised | factory | insert | sayHello | computeSum | respond | escape => cases h

theorem insertedId_of_removal {e : Event (@Answer Json)} {sequencer_id : UUID}
    (h : removal e = some sequencer_id) : insertedId e = none := by
  obtain ⟨a, answer⟩ := e
  cases a with
  | close | destroy => rfl
  | generate | uninitialised | factory | insert | find | sayHello | computeSum | respond | escape =>
    cases h

def called : Event (@Answer Json) → Option BackendId
  | ⟨.sayHello sequencer, _⟩ => some sequencer
  | ⟨.computeSum sequencer _ _, _⟩ => some sequencer
  | _ => none

/-- An exception leaves the handler. -/
def fatal : Event (@Answer Json) → Bool
  | ⟨.destroy .., .threw ..⟩ => true
  | ⟨.sayHello _, .threw _⟩ => true
  | ⟨.computeSum .., .threw _⟩ => true
  | ⟨.escape _, _⟩ => true
  | _ => false

/-- A locked block of `closeSequencer` or `destroySequencer` erases the id it finds, unless
`destroy()` throws. -/
theorem erased_of_removal {e : Event (@Answer Json)} {sequencer_id : UUID}
    (h : removal e = some sequencer_id) (hHit : missed e ≠ some sequencer_id)
    (hFatal : fatal e = false) : erased e = some sequencer_id := by
  obtain ⟨a, answer⟩ := e
  cases a with
  | close => cases answer with
    | true => exact h
    | false => exact absurd h hHit
  | destroy => cases answer with
    | called => exact h
    | notFound => exact absurd h hHit
    | threw => cases hFatal
  | generate | uninitialised | factory | insert | find | sayHello | computeSum | respond | escape =>
    cases h

end Event

def Request.token : Request → Option String
  | .createSequencer token _ _ => some token
  | .openSequencer token _ _ => some token
  | .closeSequencer token _ => some token
  | .destroySequencer token _ => some token
  | .checkSequencer _ => none
  | .sayHello _ => none
  | .computeSum .. => none

/-- No token is asked for, or the provider accepts it. -/
def Accepted (provider : ProviderImpl BackendType Json) (request : Request) : Prop :=
  ∀ token, request.token = some token → provider.rejects token = false

/-- An admin request for this id whose token the provider accepts. -/
def AuthorisedRemoval (provider : ProviderImpl BackendType Json) (request : Request)
    (sequencer_id : UUID) : Prop :=
  ∃ token, provider.rejects token = false ∧
    (request = .closeSequencer token sequencer_id ∨ request = .destroySequencer token sequencer_id)

/-- The id a request asks to have taken out of the registry. -/
def Request.removes : Request → Option UUID
  | .closeSequencer _ sequencer_id => some sequencer_id
  | .destroySequencer _ sequencer_id => some sequencer_id
  | _ => none

def Request.sequencer_id : Request → Option UUID
  | .closeSequencer _ sequencer_id => some sequencer_id
  | .destroySequencer _ sequencer_id => some sequencer_id
  | .checkSequencer sequencer_id => some sequencer_id
  | .sayHello sequencer_id => some sequencer_id
  | .computeSum sequencer_id _ _ => some sequencer_id
  | .createSequencer .. => none
  | .openSequencer .. => none

/-- What a request may be told that found its id in the locked block `e`, its handler having done
`t`: the success of a close means that this block erased the id. A `sayHello` is told nothing. -/
def Told (request : Request) (t : List (Event (@Answer Json))) (e : Event (@Answer Json))
    (response : Response) : Prop :=
  match request with
  | .closeSequencer _ sequencer_id => Event.closed e = some sequencer_id ∧ response = .bool {}
  | .destroySequencer _ sequencer_id => Event.erased e = some sequencer_id ∧
      ∃ result, Event.destroyResult e = some result ∧ response = .bool result
  | .checkSequencer sequencer_id =>
      (∃ backend, Event.found e = some (sequencer_id, some backend)) ∧ response = .bool {}
  | .computeSum sequencer_id x y => ∃ backend result,
      Event.found e = some (sequencer_id, some backend) ∧
      ⟨.computeSum backend x y, .returned result⟩ ∈ t ∧ response = .int32 result
  | _ => False

/-- What is known of a handler's request and of its events so far when it performs an action. -/
def Guarded (provider : ProviderImpl BackendType Json) (request : Request)
    (t : List (Event (@Answer Json))) : Action Json → Prop
  | .factory .. => ∀ e ∈ t, Event.made e = none
  | .insert sequencer_id backend =>
    (∃ e ∈ t, Event.drawn e = some sequencer_id) ∧ (∃ e ∈ t, Event.made e = some backend) ∧
      ∀ e ∈ t, Event.inserted e = none
  | .find sequencer_id notFound =>
    request.sequencer_id = some sequencer_id ∧ notFound.success = false ∧ request.removes = none
  | .close sequencer_id notFound =>
    AuthorisedRemoval provider request sequencer_id ∧ notFound.success = false
  | .destroy sequencer_id notFound =>
    AuthorisedRemoval provider request sequencer_id ∧ notFound.success = false
  | .sayHello sequencer => ∃ sequencer_id, ∃ e ∈ t, Event.found e = some (sequencer_id, some sequencer)
  | .computeSum sequencer _ _ =>
    ∃ sequencer_id, ∃ e ∈ t, Event.found e = some (sequencer_id, some sequencer)
  | .respond response =>
    (∀ result, response = .uuid result → result.success = true →
      ∃ backend, ∃ e ∈ t, Event.inserted e = some (result.value, backend)) ∧
    (Accepted provider request → ∀ sequencer_id, request.sequencer_id = some sequencer_id →
      ∃ e ∈ t, Event.lookedUp e = some sequencer_id ∧ Event.missed e = none ∧
        Told request t e response)
  | _ => True

theorem AuthorisedRemoval.sequencer_id {provider : ProviderImpl BackendType Json}
    {request : Request} {sequencer_id : UUID} (h : AuthorisedRemoval provider request sequencer_id) :
    request.sequencer_id = some sequencer_id := by
  obtain ⟨token, _, rfl | rfl⟩ := h <;> rfl

/-- An accepted request is told in its locked block that its id is not found, or afterwards what
it is told about an id that was. -/
theorem Guarded.response {provider : ProviderImpl BackendType Json} {request : Request}
    {t : List (Event (@Answer Json))} {e : Event (@Answer Json)} (h : Guarded provider request t e.1)
    {response : Response} (hResponse : Event.response e = some response)
    (hAccepted : Accepted provider request) {sequencer_id : UUID}
    (hNames : request.sequencer_id = some sequencer_id) :
    (Event.missed e = some sequencer_id ∧ response.success = false) ∨
      ∃ e' ∈ t, Event.lookedUp e' = some sequencer_id ∧ Event.missed e' = none ∧
        Told request t e' response := by
  obtain ⟨a, answer⟩ := e
  cases a with
  | respond =>
    cases hResponse
    exact .inr (h.2 hAccepted sequencer_id hNames)
  | find u notFound =>
    cases answer with
    | none =>
      cases hResponse
      exact .inl ⟨h.1.symm.trans hNames, h.2.1⟩
    | some backend => cases hResponse
  | close u notFound =>
    cases answer with
    | false =>
      cases hResponse
      exact .inl ⟨h.1.sequencer_id.symm.trans hNames, h.2⟩
    | true => cases hResponse
  | destroy u notFound =>
    cases answer with
    | notFound =>
      cases hResponse
      exact .inl ⟨h.1.sequencer_id.symm.trans hNames, h.2⟩
    | called | threw => cases hResponse
  | generate | uninitialised | factory | insert | sayHello | computeSum | escape => cases hResponse

/-- A request that asks for a removal looks its id up in the locked block of a removal only. -/
theorem Guarded.removal {provider : ProviderImpl BackendType Json} {request : Request}
    {t : List (Event (@Answer Json))} {e : Event (@Answer Json)} (h : Guarded provider request t e.1)
    {sequencer_id : UUID} (hRemoves : request.removes = some sequencer_id)
    (hLookup : Event.lookedUp e = some sequencer_id) : Event.removal e = some sequencer_id := by
  obtain ⟨a, answer⟩ := e
  cases a with
  | find =>
    rw [h.2.2] at hRemoves
    cases hRemoves
  | close | destroy => exact hLookup
  | generate | uninitialised | factory | insert | sayHello | computeSum | respond | escape =>
    cases hLookup

theorem Guarded.found {provider : ProviderImpl BackendType Json} {request : Request}
    {t : List (Event (@Answer Json))} {e : Event (@Answer Json)} (h : Guarded provider request t e.1)
    {backend : BackendId} (hCalled : Event.called e = some backend) :
    ∃ sequencer_id, ∃ e' ∈ t, Event.found e' = some (sequencer_id, some backend) := by
  obtain ⟨a, answer⟩ := e
  cases a with
  | sayHello | computeSum => cases hCalled; exact h
  | generate | uninitialised | factory | insert | find | close | destroy | respond | escape =>
    cases hCalled

variable (provider : ProviderImpl BackendType Json)

theorem addSequencer_guarded (request : Request) (hNames : request.sequencer_id = none)
    (map : FactoryMap) (token type config : String) :
    Along (Guarded provider request) (provider.addSequencer map token type config) [] := by
  have hFailure : ∀ (t : List (Event (@Answer Json))) error,
      Guarded provider request t (.respond (.uuidFailure error)) := fun t error => by
    simp [Guarded, Response.uuidFailure, RequestResult.success, hNames]
  refine ⟨trivial, fun sequencer_id => ?_⟩
  cases hToken : provider.rejects token with
  | true =>
    simp only [↓reduceIte]
    exact ⟨hFailure _ _, fun _ => trivial⟩
  | false =>
    simp only [Bool.false_eq_true, ↓reduceIte]
    cases provider.parse config with
    | parse_error what => exact ⟨hFailure _ _, fun _ => trivial⟩
    | out_of_range what => exact ⟨trivial, fun _ => trivial⟩
    | value json =>
      refine ⟨by simp [Guarded, Event.made], fun answer => ?_⟩
      match answer with
      | .exception what => exact ⟨hFailure _ _, fun _ => trivial⟩
      | .nullptr => exact ⟨hFailure _ _, fun _ => trivial⟩
      | .backend backend =>
        refine ⟨?_, fun _ => ⟨?_, fun _ => trivial⟩⟩
        · simp [Guarded, Event.drawn, Event.made, Event.inserted]
        · simp [Guarded, Event.inserted, RequestResult.value, hNames]

theorem Guarded.rejected {request : Request} {token : String} (t : List (Event (@Answer Json)))
    (error : String) (hToken : request.token = some token) (hRejects : provider.rejects token = true) :
    Guarded provider request t (.respond (.boolFailure error)) := by
  refine ⟨by simp [Response.boolFailure], fun hAccepted => ?_⟩
  rw [hAccepted token hToken] at hRejects
  cases hRejects

theorem closeSequencer_guarded (token : String) (sequencer_id : UUID) :
    Along (Guarded provider (.closeSequencer token sequencer_id))
      (provider.closeSequencer token sequencer_id) [] := by
  unfold ProviderImpl.closeSequencer
  cases hToken : provider.rejects token with
  | true => exact ⟨Guarded.rejected provider _ _ rfl hToken, fun _ => trivial⟩
  | false =>
    refine ⟨⟨⟨token, hToken, .inl rfl⟩, rfl⟩, fun answer => ?_⟩
    cases answer with
    | true =>
      refine ⟨⟨by simp, fun _ u hNames => ?_⟩, fun _ => trivial⟩
      exact ⟨_, List.mem_singleton_self _, hNames, rfl, rfl, rfl⟩
    | false => exact trivial

theorem destroySequencer_guarded (token : String) (sequencer_id : UUID) :
    Along (Guarded provider (.destroySequencer token sequencer_id))
      (provider.destroySequencer token sequencer_id) [] := by
  unfold ProviderImpl.destroySequencer
  cases hToken : provider.rejects token with
  | true => exact ⟨Guarded.rejected provider _ _ rfl hToken, fun _ => trivial⟩
  | false =>
    refine ⟨⟨⟨token, hToken, .inr rfl⟩, rfl⟩, fun answer => ?_⟩
    match answer with
    | .notFound => exact trivial
    | .threw _ _ => exact trivial
    | .called _ result =>
      refine ⟨⟨by simp, fun _ u hNames => ?_⟩, fun _ => trivial⟩
      exact ⟨_, List.mem_singleton_self _, hNames, rfl, rfl, result, rfl, rfl⟩

theorem checkSequencer_guarded (sequencer_id : UUID) :
    Along (Guarded provider (.checkSequencer sequencer_id))
      (provider.checkSequencer sequencer_id) [] := by
  refine ⟨⟨rfl, rfl, rfl⟩, fun answer => ?_⟩
  match answer with
  | none => exact trivial
  | some backend =>
    refine ⟨⟨by simp, fun _ u hNames => ?_⟩, fun _ => trivial⟩
    exact ⟨_, List.mem_singleton_self _, hNames, rfl, ⟨backend, rfl⟩, rfl⟩

theorem sayHello_guarded (sequencer_id : UUID) :
    Along (Guarded provider (.sayHello sequencer_id)) (provider.sayHello sequencer_id) [] := by
  refine ⟨⟨rfl, rfl, rfl⟩, fun answer => ?_⟩
  match answer with
  | none => exact trivial
  | some _ => exact ⟨by simp [Guarded, Event.found], fun _ => trivial⟩

theorem computeSum_guarded (sequencer_id : UUID) (x y : Int32) :
    Along (Guarded provider (.computeSum sequencer_id x y))
      (provider.computeSum sequencer_id x y) [] := by
  refine ⟨trivial, fun _ => ⟨⟨rfl, rfl, rfl⟩, fun answer => ?_⟩⟩
  match answer with
  | none => exact trivial
  | some backend =>
    refine ⟨by simp [Guarded, Event.found], fun answer => ?_⟩
    match answer with
    | .threw _ => exact trivial
    | .returned result =>
      refine ⟨⟨by simp, fun _ u hNames => ?_⟩, fun _ => trivial⟩
      exact ⟨_, List.mem_cons_of_mem _ List.mem_cons_self, hNames, rfl, backend, result, rfl,
        List.mem_concat_self, rfl⟩

theorem handler_guarded (request : Request) :
    Along (Guarded provider request) (provider.handler request) [] := by
  cases request with
  | createSequencer token type config => exact addSequencer_guarded provider _ rfl .create_fn _ _ _
  | openSequencer token type config => exact addSequencer_guarded provider _ rfl .open_fn _ _ _
  | closeSequencer token sequencer_id => exact closeSequencer_guarded provider token sequencer_id
  | destroySequencer token sequencer_id => exact destroySequencer_guarded provider token sequencer_id
  | checkSequencer sequencer_id => exact checkSequencer_guarded provider sequencer_id
  | sayHello sequencer_id => exact sayHello_guarded provider sequencer_id
  | computeSum sequencer_id x y => exact computeSum_guarded provider sequencer_id x y

end Mobject
