import Mobject.Client
import Mobject.Library.Reclaim
import Mobject.Library.Runs

/-! # Clients, sequencer handles and what they share

Every `Client` shares a `ClientImpl`, every `SequencerHandle` a `SequencerHandleImpl`, and that one
shares the `ClientImpl` it was made by. A variable that does not exist is one whose `self` is null,
so a constructor is an assignment to it.
-/
namespace Mobject
open SharedOwnership Runs
set_option autoImplicit false

abbrev ClientId := Nat
abbrev HandleId := Nat

/-- The `std::shared_ptr<ClientImpl>` objects of a program. -/
inductive ClientOwner where
  | client (v : Nat)
  /-- the member of a `SequencerHandleImpl` -/
  | m_client (impl : HandleId)
  deriving DecidableEq

structure RemoteCall where
  client : ClientId
  rpc : RemoteProcedure
  m_ph : Nat
  sequencer_id : UUID
  deriving DecidableEq

structure ClientSide where
  clients : Ledger ClientOwner ClientId
  /-- the owners are the variables of type `SequencerHandle` -/
  handles : Ledger Nat HandleId
  impl : HandleId → SequencerHandleImpl
  madeClients : ClientId
  madeHandles : HandleId
  calls : List RemoteCall
  /-- a null `self` has been dereferenced -/
  fault : Bool

namespace ClientSide

def start : ClientSide := ⟨.empty, .empty, fun _ => ⟨.cleared, 0⟩, 0, 0, [], false⟩

variable (s : ClientSide)

def client (v : Nat) : Option ClientId := s.clients.self.owner (.client v)
def handle (h : Nat) : Option HandleId := s.handles.self.owner h
def m_client (i : HandleId) : Option ClientId := s.clients.self.owner (.m_client i)

def setClient (v : Nat) (x : Option ClientId) : ClientSide :=
  { s with clients := s.clients.assign (.client v) x }

/-- Destroying a `SequencerHandleImpl` destroys its `m_client`. -/
def setHandle (h : Nat) (x : Option HandleId) : ClientSide :=
  match s.handles.self.released h x with
  | some gone => { s with handles := s.handles.assign h x
                          clients := s.clients.assign (.m_client gone) none }
  | none => { s with handles := s.handles.assign h x }

/-- `std::make_shared<ClientImpl>(engine)`. -/
def makeClient (v : Nat) : ClientSide :=
  { s.setClient v (some s.madeClients) with madeClients := s.madeClients + 1 }

/-- `std::make_shared<SequencerHandleImpl>(self, std::move(ph), sequencer_id)`. -/
def make_shared (c : ClientId) (impl : SequencerHandleImpl) : ClientSide :=
  { s with clients := s.clients.assign (.m_client s.madeHandles) (some c)
           impl := Function.update s.impl s.madeHandles impl
           madeHandles := s.madeHandles + 1 }

def makeHandle (h : Nat) (c : ClientId) (impl : SequencerHandleImpl) : ClientSide :=
  (s.make_shared c impl).setHandle h (some s.madeHandles)

def call (c : ClientId) (rpc : RemoteProcedure) (m_ph : Nat) (sequencer_id : UUID) : ClientSide :=
  { s with calls := s.calls ++ [⟨c, rpc, m_ph, sequencer_id⟩] }

def check_sequencer (c : ClientId) (m_ph : Nat) (sequencer_id : UUID)
    (check : Option RequestResultBool) : ClientSide :=
  if check.isSome then s.call c ClientImpl.m_check_sequencer m_ph sequencer_id else s

def dereferenceNull : ClientSide := { s with fault := true }

/-- `self->m_client->m_...` through the handle `h`, which `sayHello` and `computeSum` check first. -/
def callThrough (h : Nat) (rpc : RemoteProcedure) : ClientSide :=
  match s.handle h with
  | none => s
  | some i =>
    match s.m_client i with
    | none => s.dereferenceNull
    | some c => s.call c rpc (s.impl i).m_ph (s.impl i).m_sequencer_id

end ClientSide

inductive HandleOperation where
  | construct (v : Nat)
  | copyClient (v other : Nat)
  | moveClient (v other : Nat)
  | destroyClient (v : Nat)
  /-- `h = v.makeSequencerHandle(...)`, with what the provider answers if `check` is set -/
  | makeSequencerHandle (h v : Nat) (m_ph : Nat) (sequencer_id : UUID) (check : Option RequestResultBool)
  | copyHandle (h other : Nat)
  | moveHandle (h other : Nat)
  | destroyHandle (h : Nat)
  /-- `v = h.client()` -/
  | client (v h : Nat)
  | sayHello (h : Nat)
  | computeSum (h : Nat)

namespace ClientSide

/-- The state after an operation. An exception is caught by the caller, who goes on. -/
def step (s : ClientSide) : HandleOperation → ClientSide
  | .construct v => s.makeClient v
  | .copyClient v other => s.setClient v (s.client other)
  | .moveClient v other => if v = other then s else (s.setClient v (s.client other)).setClient other none
  | .destroyClient v => s.setClient v none
  | .makeSequencerHandle h v m_ph sequencer_id check =>
    match s.client v with
    | none => s.dereferenceNull
    | some c =>
      let t := s.check_sequencer c m_ph sequencer_id check
      match Client.handleOf m_ph sequencer_id (check.getD { m_success := true }) with
      | .ok (some impl) => t.makeHandle h c impl
      | _ => t
  | .copyHandle h other => s.setHandle h (s.handle other)
  | .moveHandle h other => if h = other then s else (s.setHandle h (s.handle other)).setHandle other none
  | .destroyHandle h => s.setHandle h none
  | .client v h =>
    match s.handle h with
    | none => s.dereferenceNull
    | some i => s.setClient v (s.m_client i)
  | .sayHello h => s.callThrough h ClientImpl.m_say_hello
  | .computeSum h => s.callThrough h ClientImpl.m_compute_sum

def Next (s : ClientSide) (op : HandleOperation) (t : ClientSide) : Prop :=
  s.fault = false ∧ t = s.step op

end ClientSide

namespace ClientSide
variable (s : ClientSide) (h : Nat) (x : Option HandleId)

/-- Of what has been made, what is not owned has been freed, and a `SequencerHandleImpl` owns a
`ClientImpl` as long as it lives. -/
structure Sound (s : ClientSide) : Prop where
  clients : Ledger.Sound {c | c < s.madeClients} s.clients
  handles : Ledger.Sound {i | i < s.madeHandles} s.handles
  m_client : ∀ i, s.m_client i ≠ none ↔ s.handles.self.uses i ≠ 0

section Fields
variable (c : ClientId) (rpc : RemoteProcedure) (m_ph : Nat) (sequencer_id : UUID)

@[simp] theorem handles_setHandle : (s.setHandle h x).handles = s.handles.assign h x := by
  unfold setHandle
  split <;> rfl

@[simp] theorem madeClients_setHandle : (s.setHandle h x).madeClients = s.madeClients := by
  unfold setHandle
  split <;> rfl

@[simp] theorem madeHandles_setHandle : (s.setHandle h x).madeHandles = s.madeHandles := by
  unfold setHandle
  split <;> rfl

@[simp] theorem impl_setHandle : (s.setHandle h x).impl = s.impl := by
  unfold setHandle
  split <;> rfl

@[simp] theorem calls_setHandle : (s.setHandle h x).calls = s.calls := by
  unfold setHandle
  split <;> rfl

@[simp] theorem fault_setHandle : (s.setHandle h x).fault = s.fault := by
  unfold setHandle
  split <;> rfl

theorem m_client_setHandle (i : HandleId) : (s.setHandle h x).m_client i =
    if s.handles.self.released h x = some i then none else s.m_client i := by
  unfold setHandle m_client
  cases hReleased : s.handles.self.released h x with
  | none => rfl
  | some gone =>
    by_cases hi : i = gone
    · subst hi
      simp
    · simp [hi, Ne.symm hi]

@[simp] theorem clients_check_sequencer (check : Option RequestResultBool) :
    (s.check_sequencer c m_ph sequencer_id check).clients = s.clients := by
  unfold check_sequencer
  split <;> rfl

theorem m_client_make_shared (impl : SequencerHandleImpl) (i : HandleId) :
    (s.make_shared c impl).m_client i = if i = s.madeHandles then some c else s.m_client i := by
  by_cases hi : i = s.madeHandles <;> simp [m_client, make_shared, hi]

end Fields

variable {s h x}

theorem clients_setHandle {made : Set ClientId} (hClients : Ledger.Sound made s.clients) :
    Ledger.Sound made (s.setHandle h x).clients := by
  unfold setHandle
  split
  · exact hClients.release _
  · exact hClients

theorem m_client_used (hUsed : ∀ i, s.m_client i ≠ none ↔ s.handles.self.uses i ≠ 0 ∨ x = some i)
    (i : HandleId) : (s.setHandle h x).m_client i ≠ none ↔ (s.setHandle h x).handles.self.uses i ≠ 0 := by
  have hAfter : (s.handles.assign h x).self = s.handles.self.assign h x := rfl
  rw [m_client_setHandle, handles_setHandle, hAfter, Pool.used_assign_iff, ← hUsed]
  by_cases hGone : s.handles.self.released h x = some i
  · simp [hGone]
  · rw [if_neg hGone, and_iff_left hGone]

theorem client_used {v : Nat} {c : ClientId} (h : s.client v = some c) : s.clients.self.uses c ≠ 0 :=
  (s.clients.self.uses_pos h).ne'

theorem handle_used {i : HandleId} (hHandle : s.handle h = some i) : s.handles.self.uses i ≠ 0 :=
  (s.handles.self.uses_pos hHandle).ne'

namespace Sound
variable (hSound : s.Sound)
include hSound

theorem setClient (v : Nat) {x : Option ClientId} (hx : ∀ c, x = some c → s.clients.self.uses c ≠ 0) :
    (s.setClient v x).Sound := by
  refine ⟨?_, hSound.handles, fun i => ?_⟩
  · cases x with
    | none => exact hSound.clients.release _
    | some c => exact hSound.clients.share _ (hx c rfl)
  · refine Iff.trans ?_ (hSound.m_client i)
    simp [ClientSide.m_client, ClientSide.setClient]

theorem setHandle (h : Nat) {x : Option HandleId} (hx : ∀ i, x = some i → s.handles.self.uses i ≠ 0) :
    (s.setHandle h x).Sound := by
  refine ⟨by simpa using clients_setHandle hSound.clients, ?_, m_client_used fun i => ?_⟩
  · rw [handles_setHandle, madeHandles_setHandle]
    cases x with
    | none => exact hSound.handles.release _
    | some i => exact hSound.handles.share _ (hx i rfl)
  · rw [hSound.m_client]
    exact (or_iff_left_of_imp (hx i)).symm

theorem makeClient (v : Nat) : (s.makeClient v).Sound := by
  refine ⟨hSound.clients.makeNext (.client v), hSound.handles, fun i => ?_⟩
  refine Iff.trans ?_ (hSound.m_client i)
  simp [ClientSide.m_client, ClientSide.makeClient, ClientSide.setClient]

theorem makeHandle (h : Nat) {c : ClientId} (hClient : s.clients.self.uses c ≠ 0)
    (impl : SequencerHandleImpl) : (s.makeHandle h c impl).Sound := by
  have hNew : s.handles.self.uses s.madeHandles = 0 := hSound.handles.unused (by simp)
  refine ⟨?_, ?_, m_client_used fun i => ?_⟩
  · rw [ClientSide.makeHandle, madeClients_setHandle]
    exact clients_setHandle (hSound.clients.share _ hClient)
  · rw [ClientSide.makeHandle, handles_setHandle, madeHandles_setHandle]
    exact hSound.handles.makeNext h
  · rw [m_client_make_shared]
    by_cases hi : i = s.madeHandles
    · simp [hi]
    · rw [if_neg hi, hSound.m_client, or_iff_left fun hNew => hi (Option.some.inj hNew).symm]
      rfl

theorem call (c : ClientId) (rpc : RemoteProcedure) (m_ph : Nat) (sequencer_id : UUID) :
    (s.call c rpc m_ph sequencer_id).Sound :=
  ⟨hSound.clients, hSound.handles, hSound.m_client⟩

theorem dereferenceNull : s.dereferenceNull.Sound := ⟨hSound.clients, hSound.handles, hSound.m_client⟩

theorem check_sequencer (c : ClientId) (m_ph : Nat) (sequencer_id : UUID)
    (check : Option RequestResultBool) : (s.check_sequencer c m_ph sequencer_id check).Sound := by
  unfold ClientSide.check_sequencer
  split
  · exact hSound.call _ _ _ _
  · exact hSound

theorem callThrough (h : Nat) (rpc : RemoteProcedure) : (s.callThrough h rpc).Sound := by
  unfold ClientSide.callThrough
  split
  · exact hSound
  · split
    · exact hSound.dereferenceNull
    · exact hSound.call _ _ _ _

theorem step (op : HandleOperation) : (s.step op).Sound := by
  cases op with
  | construct v => exact hSound.makeClient v
  | copyClient v other => exact hSound.setClient v fun c => client_used
  | moveClient v other =>
    simp only [ClientSide.step]
    split
    · exact hSound
    · exact (hSound.setClient v fun c => client_used).setClient other (by simp)
  | destroyClient v => exact hSound.setClient v (by simp)
  | makeSequencerHandle h v m_ph sequencer_id check =>
    simp only [ClientSide.step]
    split
    · exact hSound.dereferenceNull
    · next c hClient =>
      have hChecked := hSound.check_sequencer c m_ph sequencer_id check
      split
      · refine hChecked.makeHandle h ?_ _
        rw [clients_check_sequencer]
        exact client_used hClient
      · exact hChecked
  | copyHandle h other => exact hSound.setHandle h fun i => handle_used
  | moveHandle h other =>
    simp only [ClientSide.step]
    split
    · exact hSound
    · exact (hSound.setHandle h fun i => handle_used).setHandle other (by simp)
  | destroyHandle h => exact hSound.setHandle h (by simp)
  | client v h =>
    simp only [ClientSide.step]
    split
    · exact hSound.dereferenceNull
    · next i _ => exact hSound.setClient v fun c hOwner => (s.clients.self.uses_pos hOwner).ne'
  | sayHello h => exact hSound.callThrough h _
  | computeSum h => exact hSound.callThrough h _

/-- Behind a handle there is a `SequencerHandleImpl`, and behind that a `ClientImpl`. -/
theorem through {h : Nat} {i : HandleId} (hHandle : s.handle h = some i) :
    i ∉ s.handles.freed ∧ ∃ c, s.m_client i = some c ∧ c ∉ s.clients.freed := by
  obtain ⟨c, hClient⟩ := Option.ne_none_iff_exists'.mp
    ((hSound.m_client i).mpr (handle_used hHandle))
  exact ⟨(hSound.handles.owned hHandle).2, c, hClient, (hSound.clients.owned hClient).2⟩

theorem handle_freed_iff (i : HandleId) :
    i ∈ s.handles.freed ↔ i < s.madeHandles ∧ ∀ h, s.handle h ≠ some i := by
  rw [hSound.handles.freed_iff, Pool.uses_eq_zero_iff]
  rfl

theorem client_freed_iff (c : ClientId) : c ∈ s.clients.freed ↔ c < s.madeClients ∧
    (∀ v, s.client v ≠ some c) ∧ ∀ h i, s.handle h = some i → s.m_client i ≠ some c := by
  rw [hSound.clients.freed_iff, Pool.uses_eq_zero_iff]
  refine and_congr_right fun _ => ⟨fun hNone => ⟨fun v => hNone _, fun _ i _ => hNone (.m_client i)⟩, ?_⟩
  rintro ⟨hClients, hHandles⟩ (v | i) hOwner
  · exact hClients v hOwner
  · -- the `SequencerHandleImpl` that owns `c` is owned itself
    have hSome : s.m_client i ≠ none := by simp [ClientSide.m_client, hOwner]
    have hUsed := (hSound.m_client i).mp hSome
    rw [ne_eq, Pool.uses_eq_zero_iff, not_forall] at hUsed
    obtain ⟨h, hHandle⟩ := hUsed
    exact hHandles h i (not_not.mp hHandle) hOwner

end Sound

/-- The RPCs made between `s` and `t` belong to a `ClientImpl` that is owned in `s`. -/
def CallsOwned (s t : ClientSide) : Prop :=
  ∃ new, t.calls = s.calls ++ new ∧ ∀ call ∈ new, ∃ o, s.clients.self.owner o = some call.client

theorem CallsOwned.none {t : ClientSide} (h : t.calls = s.calls) : CallsOwned s t :=
  ⟨[], by rw [h, List.append_nil], by simp⟩

theorem CallsOwned.one {t : ClientSide} {call : RemoteCall} {o : ClientOwner}
    (h : t.calls = s.calls ++ [call]) (hOwner : s.clients.self.owner o = some call.client) :
    CallsOwned s t :=
  ⟨[call], h, by simpa using ⟨o, hOwner⟩⟩

theorem callThrough_owned (h : Nat) (rpc : RemoteProcedure) : CallsOwned s (s.callThrough h rpc) := by
  unfold callThrough
  split
  · exact .none rfl
  · split
    · exact .none rfl
    · next hClient => exact .one rfl hClient

theorem step_callsOwned (s : ClientSide) (op : HandleOperation) : CallsOwned s (s.step op) := by
  cases op with
  | construct | copyClient | destroyClient => exact .none rfl
  | moveClient v other =>
    apply CallsOwned.none
    simp only [step]
    split <;> rfl
  | copyHandle | destroyHandle => exact .none (by simp [step])
  | moveHandle h other =>
    apply CallsOwned.none
    simp only [step]
    split <;> simp
  | client v h =>
    apply CallsOwned.none
    simp only [step]
    split <;> rfl
  | sayHello h => exact callThrough_owned h _
  | computeSum h => exact callThrough_owned h _
  | makeSequencerHandle h v m_ph sequencer_id check =>
    simp only [step]
    split
    · exact .none rfl
    · next c hClient =>
      have hChecked : CallsOwned s (s.check_sequencer c m_ph sequencer_id check) := by
        unfold check_sequencer
        split
        · exact .one rfl hClient
        · exact .none rfl
      obtain ⟨new, hCalls, hOwned⟩ := hChecked
      refine ⟨new, ?_, hOwned⟩
      split
      · rw [makeHandle, calls_setHandle]
        exact hCalls
      · exact hCalls

theorem impl_step (s : ClientSide) (op : HandleOperation) {i : HandleId} (hi : i < s.madeHandles) :
    (s.step op).impl i = s.impl i := by
  have hThrough : ∀ h rpc, (s.callThrough h rpc).impl = s.impl := by
    intro h rpc
    unfold callThrough
    split
    · rfl
    · split <;> rfl
  cases op with
  | construct | copyClient | destroyClient => rfl
  | moveClient v other =>
    simp only [step]
    split <;> rfl
  | copyHandle | destroyHandle => simp [step]
  | moveHandle h other =>
    simp only [step]
    split <;> simp
  | client v h =>
    simp only [step]
    split <;> rfl
  | sayHello h | computeSum h => simp only [step, hThrough]
  | makeSequencerHandle h v m_ph sequencer_id check =>
    have hChecked : ∀ c, (s.check_sequencer c m_ph sequencer_id check).impl = s.impl ∧
        (s.check_sequencer c m_ph sequencer_id check).madeHandles = s.madeHandles := by
      intro c
      unfold check_sequencer
      split <;> exact ⟨rfl, rfl⟩
    simp only [step]
    split
    · rfl
    · next c _ =>
      split
      · rw [makeHandle, impl_setHandle, make_shared, (hChecked c).1, (hChecked c).2]
        exact Function.update_of_ne hi.ne _ _
      · rw [(hChecked c).1]

/-- The condition under which nothing goes wrong: `client()` and `makeSequencerHandle`, which do not
check `self`, are called where it is not null. -/
def HasSelf (s : ClientSide) : HandleOperation → Prop
  | .makeSequencerHandle _ v _ _ _ => s.client v ≠ none
  | .client _ h => s.handle h ≠ none
  | _ => True

theorem fault_callThrough (hSound : s.Sound) (h : Nat) (rpc : RemoteProcedure) :
    (s.callThrough h rpc).fault = s.fault := by
  unfold callThrough
  split
  · rfl
  · next i hHandle =>
    split
    · next hNone => exact absurd hNone ((hSound.m_client i).mpr (handle_used hHandle))
    · rfl

theorem fault_step_iff (hSound : s.Sound) (op : HandleOperation) :
    (s.step op).fault = false ↔ s.fault = false ∧ HasSelf s op := by
  cases op with
  | construct | copyClient | destroyClient => exact (and_iff_left trivial).symm
  | moveClient v other =>
    simp only [step, HasSelf, and_true]
    split <;> rfl
  | copyHandle | destroyHandle => simp [step, HasSelf]
  | moveHandle h other =>
    simp only [step, HasSelf, and_true]
    split <;> simp
  | client v h =>
    simp only [step, HasSelf]
    split
    · next hNone => simp [dereferenceNull, hNone]
    · next hSome => simp [setClient, hSome]
  | sayHello h => simp [step, HasSelf, fault_callThrough hSound]
  | computeSum h => simp [step, HasSelf, fault_callThrough hSound]
  | makeSequencerHandle h v m_ph sequencer_id check =>
    have hChecked : ∀ c, (s.check_sequencer c m_ph sequencer_id check).fault = s.fault := by
      intro c
      unfold check_sequencer
      split <;> rfl
    simp only [step, HasSelf]
    split
    · next hNone => simp [dereferenceNull, hNone]
    · next hSome =>
      split <;> simp [makeHandle, make_shared, hChecked, hSome]

end ClientSide

/-- What the objects of a program can rely on in the state `s`, and could in the steps before. -/
structure SharedSafely (steps : List (Step ClientSide HandleOperation)) (s : ClientSide) : Prop where
  faults : (∀ x ∈ steps, x.after.fault = false) ↔ ∀ x ∈ steps, ClientSide.HasSelf x.before x.label
  calls : ∀ x ∈ steps, ∃ new, x.after.calls = x.before.calls ++ new ∧
    ∀ call ∈ new, call.client < x.before.madeClients ∧ call.client ∉ x.before.clients.freed
  impls : ∀ x ∈ steps, ∀ i < x.before.madeHandles, x.after.impl i = x.before.impl i
  through : ∀ h i, s.handle h = some i →
    i ∉ s.handles.freed ∧ ∃ c, s.m_client i = some c ∧ c ∉ s.clients.freed
  handles : s.handles.freed.Nodup ∧
    ∀ i, i ∈ s.handles.freed ↔ i < s.madeHandles ∧ ∀ h, s.handle h ≠ some i
  clients : s.clients.freed.Nodup ∧ ∀ c, c ∈ s.clients.freed ↔ c < s.madeClients ∧
    (∀ v, s.client v ≠ some c) ∧ ∀ h i, s.handle h = some i → s.m_client i ≠ some c

theorem start_sharedSound : ClientSide.start.Sound := by
  refine ⟨Ledger.sound_start, Ledger.sound_start, fun i => ?_⟩
  simp [ClientSide.m_client, ClientSide.start, Ledger.empty, Pool.empty]

/-- Copies, moves and destructions in any order: a `SequencerHandle` keeps its `ClientImpl` alive
after the last `Client` is gone, everything is freed once and when nobody refers to it any more, and
nothing goes wrong but where a null `self` is used that the code does not check. -/
theorem shared_safely {steps : List (Step ClientSide HandleOperation)} {s : ClientSide}
    (hRun : Run ClientSide.Next .start steps s) : SharedSafely steps s := by
  have hStep : ∀ s op t, s.Sound → ClientSide.Next s op t → t.Sound := by
    rintro s op t hSound ⟨_, rfl⟩
    exact hSound.step op
  have hSound := hRun.invariant start_sharedSound hStep
  constructor
  · refine hRun.exact_condition (G := fun _ _ t => t.fault = false) start_sharedSound ?_ ?_
    · rintro s op t hSound ⟨hLive, rfl⟩ hValid
      exact ⟨hSound.step op, (ClientSide.fault_step_iff hSound op).mpr ⟨hLive, hValid⟩⟩
    · rintro s op t hSound ⟨_, rfl⟩ hNull hLive
      exact hNull ((ClientSide.fault_step_iff hSound op).mp hLive).2
  · intro x hMem
    obtain ⟨hBefore, _, hAfter⟩ := hRun.steps_invariant start_sharedSound hStep x hMem
    obtain ⟨new, hCalls, hOwned⟩ := ClientSide.step_callsOwned x.before x.label
    refine ⟨new, hAfter ▸ hCalls, fun call hNew => ?_⟩
    obtain ⟨o, hOwner⟩ := hOwned call hNew
    exact hBefore.clients.owned hOwner
  · intro x hMem i hi
    obtain ⟨_, _, hAfter⟩ := hRun.steps_invariant start_sharedSound hStep x hMem
    rw [hAfter, ClientSide.impl_step _ _ hi]
  · exact fun h i hHandle => hSound.through hHandle
  · exact ⟨hSound.handles.once, hSound.handle_freed_iff⟩
  · exact ⟨hSound.clients.once, hSound.client_freed_iff⟩

/-- A handle of a `Client` that is destroyed before the call. -/
def lastHandle : ClientSide :=
  ((ClientSide.start.step (.construct 0)).step (.makeSequencerHandle 0 0 7 .cleared none)).step
    (.destroyClient 0)

theorem lastHandle_shared_safely : ∃ steps, SharedSafely steps (lastHandle.step (.computeSum 0)) ∧
    (lastHandle.step (.computeSum 0)).calls = [⟨0, ClientImpl.m_compute_sum, 7, .cleared⟩] :=
  ⟨_, shared_safely (.snoc (.snoc (.snoc (.snoc .nil ⟨rfl, rfl⟩) ⟨rfl, rfl⟩) ⟨rfl, rfl⟩) ⟨rfl, rfl⟩), rfl⟩

end Mobject
