import Mathlib.Data.List.MinMax

set_option autoImplicit false

/-!
# The broker: who may control the game

Every client has its own task; what a task does between two awaits on the broker
lock is one atomic step here. `pending` holds the hellos that have been recorded
and wait for their second section; `claimed` is a record beside the state.
-/
namespace TuiTetris.AdapterBroker

inductive RequestedRole where
  | Auto | Controller | Observer
  deriving DecidableEq, Repr

inductive CommandMode where
  | Action | Place
  deriving DecidableEq, Repr

/-- `live` is `outbound.is_live()`. -/
structure ClientHandle where
  id : ℕ
  requestedRole : RequestedRole
  commandMode : CommandMode
  streamObservations : Bool
  handshaken : Bool
  lastSeq : Option ℕ
  live : Bool
  deriving DecidableEq, Repr

/-- The handle that `handle_client` registers. -/
def ClientHandle.new (id : ℕ) : ClientHandle :=
  { id, requestedRole := .Auto, commandMode := .Action, streamObservations := false,
    handshaken := false, lastSeq := none, live := true }

structure BrokerState where
  clients : List ClientHandle
  controllerId : Option ℕ
  deriving DecidableEq, Repr

namespace BrokerState

def isController (b : BrokerState) (id : ℕ) : Bool := b.controllerId = some id

def isLive (b : BrokerState) (id : ℕ) : Bool := b.clients.any fun c => c.id = id && c.live

def clearStaleController (b : BrokerState) : BrokerState :=
  match b.controllerId with
  | some staleId => if b.isLive staleId then b else { b with controllerId := none }
  | none => b

def candidates (clients : List ClientHandle) : List ClientHandle :=
  clients.filter fun c => c.live && c.requestedRole ≠ .Observer

def removeAndPromote (b : BrokerState) (id : ℕ) : BrokerState :=
  let clients := b.clients.filter fun c => c.id ≠ id
  { clients,
    controllerId :=
      if b.isController id then ((candidates clients).map ClientHandle.id).min?
      else b.controllerId }

/-- `iter_mut().find(..)` with an update; ids are never given out twice. -/
def update (b : BrokerState) (id : ℕ) (f : ClientHandle → ClientHandle) : BrokerState :=
  { b with clients := b.clients.map fun c => if c.id = id then f c else c }

def find (b : BrokerState) (id : ℕ) : Option ClientHandle := b.clients.find? fun c => c.id = id

def isHandshaken (b : BrokerState) (id : ℕ) : Bool := ((b.find id).map ClientHandle.handshaken).getD false

def seqPasses (b : BrokerState) (id seq : ℕ) : Bool :=
  match (b.find id).bind ClientHandle.lastSeq with
  | none => true
  | some prev => !(seq ≤ prev)

def checkAndUpdateSeq (b : BrokerState) (id seq : ℕ) : BrokerState × Bool :=
  if b.seqPasses id seq then (b.update id fun c => { c with lastSeq := some seq }, true)
  else (b, false)

end BrokerState

/-- What an accepted `hello` asks for; its `seq` is 1. -/
structure Hello where
  role : Option RequestedRole
  commandMode : CommandMode
  streamObservations : Bool
  deriving DecidableEq, Repr

def helloSeq : ℕ := 1

def Hello.requestedRole (h : Hello) : RequestedRole := h.role.getD .Auto

/-- First section of an accepted hello. -/
def recordHello (b : BrokerState) (id : ℕ) (h : Hello) : BrokerState :=
  b.update id fun c => { c with
    handshaken := true, lastSeq := some helloSeq, requestedRole := h.requestedRole,
    commandMode := h.commandMode, streamObservations := h.streamObservations }

/-- Second section of a hello: the controller assignment. -/
def assignController (b : BrokerState) (id : ℕ) (h : Hello) : BrokerState :=
  let b := b.clearStaleController
  if b.controllerId = none ∧ h.requestedRole ≠ .Observer then { b with controllerId := some id } else b

/-- The flag says that the claim was acknowledged. -/
def claim (b : BrokerState) (id : ℕ) : BrokerState × Bool :=
  let b := b.clearStaleController
  if b.isController id then (b, true)
  else if b.controllerId = none then ({ b with controllerId := some id }, true)
  else (b, false)

def release (b : BrokerState) (id : ℕ) : BrokerState :=
  if b.isController id then { b with controllerId := none } else b

structure System where
  broker : BrokerState
  pending : List (ℕ × Hello)
  seen : List ℕ
  claimed : List ℕ
  deriving DecidableEq, Repr

def System.initial : System := ⟨⟨[], none⟩, [], [], []⟩

inductive BrokerStep where
  | connect (id : ℕ)
  | recordHello (id : ℕ) (hello : Hello)
  | assign (id : ℕ) (hello : Hello)
  | message (id seq : ℕ)
  | claim (id : ℕ)
  | release (id : ℕ)
  | die (id : ℕ)
  | cleanup (id : ℕ)
  deriving DecidableEq, Repr

/-- The task of `id` runs and is not between the two sections of a hello. -/
def System.idle (s : System) (id : ℕ) : Bool :=
  (s.broker.find id).isSome && s.pending.all fun p => p.1 ≠ id

/-- One atomic step, `none` where no task can take it. A hello from a handshaken client has to
pass the sequence check; claim and release come after the handshake check. -/
def System.step (s : System) : BrokerStep → Option System
  | .connect id =>
    if id ∈ s.seen then none
    else some { s with
      broker := { s.broker with clients := s.broker.clients ++ [.new id] }, seen := id :: s.seen }
  | .recordHello id hello =>
    if s.idle id && (!s.broker.isHandshaken id || s.broker.seqPasses id helloSeq) then
      some { s with
        broker := recordHello s.broker id hello, pending := (id, hello) :: s.pending }
    else none
  | .assign id hello =>
    if (id, hello) ∈ s.pending then
      some { s with
        broker := assignController s.broker id hello
        pending := s.pending.filter fun p => p.1 ≠ id }
    else none
  | .message id seq =>
    if s.idle id && s.broker.isHandshaken id then
      some { s with broker := (s.broker.checkAndUpdateSeq id seq).1 }
    else none
  | .claim id =>
    if s.idle id && s.broker.isHandshaken id then
      let r := AdapterBroker.claim s.broker id
      some { s with broker := r.1, claimed := if r.2 then id :: s.claimed else s.claimed }
    else none
  | .release id =>
    if s.idle id && s.broker.isHandshaken id then
      some { s with broker := AdapterBroker.release s.broker id }
    else none
  | .die id => some { s with broker := s.broker.update id fun c => { c with live := false } }
  | .cleanup id =>
    if s.idle id then some { s with broker := s.broker.removeAndPromote id } else none

/-- The controller is registered, has said hello, and has claimed if it asked to observe. -/
def Eligible (s : System) : Prop :=
  ∀ id, s.broker.controllerId = some id → ∃ c ∈ s.broker.clients, c.id = id ∧
    c.handshaken = true ∧ (c.requestedRole = .Observer → id ∈ s.claimed)

/-- When the controller is cleaned up, the promotable client with the least id, if there is one,
has said hello. -/
def promotesGreeted (s : System) : BrokerStep → Bool
  | .cleanup id =>
    !s.broker.isController id ||
      let rest := BrokerState.candidates (s.broker.clients.filter fun c => c.id ≠ id)
      rest.all fun c => c.handshaken || rest.any fun d => d.id < c.id
  | _ => true

end TuiTetris.AdapterBroker
