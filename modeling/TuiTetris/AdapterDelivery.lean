import Mathlib.Logic.Function.Basic
import TuiTetris.AdapterBroker
import TuiTetris.AdapterGameLoop
import TuiTetris.LibLatestSlot

set_option autoImplicit false

/-!
# Delivery of observations

The parties are the game loop, the outbound dispatcher, the broker tasks and one
writer per client; one step is what a party does without giving way to another.
The game loop answers a request into the slot of the client and broadcasts into
the slot of the dispatcher, which holds the broker lock while it publishes.
Any message may be the next one of the inbound queue. Reliable messages go another
way. `replies` is a record beside the state.
-/
namespace TuiTetris.AdapterDelivery
open CoreTypes LibArrayVec LibLatestSlot SessionEngine
open AdapterProtocol AdapterObservation AdapterGameLoop AdapterBroker

/-- `live` is `is_live()`, `reading` is `receiver_count() > 0`. -/
structure Client where
  mailbox : Mailbox ObservationMessage
  replies : List ObservationMessage
  live : Bool
  reading : Bool

def Client.new : Client := ⟨.empty, [], true, true⟩

/-- The check of `publish_observation`. -/
def Client.accepts (c : Client) : Bool := c.live && c.reading

/-- The game loop between two messages, after `turns` turns of the draining loop. -/
structure Loop where
  session : SessionRuntime
  drain : Drain
  turns : ℕ

inductive Dispatcher where
  | waiting
  | holding (obs : ObservationMessage)
  | publishing (obs : ObservationMessage) (rest : List ℕ)

/-- The read lock of the broker is taken. -/
def Dispatcher.locks : Dispatcher → Bool
  | .publishing _ _ => true
  | _ => false

def Dispatcher.inHand : Dispatcher → Option ObservationMessage
  | .waiting => none
  | .holding obs => some obs
  | .publishing obs _ => some obs

def Dispatcher.awaits : Dispatcher → ℕ → Prop
  | .waiting, _ => False
  | .holding _, _ => True
  | .publishing _ rest, id => id ∈ rest

structure Delivery where
  loop : Loop
  latest : Watch ObservationMessage
  dispatcher : Dispatcher
  server : System
  clients : ℕ → Client

def Delivery.initial (seed frequencyHz : UInt32) : Delivery :=
  let start := LoopState.new seed frequencyHz
  { loop := ⟨start.session, .start start.observations, 0⟩, latest := .empty, dispatcher := .waiting,
    server := .initial, clients := fun _ => .new }

namespace Delivery

def setClient (s : Delivery) (id : ℕ) (client : Client) : Delivery :=
  { s with clients := Function.update s.clients id client }

@[simp] theorem setClient_same (s : Delivery) (id : ℕ) (client : Client) :
    (s.setClient id client).clients id = client := Function.update_self _ _ _

theorem setClient_other (s : Delivery) {id i : ℕ} (client : Client) (h : i ≠ id) :
    (s.setClient id client).clients i = s.clients i := Function.update_of_ne h _ _

theorem forall_setClient (s : Delivery) {id : ℕ} {client : Client} (P : ℕ → Client → Prop)
    (hid : P id client) (hrest : ∀ i, P i (s.clients i)) (i : ℕ) :
    P i ((s.setClient id client).clients i) := by
  by_cases hi : i = id
  · rw [hi, setClient_same]
    exact hid
  · rw [setClient_other s client hi]
    exact hrest i

def requestShutdown (s : Delivery) (id : ℕ) : Delivery :=
  { s with
    server := { s.server with broker := s.server.broker.update id fun c => { c with live := false } }
    clients := Function.update s.clients id { s.clients id with live := false } }

/-- `publish_observation`; `replies` are the observations to add to the record. -/
def publishObservation (s : Delivery) (id : ℕ) (obs : ObservationMessage)
    (replies : List ObservationMessage) : Delivery :=
  let client := s.clients id
  if client.accepts then
    s.setClient id { client with
      mailbox := client.mailbox.publish obs, replies := client.replies ++ replies }
  else s.requestShutdown id

def send (s : Delivery) : Outbound → Delivery
  | .observation id obs => s.publishObservation id obs [obs]
  | .broadcast obs => { s with latest := .send obs }
  | _ => s

def subscribers (b : BrokerState) : List ℕ :=
  (b.clients.filter ClientHandle.streamObservations).map ClientHandle.id

end Delivery

inductive DeliveryStep where
  | receive (inbound : InboundCommand)
  | finish (localActions : ArrayVec GameAction maxLocalActionsPerStep) (streaming : Bool)
  | dispatcherRecv
  | dispatcherLock
  | dispatcherPublish
  | dispatcherDone
  | broker (step : BrokerStep)
  | write (id : ℕ)
  | writerExit (id : ℕ)
  | shutdown (id : ℕ)

/-- One atomic step, `none` where no party can take it. -/
def Delivery.step (s : Delivery) : DeliveryStep → Option Delivery
  | .receive inbound =>
    if s.loop.turns < AdapterGameLoop.maxCommandsPerStep then
      let received := AdapterGameLoop.receive s.loop.session s.loop.drain inbound
      some (received.2.foldl send
        { s with loop := { s.loop with drain := received.1, turns := s.loop.turns + 1 } })
    else none
  | .finish localActions streaming =>
    let finished := AdapterGameLoop.finish s.loop.session s.loop.drain true localActions streaming
    some (finished.2.1.foldl send
      { s with loop := ⟨finished.1.session, .start finished.1.observations, 0⟩ })
  | .dispatcherRecv =>
    match s.dispatcher with
    | .waiting => s.latest.take.map fun r => { s with latest := r.2, dispatcher := .holding r.1 }
    | _ => none
  | .dispatcherLock =>
    match s.dispatcher with
    | .holding obs => some { s with dispatcher := .publishing obs (subscribers s.server.broker) }
    | _ => none
  | .dispatcherPublish =>
    match s.dispatcher with
    | .publishing obs (id :: rest) =>
      some ({ s with dispatcher := .publishing obs rest }.publishObservation id obs [])
    | _ => none
  | .dispatcherDone =>
    match s.dispatcher with
    | .publishing _ [] => some { s with dispatcher := .waiting }
    | _ => none
  -- a broker task needs the write lock, and liveness changes by `shutdown` alone
  | .broker step =>
    match step with
    | .die _ => none
    | step =>
      if s.dispatcher.locks then none
      else (s.server.step step).map fun server => { s with server := server }
  | .write id =>
    if (s.clients id).reading then
      (s.clients id).mailbox.read.map fun m => s.setClient id { s.clients id with mailbox := m }
    else none
  | .writerExit id =>
    some ((s.setClient id { s.clients id with reading := false }).requestShutdown id)
  | .shutdown id => some (s.requestShutdown id)

def number (obs : ObservationMessage) : ℕ := obs.seq.toNat

/-- The game loop has numbers left, and a client that accepts gets from the dispatcher only what is
newer than every snapshot reply to it. -/
def onTime (s : Delivery) : DeliveryStep → Bool
  | .receive _ => s.loop.drain.observations.seq.toNat + 1 < 2 ^ 64
  | .finish _ _ => s.loop.drain.observations.seq.toNat + 1 < 2 ^ 64
  | .dispatcherPublish =>
    match s.dispatcher with
    | .publishing obs (id :: _) =>
      !(s.clients id).accepts || (s.clients id).replies.all fun reply => number reply < number obs
    | _ => true
  | _ => true

def Delivery.onTimeStep (s : Delivery) (step : DeliveryStep) : Option Delivery :=
  if onTime s step then s.step step else none

end TuiTetris.AdapterDelivery
