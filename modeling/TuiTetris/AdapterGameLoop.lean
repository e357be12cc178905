import TuiTetris.AdapterObservation

set_option autoImplicit false

/-!
# The game-loop step shared by every runner

`drain` is the loop that empties the inbound queue, and `finish` the rest of
`step_session`. What the step sends is a list in sending order. A responder is
the id of its client.
-/
namespace TuiTetris.AdapterGameLoop
open CoreTypes LibArrayVec SessionPlace SessionEngine SessionReplay AdapterProtocol
open AdapterObservation

def maxCommandsPerStep : ℕ := 32

inductive InboundPayload where
  | Command (command : GameCommand)
  | SnapshotRequest
  deriving DecidableEq

structure InboundCommand where
  clientId : ℕ
  seq : UInt64
  payload : InboundPayload
  deriving DecidableEq

structure PendingCommand where
  seq : UInt64
  command : GameCommand
  responder : ℕ
  deriving DecidableEq

inductive Outbound where
  | ack (client : ℕ) (message : AckMessage)
  | error (client : ℕ) (message : ErrorMessage)
  | observation (client : ℕ) (message : ObservationMessage)
  | broadcast (message : ObservationMessage)
  deriving DecidableEq

def Outbound.observation? : Outbound → Option ObservationMessage
  | .observation _ message => some message
  | .broadcast message => some message
  | _ => none

def Outbound.identity? : Outbound → Option (UInt64 × StateHash)
  | .ack _ message => message.appliedStep.bind fun step => message.stateHash.map fun h => (step, h)
  | .error _ _ => none
  | .observation _ message => some (message.logicalStep, message.stateHash)
  | .broadcast message => some (message.logicalStep, message.stateHash)

/-- What the draining loop changes. -/
structure Drain where
  observations : ObservationSchedule
  pending : ArrayVec PendingCommand maxCommandsPerStep
  deriving DecidableEq

def Drain.start (observations : ObservationSchedule) : Drain := ⟨observations, .empty⟩

/-- The body of the draining loop: a snapshot request is answered at once. -/
def receive (session : SessionRuntime) (d : Drain) (inbound : InboundCommand) :
    Drain × List Outbound :=
  match inbound.payload with
  | .SnapshotRequest =>
    let numbered := d.observations.immediate
    ({ d with observations := numbered.1 },
      [.observation inbound.clientId
        (buildObservation numbered.2.1 session.logicalStep session.snapshot numbered.2.2)])
  | .Command command =>
    ({ d with pending := d.pending.push ⟨inbound.seq, command, inbound.clientId⟩ }, [])

/-- At most `n` turns; the rest of the queue comes last. -/
def drain (session : SessionRuntime) :
    ℕ → List InboundCommand → Drain → Drain × List Outbound × List InboundCommand
  | 0, queue, d => (d, [], queue)
  | _ + 1, [], d => (d, [], [])
  | n + 1, inbound :: queue, d =>
    let received := receive session d inbound
    let rest := drain session n queue received.1
    (rest.1, received.2 ++ rest.2.1, rest.2.2)

def reply (session : SessionRuntime) (transition : Transition) (pending : PendingCommand) :
    CommandOutcome → Outbound
  | .ok () =>
    .ack pending.responder (createAppliedAck pending.seq pending.seq session.logicalStep
      ⟨transitionHash session.snapshot 0 transition.events []⟩)
  | .error error =>
    .error pending.responder (createError pending.seq (mapPlaceErrorCode error) error.message)

structure LoopState where
  session : SessionRuntime
  observations : ObservationSchedule
  deriving DecidableEq

def LoopState.new (seed frequencyHz : UInt32) : LoopState :=
  let session := SessionRuntime.new seed
  ⟨session, .new session.game frequencyHz⟩

/-- `step_session` after the queue is drained. -/
def finish (session : SessionRuntime) (d : Drain) (hasAdapter : Bool)
    (localActions : ArrayVec GameAction maxLocalActionsPerStep) (hasStreamingSubscribers : Bool) :
    LoopState × List Outbound × Transition :=
  let moved := session.transition
    { remote := d.pending.map PendingCommand.command, locals := localActions }
  let replies := (d.pending.toList.zip moved.2.commandOutcomes).map fun item =>
    reply moved.1 moved.2 item.1 item.2
  let captured := moved.2.events.foldl ObservationSchedule.captureEvent d.observations
  let ticked := captured.afterTick moved.1.game
  let broadcast := match ticked.2 with
    | some numbered =>
      if hasStreamingSubscribers && hasAdapter then
        [.broadcast (buildObservation numbered.1 moved.1.logicalStep moved.1.snapshot numbered.2)]
      else []
    | none => []
  (⟨moved.1, ticked.1⟩, replies ++ broadcast, moved.2)

structure StepResult where
  state : LoopState
  queue : Option (List InboundCommand)
  sent : List Outbound
  transition : Transition

/-- `adapter` is the queue of inbound messages, when there is an adapter. -/
def stepSession (adapter : Option (List InboundCommand)) (s : LoopState)
    (localActions : ArrayVec GameAction maxLocalActionsPerStep) (hasStreamingSubscribers : Bool) :
    StepResult :=
  let drained := match adapter with
    | some queue => drain s.session maxCommandsPerStep queue (.start s.observations)
    | none => (.start s.observations, [], [])
  let finished := finish s.session drained.1 adapter.isSome localActions hasStreamingSubscribers
  { state := finished.1, queue := adapter.map fun _ => drained.2.2,
    sent := drained.2.1 ++ finished.2.1, transition := finished.2.2 }

def InboundCommand.pendingCommand (inbound : InboundCommand) : Option PendingCommand :=
  match inbound.payload with
  | .Command command => some ⟨inbound.seq, command, inbound.clientId⟩
  | .SnapshotRequest => none

/-- The loop takes the messages in order and no command is dropped. -/
theorem drain_pending (session : SessionRuntime) (n : ℕ) (queue : List InboundCommand) (d : Drain)
    (h : d.pending.toList.length + n ≤ maxCommandsPerStep) :
    (drain session n queue d).1.pending.toList =
        d.pending.toList ++ (queue.take n).filterMap InboundCommand.pendingCommand ∧
      (drain session n queue d).2.2 = queue.drop n := by
  induction n generalizing queue d with
  | zero => exact ⟨(List.append_nil _).symm, rfl⟩
  | succ n ih =>
    cases queue with
    | nil => exact ⟨(List.append_nil _).symm, rfl⟩
    | cons inbound queue =>
      obtain ⟨clientId, seq, payload⟩ := inbound
      cases payload with
      | SnapshotRequest => exact ih queue _ (by change d.pending.toList.length + n ≤ _; omega)
      | Command command =>
        have hp := ArrayVec.push_toList d.pending ⟨seq, command, clientId⟩ (by omega)
        obtain ⟨hpending, hrest⟩ := ih queue
          { d with pending := d.pending.push ⟨seq, command, clientId⟩ } (by
            rw [hp, List.length_append, List.length_singleton]
            omega)
        refine ⟨hpending.trans ?_, hrest⟩
        rw [hp, List.append_assoc]
        rfl

end TuiTetris.AdapterGameLoop
