import TuiTetris.AdapterGameLoop

set_option autoImplicit false

/-!
# The driver without a loop

`SessionProtocolDriver` answers one message at a time, without a queue and a clock. It
goes through the same transitions and gives the same replies as the shared step when
every command comes alone and is followed by a number of idle steps.
-/
namespace TuiTetris.AdapterDriver
open LibArrayVec SessionEngine AdapterObservation AdapterGameLoop

structure SessionProtocolDriver where
  session : SessionRuntime
  observations : ObservationSchedule
  postCommandSteps : UInt8

namespace SessionProtocolDriver

def fromSession (session : SessionRuntime) (observationHz : UInt32) : SessionProtocolDriver :=
  ⟨session, .new session.game observationHz, 0⟩

def new (seed observationHz : UInt32) : SessionProtocolDriver := fromSession (.new seed) observationHz

def withPostCommandSteps (d : SessionProtocolDriver) (steps : UInt8) : SessionProtocolDriver :=
  { d with postCommandSteps := steps }

/-- One idle step, its events captured. -/
def idle (d : SessionProtocolDriver) : SessionProtocolDriver :=
  let moved := d.session.transition .default
  { d with
    session := moved.1
    observations := moved.2.events.foldl ObservationSchedule.captureEvent d.observations }

def idleLoop : ℕ → SessionProtocolDriver → SessionProtocolDriver
  | 0, d => d
  | n + 1, d => idleLoop n d.idle

/-- The observation that closes every answer. -/
def observe (d : SessionProtocolDriver) (clientId : ℕ) : SessionProtocolDriver × Outbound :=
  let numbered := d.observations.immediate
  ({ d with observations := numbered.1 },
    .observation clientId
      (buildObservation numbered.2.1 d.session.logicalStep d.session.snapshot numbered.2.2))

def handle (d : SessionProtocolDriver) (inbound : InboundCommand) :
    SessionProtocolDriver × List Outbound :=
  match inbound.payload with
  | .SnapshotRequest =>
    let observed := d.observe inbound.clientId
    (observed.1, [observed.2])
  | .Command command =>
    let moved := d.session.transition { StepInput.default with remote := ArrayVec.empty.push command }
    let replies := match moved.2.commandOutcomes.head? with
      | some outcome => [reply moved.1 moved.2 ⟨inbound.seq, command, inbound.clientId⟩ outcome]
      | none => []
    let captured : SessionProtocolDriver := { d with
      session := moved.1
      observations := moved.2.events.foldl ObservationSchedule.captureEvent d.observations }
    let observed := (idleLoop d.postCommandSteps.toNat captured).observe inbound.clientId
    (observed.1, replies ++ [observed.2])

def handleAll : SessionProtocolDriver → List InboundCommand → SessionProtocolDriver × List Outbound
  | d, [] => (d, [])
  | d, inbound :: rest =>
    let handled := d.handle inbound
    let later := handleAll handled.1 rest
    (later.1, handled.2 ++ later.2)

end SessionProtocolDriver

/-! ## The same messages through the shared step -/

/-- Steps of the loop, each with the messages that wait for it. -/
def stepAll : LoopState → List (List InboundCommand) → LoopState × List Outbound
  | s, [] => (s, [])
  | s, queue :: rest =>
    let stepped := stepSession (some queue) s .empty false
    let later := stepAll stepped.state rest
    (later.1, stepped.sent ++ later.2)

/-- A command alone and then its idle steps; a snapshot request takes no step. -/
def schedule (postCommandSteps : ℕ) (inbounds : List InboundCommand) : List (List InboundCommand) :=
  inbounds.flatMap fun inbound =>
    match inbound.payload with
    | .Command _ => [inbound] :: List.replicate postCommandSteps []
    | .SnapshotRequest => []

/-- Acks and errors. -/
def isReply : Outbound → Bool
  | .ack _ _ => true
  | .error _ _ => true
  | _ => false

theorem stepAll_append (s : LoopState) (first second : List (List InboundCommand)) :
    stepAll s (first ++ second) =
      ((stepAll (stepAll s first).1 second).1,
        (stepAll s first).2 ++ (stepAll (stepAll s first).1 second).2) := by
  induction first generalizing s with
  | nil => rfl
  | cons queue first ih =>
    simp only [List.cons_append, stepAll, ih, List.append_assoc]

/-! ## One step of each -/

theorem finish_session (session : SessionRuntime) (drained : Drain) (hasAdapter streaming : Bool) :
    (finish session drained hasAdapter .empty streaming).1.session =
      (session.transition { StepInput.default with
        remote := drained.pending.map PendingCommand.command }).1 := rfl

/-- A step may broadcast, which is no reply. -/
theorem finish_replies (session : SessionRuntime) (drained : Drain) (hasAdapter streaming : Bool) :
    (finish session drained hasAdapter .empty streaming).2.1.filter isReply =
      ((drained.pending.toList.zip (session.transition { StepInput.default with
        remote := drained.pending.map PendingCommand.command }).2.commandOutcomes).map fun item =>
          reply (session.transition { StepInput.default with
            remote := drained.pending.map PendingCommand.command }).1
            (session.transition { StepInput.default with
              remote := drained.pending.map PendingCommand.command }).2 item.1 item.2) := by
  have hreply : ∀ (moved : SessionRuntime) (transition : Transition) (pending : PendingCommand)
      (outcome : CommandOutcome), isReply (reply moved transition pending outcome) = true := by
    intro moved transition pending outcome
    cases outcome <;> rfl
  unfold finish
  simp only [List.filter_append]
  rw [List.filter_eq_self.2, List.filter_eq_nil_iff.2, List.append_nil]
  · rfl
  · intro out hout
    split at hout
    · split at hout
      · obtain rfl := List.mem_singleton.1 hout
        exact Bool.false_ne_true
      · cases hout
    · cases hout
  · intro out hout
    obtain ⟨item, -, rfl⟩ := List.mem_map.1 hout
    exact hreply _ _ _ _

theorem one_command (command : GameCommand) (seq : UInt64) (clientId : ℕ) :
    (ArrayVec.empty.push (⟨seq, command, clientId⟩ : PendingCommand) :
        ArrayVec PendingCommand AdapterGameLoop.maxCommandsPerStep).map PendingCommand.command =
      ArrayVec.empty.push command := by
  refine ArrayVec.ext_toList ?_
  rw [ArrayVec.map_toList, ArrayVec.push_toList _ _ (by decide), ArrayVec.push_toList _ _ (by decide)]
  rfl

theorem one_outcome (session : SessionRuntime) (command : GameCommand) :
    (session.transition { StepInput.default with
        remote := ArrayVec.empty.push command }).2.commandOutcomes =
      [(applyGameCommand session.game command).2] := by
  change (applyRemote (ArrayVec.empty.push command : ArrayVec GameCommand _).toList _).2 = _
  rw [ArrayVec.push_toList _ _ (by decide)]
  rfl

/-- A step with nothing to do is the idle step of the driver. -/
theorem step_idle (s : LoopState) (d : SessionProtocolDriver) (h : s.session = d.session) :
    (stepSession (some []) s .empty false).state.session = d.idle.session ∧
      (stepSession (some []) s .empty false).sent.filter isReply = [] := by
  constructor
  · change (s.session.transition .default).1 = (d.session.transition .default).1
    rw [h]
  · change (([] : List Outbound) ++ (finish s.session (.start s.observations) true .empty false).2.1).filter
      isReply = []
    rw [List.nil_append, finish_replies]
    rfl

theorem steps_idle (steps : ℕ) (s : LoopState) (d : SessionProtocolDriver)
    (h : s.session = d.session) :
    (stepAll s (List.replicate steps [])).1.session = (d.idleLoop steps).session ∧
      (stepAll s (List.replicate steps [])).2.filter isReply = [] := by
  induction steps generalizing s d with
  | zero => exact ⟨h, rfl⟩
  | succ steps ih =>
    obtain ⟨hsession, hsent⟩ := step_idle s d h
    obtain ⟨hlater, hrest⟩ := ih _ _ hsession
    refine ⟨hlater, ?_⟩
    change (_ ++ _ : List Outbound).filter isReply = []
    rw [List.filter_append, hsent, hrest]
    rfl

theorem idleLoop_steps (steps : ℕ) (d : SessionProtocolDriver) :
    (d.idleLoop steps).postCommandSteps = d.postCommandSteps := by
  induction steps generalizing d with
  | zero => rfl
  | succ steps ih => exact ih d.idle

theorem handle_steps (d : SessionProtocolDriver) (inbound : InboundCommand) :
    (d.handle inbound).1.postCommandSteps = d.postCommandSteps := by
  unfold SessionProtocolDriver.handle
  split
  · rfl
  · exact idleLoop_steps _ _

/-- One message and the steps scheduled for it. -/
theorem handle_agrees (d : SessionProtocolDriver) (s : LoopState) (inbound : InboundCommand)
    (h : s.session = d.session) :
    (stepAll s (schedule d.postCommandSteps.toNat [inbound])).1.session =
        (d.handle inbound).1.session ∧
      (stepAll s (schedule d.postCommandSteps.toNat [inbound])).2.filter isReply =
        (d.handle inbound).2.filter isReply := by
  obtain ⟨clientId, seq, payload⟩ := inbound
  cases payload with
  | SnapshotRequest => exact ⟨h, rfl⟩
  | Command command =>
    -- the queue of one message is the drain of one command
    let drained : Drain := ⟨s.observations, ArrayVec.empty.push ⟨seq, command, clientId⟩⟩
    let input : StepInput := { StepInput.default with remote := ArrayVec.empty.push command }
    have hinput : { StepInput.default with
        remote := drained.pending.map PendingCommand.command } = input :=
      congrArg (fun remote => { StepInput.default with remote := remote })
        (one_command command seq clientId)
    have hfirst : (finish s.session drained true .empty false).1.session =
        (d.session.transition input).1 := by
      rw [finish_session, hinput, h]
    have hreplies : (finish s.session drained true .empty false).2.1.filter isReply =
        [reply (d.session.transition input).1 (d.session.transition input).2 ⟨seq, command, clientId⟩
          (applyGameCommand d.session.game command).2] := by
      rw [finish_replies, hinput, h, one_outcome, ArrayVec.push_toList _ _ (by decide)]
      rfl
    obtain ⟨hlater, hrest⟩ := steps_idle d.postCommandSteps.toNat
      (finish s.session drained true .empty false).1
      { d with
        session := (d.session.transition input).1
        observations := (d.session.transition input).2.events.foldl
          ObservationSchedule.captureEvent d.observations } hfirst
    have hschedule : schedule d.postCommandSteps.toNat
        [(⟨clientId, seq, .Command command⟩ : InboundCommand)] =
          [⟨clientId, seq, .Command command⟩] :: List.replicate d.postCommandSteps.toNat [] :=
      List.append_nil _
    rw [hschedule]
    refine ⟨hlater, ?_⟩
    change ((finish s.session drained true .empty false).2.1 ++
      (stepAll (finish s.session drained true .empty false).1
        (List.replicate d.postCommandSteps.toNat [])).2).filter isReply = _
    rw [List.filter_append, hreplies, hrest, List.append_nil]
    unfold SessionProtocolDriver.handle
    simp only []
    rw [one_outcome, List.filter_append]
    have hobserve : [((SessionProtocolDriver.idleLoop d.postCommandSteps.toNat
        { d with
          session := (d.session.transition input).1
          observations := (d.session.transition input).2.events.foldl
            ObservationSchedule.captureEvent d.observations }).observe clientId).2].filter
        isReply = [] := rfl
    rw [hobserve, List.append_nil]
    cases (applyGameCommand d.session.game command).2 <;> rfl

/-- The synchronous runner leaves the session where the loop leaves it and answers every command
alike. -/
theorem driver_agrees (d : SessionProtocolDriver) (observations : ObservationSchedule)
    (inbounds : List InboundCommand) :
    (stepAll ⟨d.session, observations⟩ (schedule d.postCommandSteps.toNat inbounds)).1.session =
        (d.handleAll inbounds).1.session ∧
      (stepAll ⟨d.session, observations⟩
          (schedule d.postCommandSteps.toNat inbounds)).2.filter isReply =
        (d.handleAll inbounds).2.filter isReply := by
  suffices hall : ∀ (d : SessionProtocolDriver) (s : LoopState), s.session = d.session →
      (stepAll s (schedule d.postCommandSteps.toNat inbounds)).1.session =
          (d.handleAll inbounds).1.session ∧
        (stepAll s (schedule d.postCommandSteps.toNat inbounds)).2.filter isReply =
          (d.handleAll inbounds).2.filter isReply from hall d _ rfl
  induction inbounds with
  | nil => exact fun _ _ h => ⟨h, rfl⟩
  | cons inbound rest ih =>
    intro d s h
    obtain ⟨hsession, hsent⟩ := handle_agrees d s inbound h
    obtain ⟨hlater, hrest⟩ := ih (d.handle inbound).1 _ hsession
    rw [handle_steps] at hlater hrest
    have hschedule : schedule d.postCommandSteps.toNat (inbound :: rest) =
        schedule d.postCommandSteps.toNat [inbound] ++ schedule d.postCommandSteps.toNat rest := by
      unfold schedule
      rw [List.flatMap_cons, List.flatMap_cons, List.flatMap_nil, List.append_nil]
    rw [hschedule, stepAll_append]
    refine ⟨hlater, ?_⟩
    change (_ ++ _ : List Outbound).filter isReply = (_ ++ _ : List Outbound).filter isReply
    rw [List.filter_append, List.filter_append, hsent, hrest]

end TuiTetris.AdapterDriver
