import TuiTetris.AdapterGameLoop
import TuiTetris.LibTransition

set_option autoImplicit false

/-!
# From the command queue to the replies

The game loop with a bounded queue that other tasks fill at any moment, also
between two turns of the draining loop. The history of a run is cut into batches:
what one call takes from the queue, its transition, and its replies.
-/
namespace TuiTetris.AdapterCommandFlow
open CoreTypes CoreGameState LibArrayVec LibTransition SessionEngine SessionReplay
open AdapterProtocol AdapterObservation AdapterGameLoop

inductive Activity where
  | arrived (inbound : InboundCommand)
  | dequeued (inbound : InboundCommand)
  | applied (session : SessionRuntime) (input : StepInput)
  | sent (message : Outbound)
  deriving DecidableEq

/-- `turns` counts the turns of the draining loop, `stopped` says that it found the queue empty. -/
structure Runner where
  session : SessionRuntime
  drain : Drain
  turns : ℕ
  stopped : Bool
  queue : List InboundCommand
  history : List Activity
  deriving DecidableEq

def Runner.start (s : LoopState) : Runner := ⟨s.session, .start s.observations, 0, false, [], []⟩

inductive RunnerStep where
  | arrive (inbound : InboundCommand)
  | tryRecv
  | finish (localActions : ArrayVec GameAction maxLocalActionsPerStep) (streaming : Bool)
  deriving DecidableEq

namespace Runner

/-- The draining loop is over. -/
def drained (r : Runner) : Bool := r.turns = AdapterGameLoop.maxCommandsPerStep || r.stopped

def tryRecv (r : Runner) : Runner :=
  match r.queue with
  | [] => { r with stopped := true }
  | inbound :: queue =>
    let received := receive r.session r.drain inbound
    { r with
      drain := received.1, turns := r.turns + 1, queue
      history := r.history ++ .dequeued inbound :: received.2.map .sent }

def finish (r : Runner) (localActions : ArrayVec GameAction maxLocalActionsPerStep)
    (streaming : Bool) : Runner :=
  let finished := AdapterGameLoop.finish r.session r.drain true localActions streaming
  { r with
    session := finished.1.session, drain := .start finished.1.observations, turns := 0
    stopped := false
    history := r.history ++
      .applied r.session ⟨r.drain.pending.map PendingCommand.command, localActions⟩ ::
        finished.2.1.map .sent }

/-- An arrival that finds the queue full is refused. -/
def step (capacity : ℕ) (r : Runner) : RunnerStep → Option Runner
  | .arrive inbound =>
    if r.queue.length < capacity then
      some { r with queue := r.queue ++ [inbound], history := r.history ++ [.arrived inbound] }
    else none
  | .tryRecv => if r.drained then none else some r.tryRecv
  | .finish localActions streaming => if r.drained then some (r.finish localActions streaming) else none

end Runner

def Activity.arrival? : Activity → Option InboundCommand
  | .arrived inbound => some inbound
  | _ => none

def Activity.dequeue? : Activity → Option InboundCommand
  | .dequeued inbound => some inbound
  | _ => none

def Activity.message? : Activity → Option Outbound
  | .sent message => some message
  | _ => none

theorem Runner.tryRecv_nil {r : Runner} (h : r.queue = []) :
    r.tryRecv = { r with stopped := true } := by
  unfold Runner.tryRecv
  rw [h]

theorem Runner.tryRecv_cons {r : Runner} {inbound : InboundCommand} {queue : List InboundCommand}
    (h : r.queue = inbound :: queue) :
    r.tryRecv = { r with
      drain := (receive r.session r.drain inbound).1, turns := r.turns + 1, queue
      history := r.history ++ .dequeued inbound ::
        (receive r.session r.drain inbound).2.map .sent } := by
  unfold Runner.tryRecv
  rw [h]

/-! ## A call without arrivals is `stepSession` -/

def sentMessages (r : Runner) : List Outbound := r.history.filterMap Activity.message?

theorem message_sent (ms : List Outbound) : (ms.map Activity.sent).filterMap Activity.message? = ms := by
  rw [List.filterMap_map]
  exact List.filterMap_some

/-- One activity that is no message, and the messages it leads to. -/
theorem messages_append (history : List Activity) {a : Activity} (ha : a.message? = none)
    (ms : List Outbound) : (history ++ a :: ms.map .sent).filterMap Activity.message? =
      history.filterMap Activity.message? ++ ms := by
  rw [List.filterMap_append, List.filterMap_cons_none ha, message_sent]

theorem drain_steps (capacity n : ℕ) {r : Runner} (hs : r.stopped = false)
    (ht : r.turns + n = AdapterGameLoop.maxCommandsPerStep) :
    ∃ (steps : List RunnerStep) (u : Runner), steps.foldlM (Runner.step capacity) r = some u ∧
      u.drained = true ∧ u.session = r.session ∧
      u.drain = (drain r.session n r.queue r.drain).1 ∧
      u.queue = (drain r.session n r.queue r.drain).2.2 ∧
      sentMessages u = sentMessages r ++ (drain r.session n r.queue r.drain).2.1 := by
  induction n generalizing r with
  | zero =>
    have hd : r.drained = true := by simp [Runner.drained, ← ht]
    exact ⟨[], r, rfl, hd, rfl, rfl, rfl, (List.append_nil _).symm⟩
  | succ n ih =>
    have hopen : r.drained = false := by
      have hne : r.turns ≠ AdapterGameLoop.maxCommandsPerStep := by omega
      simp [Runner.drained, hne, hs]
    have hstep : r.step capacity .tryRecv = some r.tryRecv := by
      rw [Runner.step, hopen]
      rfl
    cases hq : r.queue with
    | nil =>
      have hu := Runner.tryRecv_nil hq
      refine ⟨[.tryRecv], r.tryRecv, ?_, ?_, ?_, ?_, ?_, ?_⟩
      · rw [List.foldlM_cons, hstep]
        rfl
      · rw [hu]
        exact Bool.or_true _
      · rw [hu]
      · rw [hu]
        rfl
      · rw [hu]
        exact hq
      · rw [hu]
        exact (List.append_nil _).symm
    | cons inbound queue =>
      have hu := Runner.tryRecv_cons hq
      have hturns : r.tryRecv.turns + n = AdapterGameLoop.maxCommandsPerStep := by
        rw [hu]
        change r.turns + 1 + n = _
        omega
      have hsent : sentMessages r.tryRecv =
          sentMessages r ++ (receive r.session r.drain inbound).2 := by
        rw [hu]
        exact messages_append r.history rfl _
      obtain ⟨steps, u, hrun, hd, hsession, hdrain, hqueue, hmessages⟩ :=
        ih (r := r.tryRecv) (by rw [hu]; exact hs) hturns
      rw [hsent, List.append_assoc] at hmessages
      rw [hu] at hsession hdrain hqueue hmessages
      refine ⟨.tryRecv :: steps, u, ?_, hd, hsession, hdrain, hqueue, hmessages⟩
      rw [List.foldlM_cons, hstep]
      exact hrun

/-- One call of `stepSession` is a run of this system in which nothing arrives. -/
theorem stepSession_steps (capacity : ℕ) {r : Runner} (hs : r.stopped = false) (ht : r.turns = 0)
    (hd : r.drain = .start r.drain.observations)
    (localActions : ArrayVec GameAction maxLocalActionsPerStep) (streaming : Bool) :
    ∃ (steps : List RunnerStep) (u : Runner), steps.foldlM (Runner.step capacity) r = some u ∧
      let result := stepSession (some r.queue) ⟨r.session, r.drain.observations⟩ localActions streaming
      u.session = result.state.session ∧ u.drain = .start result.state.observations ∧
        some u.queue = result.queue ∧ sentMessages u = sentMessages r ++ result.sent := by
  obtain ⟨steps, u, hrun, hdrained, hsession, hdrain, hqueue, hsent⟩ :=
    drain_steps capacity AdapterGameLoop.maxCommandsPerStep (r := r) hs (by omega)
  refine ⟨steps ++ [.finish localActions streaming], u.finish localActions streaming,
    ?_, ?_, ?_, ?_, ?_⟩
  · rw [List.foldlM_append, hrun]
    change (Runner.step capacity u (.finish localActions streaming)).bind _ = _
    rw [Runner.step, if_pos hdrained]
    rfl
  · change (AdapterGameLoop.finish u.session u.drain true localActions streaming).1.session = _
    rw [hsession, hdrain, hd]
    rfl
  · change Drain.start
      (AdapterGameLoop.finish u.session u.drain true localActions streaming).1.observations = _
    rw [hsession, hdrain, hd]
    rfl
  · change some u.queue = _
    rw [hqueue, hd]
    rfl
  · have hfinish : sentMessages (u.finish localActions streaming) = sentMessages u ++
        (AdapterGameLoop.finish u.session u.drain true localActions streaming).2.1 :=
      messages_append u.history rfl _
    rw [hfinish, hsent, hsession, hdrain, hd, List.append_assoc]
    rfl

/-! ## Batches -/

/-- What one call takes from the queue and applies. -/
structure Batch where
  session : SessionRuntime
  entries : ArrayVec InboundCommand AdapterGameLoop.maxCommandsPerStep
  localActions : ArrayVec GameAction maxLocalActionsPerStep

namespace Batch

def commands (b : Batch) : List PendingCommand := b.entries.toList.filterMap InboundCommand.pendingCommand

def input (b : Batch) : StepInput :=
  { remote := ⟨b.commands.map PendingCommand.command, by
      rw [List.length_map]
      exact Nat.le_trans (List.length_filterMap_le _ _) b.entries.length_le⟩
    locals := b.localActions }

def after (b : Batch) : SessionRuntime := (b.session.transition b.input).1

def outcomes (b : Batch) : List CommandOutcome := (b.session.transition b.input).2.commandOutcomes

def replies (b : Batch) : List Outbound :=
  (b.commands.zip b.outcomes).map fun item =>
    reply b.after (b.session.transition b.input).2 item.1 item.2

/-- The entries are taken, then there is one transition, and then the replies. -/
def activities (b : Batch) : List Activity :=
  b.entries.toList.map .dequeued ++ .applied b.session b.input :: b.replies.map .sent

/-- The outcome of command `k`, applied after the commands before it. -/
def outcomeOf (b : Batch) (k : ℕ) (c : PendingCommand) : CommandOutcome :=
  (applyGameCommand
    (applyRemote ((b.commands.take k).map PendingCommand.command) b.session.game).1 c.command).2

/-- One command, applied to the game. -/
def applied (game : GameState) (c : PendingCommand) : GameState :=
  (applyGameCommand game c.command).1

/-- Every command once, in queue order; then the local actions; then one tick, whose event is taken. -/
def played (b : Batch) : GameState :=
  ((applyLocal b.localActions.toList (b.commands.foldl applied b.session.game)).tick tickMs
    false).1.takeLastEvent.1

end Batch

/-- An ack of the command at that step, or an error, as its outcome is. -/
def Answers (step : UInt64) (c : PendingCommand) (m : Outbound) : CommandOutcome → Prop
  | .ok () => ∃ ack, m = .ack c.responder ack ∧ ack.correlationSeq = c.seq ∧ ack.appliedStep = some step
  | .error _ => ∃ error, m = .error c.responder error ∧ error.seq = c.seq

/-- Each command is applied once, with one reply to its client about its own outcome. -/
structure Batch.Answered (b : Batch) : Prop where
  played : b.after.game = b.played
  outcome : ∀ k c, b.outcomeOf k c =
    (applyGameCommand ((b.commands.take k).foldl Batch.applied b.session.game) c.command).2
  length : b.replies.length = b.commands.length
  answers : ∀ k c, b.commands[k]? = some c →
    ∃ m, b.replies[k]? = some m ∧ Answers b.after.logicalStep c m (b.outcomeOf k c)

theorem applyRemote_game (commands : List PendingCommand) (game : GameState) :
    (applyRemote (commands.map PendingCommand.command) game).1 =
      commands.foldl Batch.applied game := by
  induction commands generalizing game with
  | nil => rfl
  | cons c commands ih => exact ih (Batch.applied game c)

theorem after_played (b : Batch) : b.after.game = b.played := by
  have hremote := applyRemote_game b.commands b.session.game
  unfold Batch.played
  rw [← hremote]
  rfl

theorem applyRemote_outcomes (commands : List GameCommand) (game : GameState) :
    (applyRemote commands game).2.length = commands.length ∧
      ∀ k c, commands[k]? = some c → (applyRemote commands game).2[k]? =
        some (applyGameCommand (applyRemote (commands.take k) game).1 c).2 := by
  induction commands generalizing game with
  | nil => exact ⟨rfl, fun k c h => (nomatch h)⟩
  | cons command commands ih =>
    obtain ⟨hlen, hout⟩ := ih (applyGameCommand game command).1
    refine ⟨congrArg (· + 1) hlen, fun k c h => ?_⟩
    cases k with
    | zero =>
      cases h
      rfl
    | succ k => exact hout k c h

theorem reply_answers (session : SessionRuntime) (transition : Transition) (c : PendingCommand)
    (outcome : CommandOutcome) :
    Answers session.logicalStep c (reply session transition c outcome) outcome := by
  cases outcome with
  | ok => exact ⟨_, rfl, rfl, rfl⟩
  | error error => exact ⟨_, rfl, rfl⟩

theorem batch_answered (b : Batch) : b.Answered := by
  obtain ⟨hlen, hout⟩ := applyRemote_outcomes (b.commands.map PendingCommand.command) b.session.game
  rw [List.length_map] at hlen
  have hlen : b.outcomes.length = b.commands.length := hlen
  refine ⟨after_played b, fun k c => ?_, ?_, fun k c hc => ?_⟩
  · unfold Batch.outcomeOf
    rw [applyRemote_game]
  · unfold Batch.replies
    rw [List.length_map, List.length_zip, hlen, Nat.min_self]
  · have hcommand : (b.commands.map PendingCommand.command)[k]? = some c.command := by
      rw [List.getElem?_map, hc]
      rfl
    have houtcome : b.outcomes[k]? = some (b.outcomeOf k c) := by
      unfold Batch.outcomeOf
      rw [List.map_take]
      exact hout k c.command hcommand
    refine ⟨reply b.after (b.session.transition b.input).2 c (b.outcomeOf k c), ?_,
      reply_answers _ _ _ _⟩
    have hzip : (b.commands.zip b.outcomes)[k]? = some (c, b.outcomeOf k c) :=
      List.getElem?_zip_eq_some.mpr ⟨hc, houtcome⟩
    unfold Batch.replies
    rw [List.getElem?_map, hzip]
    rfl

/-! ## The history of a run -/

/-- Observations answer no command, and arrivals are the work of other tasks. -/
def Activity.counts : Activity → Bool
  | .arrived _ => false
  | .dequeued _ => true
  | .applied _ _ => true
  | .sent (.ack _ _) => true
  | .sent (.error _ _) => true
  | .sent _ => false

def arrivals (r : Runner) : List InboundCommand := r.history.filterMap Activity.arrival?

def dequeues (r : Runner) : List InboundCommand := r.history.filterMap Activity.dequeue?

/-- Every batch starts where the one before it ended. -/
def Chained : SessionRuntime → List Batch → SessionRuntime → Prop
  | s, [], t => s = t
  | s, b :: batches, t => b.session = s ∧ Chained b.after batches t

theorem Chained.append {s t : SessionRuntime} {batches : List Batch} (h : Chained s batches t)
    {b : Batch} (hb : b.session = t) : Chained s (batches ++ [b]) b.after := by
  induction batches generalizing s with
  | nil => exact ⟨hb.trans h.symm, rfl⟩
  | cons c batches ih => exact ⟨h.1, ih h.2⟩

/-- The history is made of batches and of the entries taken since the last one. -/
structure Batched (s : LoopState) (r : Runner) (batches : List Batch)
    (taken : List InboundCommand) : Prop where
  chained : Chained s.session batches r.session
  history : r.history.filter Activity.counts =
    batches.flatMap Batch.activities ++ taken.map .dequeued
  pending : r.drain.pending.toList = taken.filterMap InboundCommand.pendingCommand
  turns : taken.length = r.turns
  atMost : r.turns ≤ AdapterGameLoop.maxCommandsPerStep

theorem batched_start (s : LoopState) : Batched s (.start s) [] [] :=
  ⟨rfl, rfl, rfl, rfl, Nat.zero_le _⟩

theorem receive_pending (session : SessionRuntime) {d : Drain} (inbound : InboundCommand)
    (h : d.pending.toList.length < AdapterGameLoop.maxCommandsPerStep) :
    (receive session d inbound).1.pending.toList =
      d.pending.toList ++ [inbound].filterMap InboundCommand.pendingCommand := by
  obtain ⟨clientId, seq, payload⟩ := inbound
  cases payload with
  | SnapshotRequest => exact (List.append_nil _).symm
  | Command command => exact ArrayVec.push_toList d.pending _ h

theorem receive_uncounted (session : SessionRuntime) (d : Drain) (inbound : InboundCommand) :
    ((receive session d inbound).2.map Activity.sent).filter Activity.counts = [] := by
  obtain ⟨clientId, seq, payload⟩ := inbound
  cases payload <;> rfl

theorem batched_tryRecv {s : LoopState} {r : Runner} {batches : List Batch}
    {taken : List InboundCommand} (h : Batched s r batches taken) (hd : r.drained = false)
    {inbound : InboundCommand} {queue : List InboundCommand} (hq : r.queue = inbound :: queue) :
    Batched s r.tryRecv batches (taken ++ [inbound]) := by
  have hturns : r.turns < AdapterGameLoop.maxCommandsPerStep := by
    have hle := h.atMost
    have hne : r.turns ≠ AdapterGameLoop.maxCommandsPerStep := by
      intro he
      simp [Runner.drained, he] at hd
    omega
  have hroom : r.drain.pending.toList.length < AdapterGameLoop.maxCommandsPerStep := by
    have hl := List.length_filterMap_le InboundCommand.pendingCommand taken
    rw [← h.pending, h.turns] at hl
    omega
  rw [Runner.tryRecv_cons hq]
  refine ⟨h.chained, ?_, ?_, ?_, hturns⟩
  · change (r.history ++ Activity.dequeued inbound :: _).filter Activity.counts = _
    rw [List.filter_append, h.history, List.filter_cons_of_pos rfl, receive_uncounted,
      List.map_append, List.append_assoc]
    rfl
  · change (receive r.session r.drain inbound).1.pending.toList = _
    rw [receive_pending r.session inbound hroom, h.pending, List.filterMap_append]
  · change (taken ++ [inbound]).length = r.turns + 1
    rw [List.length_append, List.length_singleton, h.turns]

theorem replies_count (b : Batch) :
    (b.replies.map Activity.sent).filter Activity.counts = b.replies.map .sent := by
  rw [List.filter_eq_self]
  intro a ha
  obtain ⟨m, hm, rfl⟩ := List.mem_map.mp ha
  obtain ⟨item, -, rfl⟩ := List.mem_map.mp hm
  obtain ⟨c, outcome⟩ := item
  cases outcome <;> rfl

theorem batched_finish {s : LoopState} {r : Runner} {batches : List Batch}
    {taken : List InboundCommand} (h : Batched s r batches taken)
    (localActions : ArrayVec GameAction maxLocalActionsPerStep) (streaming : Bool) :
    ∃ b, Batched s (r.finish localActions streaming) (batches ++ [b]) [] := by
  have hlen : taken.length ≤ AdapterGameLoop.maxCommandsPerStep := by
    rw [h.turns]
    exact h.atMost
  let b : Batch := ⟨r.session, ⟨taken, hlen⟩, localActions⟩
  have hinput : ⟨r.drain.pending.map PendingCommand.command, localActions⟩ = b.input := by
    have hremote : r.drain.pending.map PendingCommand.command = b.input.remote :=
      ArrayVec.ext_toList (congrArg (List.map PendingCommand.command) h.pending)
    exact congrArg (fun remote : ArrayVec GameCommand SessionEngine.maxCommandsPerStep =>
      StepInput.mk remote localActions) hremote
  have hsent : ∃ rest, (AdapterGameLoop.finish r.session r.drain true localActions streaming).2.1 =
      b.replies ++ rest ∧ (rest.map Activity.sent).filter Activity.counts = [] := by
    unfold AdapterGameLoop.finish
    rw [hinput, h.pending]
    refine ⟨_, rfl, ?_⟩
    split
    · split <;> rfl
    · rfl
  obtain ⟨rest, hrest, hnone⟩ := hsent
  refine ⟨b, ?_, ?_, rfl, rfl, Nat.zero_le _⟩
  · have hafter : (r.finish localActions streaming).session = b.after := by
      change (r.session.transition _).1 = _
      rw [hinput]
      rfl
    rw [hafter]
    exact h.chained.append rfl
  · unfold Runner.finish
    simp only
    rw [hrest, hinput, List.filter_append, h.history, List.filter_cons_of_pos rfl, List.map_append,
      List.filter_append, hnone, replies_count, List.append_nil, List.map_nil, List.append_nil,
      List.flatMap_append, List.flatMap_singleton, List.append_assoc]
    rfl

def Reachable (capacity : ℕ) (s : LoopState) : Runner → Prop :=
  Reach (fun r => r = .start s) (fun r step u => r.step capacity step = some u)

def Accounted (s : LoopState) (r : Runner) : Prop := ∃ batches taken, Batched s r batches taken

theorem accounted_step {capacity : ℕ} {s : LoopState} {r u : Runner} {step : RunnerStep}
    (h : Accounted s r) (hu : r.step capacity step = some u) : Accounted s u := by
  obtain ⟨batches, taken, h⟩ := h
  cases step with
  | arrive inbound =>
    obtain ⟨-, hu⟩ := Option.ite_none_right_eq_some.mp hu
    cases hu
    refine ⟨batches, taken, h.chained, ?_, h.pending, h.turns, h.atMost⟩
    have hnone : [Activity.arrived inbound].filter Activity.counts = [] := rfl
    rw [List.filter_append, hnone, List.append_nil]
    exact h.history
  | tryRecv =>
    obtain ⟨hd, hu⟩ := Option.ite_none_left_eq_some.mp hu
    cases hu
    cases hq : r.queue with
    | nil =>
      refine ⟨batches, taken, ?_⟩
      rw [Runner.tryRecv_nil hq]
      exact ⟨h.chained, h.history, h.pending, h.turns, h.atMost⟩
    | cons inbound queue => exact ⟨batches, _, batched_tryRecv h (Bool.not_eq_true _ ▸ hd) hq⟩
  | finish localActions streaming =>
    obtain ⟨-, hu⟩ := Option.ite_none_right_eq_some.mp hu
    cases hu
    obtain ⟨b, hb⟩ := batched_finish h localActions streaming
    exact ⟨_, [], hb⟩

/-- The queue is first in, first out. -/
def InOrder (r : Runner) : Prop := arrivals r = dequeues r ++ r.queue

theorem sent_quiet (ms : List Outbound) :
    (ms.map Activity.sent).filterMap Activity.arrival? = [] ∧
      (ms.map Activity.sent).filterMap Activity.dequeue? = [] := by
  constructor
  · rw [List.filterMap_map]
    exact List.filterMap_eq_nil_iff.mpr fun m _ => rfl
  · rw [List.filterMap_map]
    exact List.filterMap_eq_nil_iff.mpr fun m _ => rfl

theorem inOrder_step {capacity : ℕ} {r u : Runner} {step : RunnerStep} (h : InOrder r)
    (hu : r.step capacity step = some u) : InOrder u := by
  unfold InOrder arrivals dequeues at h ⊢
  cases step with
  | arrive inbound =>
    obtain ⟨-, hu⟩ := Option.ite_none_right_eq_some.mp hu
    cases hu
    have hdequeue : [Activity.arrived inbound].filterMap Activity.dequeue? = [] := rfl
    rw [List.filterMap_append, List.filterMap_append, h, hdequeue, List.append_nil, List.append_assoc]
    rfl
  | tryRecv =>
    obtain ⟨-, hu⟩ := Option.ite_none_left_eq_some.mp hu
    cases hu
    cases hq : r.queue with
    | nil =>
      rw [Runner.tryRecv_nil hq]
      exact h
    | cons inbound queue =>
      rw [hq] at h
      rw [Runner.tryRecv_cons hq]
      obtain ⟨ha, hd⟩ := sent_quiet (receive r.session r.drain inbound).2
      have harrival : (Activity.dequeued inbound :: (receive r.session r.drain inbound).2.map .sent).filterMap
          Activity.arrival? = [] := ha
      have hdequeue : (Activity.dequeued inbound :: (receive r.session r.drain inbound).2.map .sent).filterMap
          Activity.dequeue? = [inbound] := congrArg (List.cons inbound) hd
      simp only [List.filterMap_append, harrival, hdequeue, List.append_nil]
      rw [h, List.append_assoc]
      rfl
  | finish localActions streaming =>
    obtain ⟨-, hu⟩ := Option.ite_none_right_eq_some.mp hu
    cases hu
    obtain ⟨ha, hd⟩ := sent_quiet
      (AdapterGameLoop.finish r.session r.drain true localActions streaming).2.1
    unfold Runner.finish
    simp only [List.filterMap_append]
    have harrival : ∀ input, (Activity.applied r.session input :: ((AdapterGameLoop.finish r.session
        r.drain true localActions streaming).2.1.map .sent)).filterMap Activity.arrival? = [] :=
      fun _ => ha
    have hdequeue : ∀ input, (Activity.applied r.session input :: ((AdapterGameLoop.finish r.session
        r.drain true localActions streaming).2.1.map .sent)).filterMap Activity.dequeue? = [] :=
      fun _ => hd
    rw [harrival, hdequeue, List.append_nil, List.append_nil]
    exact h

/-- Commands leave the queue in order, each is part of one transition, and each is answered once,
after that transition and about its own outcome. -/
theorem commands_applied_once {capacity : ℕ} {s : LoopState} {r : Runner}
    (h : Reachable capacity s r) :
    InOrder r ∧ ∃ batches taken, Batched s r batches taken ∧ ∀ b ∈ batches, b.Answered := by
  have horder : InOrder r := by
    refine Reach.invariant h ?_ fun r step u hr hu => inOrder_step hr hu
    rintro _ rfl
    rfl
  have haccounted : Accounted s r := by
    refine Reach.invariant (I := Accounted s) h ?_ fun r step u hr hu => accounted_step hr hu
    rintro _ rfl
    exact ⟨[], [], batched_start s⟩
  obtain ⟨batches, taken, hb⟩ := haccounted
  exact ⟨horder, batches, taken, hb, fun b _ => batch_answered b⟩

def holdEntry : InboundCommand := ⟨1, 2, .Command (.Actions ⟨[.Hold], by decide⟩ none)⟩

/-- A command and a snapshot request, taken by one call. -/
def oneCall : List RunnerStep :=
  [.arrive holdEntry, .tryRecv, .arrive ⟨2, 1, .SnapshotRequest⟩, .tryRecv, .tryRecv,
    .finish .empty false]

def oneCallRunner : Runner := (oneCall.foldlM (Runner.step 32) (.start (.new 1 20))).getD (.start (.new 1 20))

theorem oneCall_reached : oneCall.foldlM (Runner.step 32) (.start (.new 1 20)) = some oneCallRunner :=
  (Option.getD_of_ne_none (by decide +kernel) _).symm

theorem commands_applied_once_call :
    dequeues oneCallRunner = [holdEntry, ⟨2, 1, .SnapshotRequest⟩] ∧ InOrder oneCallRunner ∧
      ∃ batches taken, Batched (.new 1 20) oneCallRunner batches taken ∧ ∀ b ∈ batches, b.Answered :=
  ⟨by decide +kernel, commands_applied_once (Reach.foldlM (.init rfl) oneCall oneCall_reached)⟩

end TuiTetris.AdapterCommandFlow
