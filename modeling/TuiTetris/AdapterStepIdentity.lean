import TuiTetris.AdapterGameLoop
import TuiTetris.SessionEvents

set_option autoImplicit false

/-!
# One state identity per logical step

Acks and observations name a logical step with a hash of its state and events.
The buffer of pending events is empty between two steps, so a snapshot request
is answered without the events of the step it names.
-/
namespace TuiTetris.AdapterStepIdentity
open CoreTypes CoreGameState CoreGameStateEffects CoreGameStateInvariant LibArrayVec LibTransition
open SessionEngine SessionMarks SessionEvents SessionReplay
open AdapterProtocol AdapterObservation AdapterGameLoop

/-! ## Events that survive the wire -/

/-- The slot does not hold an event that names the absent T-spin. -/
def Told (slot : Option CoreLastEvent) : Prop := ∀ event, slot = some event → event.tspin ≠ some .None

theorem reportedTspin_ne (linesCleared : ℕ) (tspin : TSpinKind) :
    GameState.reportedTspin linesCleared tspin ≠ some .None := by
  unfold GameState.reportedTspin
  split
  · cases tspin <;> exact fun h => (nomatch h)
  · exact fun h => (nomatch h)

theorem told_recordLock (s : GameState) (linesCleared : ℕ) (tspin : TSpinKind) :
    Told (s.recordLock linesCleared tspin).lastEvent := by
  intro event h
  cases h
  exact reportedTspin_ne linesCleared tspin

theorem told_effect {s u : GameState} {op : Op} {marks : List Mark} (hs : Told s.lastEvent)
    (h : Effect s op marks u) : Told u.lastEvent := by
  cases h with
  | glide h =>
    rw [h.lastEvent]
    exact hs
  | taken _ => exact fun event h => (nomatch h)
  | held p _ ha hp hc =>
    rw [(applyHold_board p hp hc).2.2]
    exact hs
  | @locked v p e score h hp hg he =>
    change Told v.lockPiece.lastEvent
    rw [lockPiece_eq v p hp (h.gameOver.trans hg), (spawns_spawnPiece _).lastEvent]
    exact told_recordLock _ _ _
  | restarted seed hr =>
    rw [restartWithSeed_eq, (spawns_spawnPiece (freshState seed (s.episodeId + 1))).lastEvent]
    exact fun event h => (nomatch h)

theorem told_run (s : GameState) (ops : List Op) (hs : Told s.lastEvent) :
    Told (run Op.apply s ops).lastEvent :=
  run_invariant (I := fun s => Told s.lastEvent) (fun s op h => told_effect h (effect s op)) hs ops

theorem transition_told {s : SessionRuntime} (h : Emptied s) (input : StepInput) :
    ∃ slot : Option CoreLastEvent, (s.transition input).2.events = slot.toList ∧ Told slot := by
  obtain ⟨ops, -, hrun, -⟩ := step_traced h.sound input
  refine ⟨(s.stepGame input).1.lastEvent, rfl, ?_⟩
  rw [← hrun]
  refine told_run s.game ops ?_
  rw [h.lastEvent]
  exact fun event h => (nomatch h)

theorem emptied_transition {s : SessionRuntime} (h : Emptied s) (input : StepInput) :
    Emptied (s.transition input).1 := ⟨sound_transition h.sound input, rfl⟩

theorem captured_pending {o : ObservationSchedule} (hp : o.pendingEvents = .empty)
    (slot : Option CoreLastEvent) :
    (slot.toList.foldl ObservationSchedule.captureEvent o).pendingEvents.toList =
      slot.toList.map .ofCore := by
  cases slot with
  | none =>
    change o.pendingEvents.toList = []
    rw [hp]
    rfl
  | some event =>
    change (o.captureEvent event).pendingEvents.toList = [TransitionEvent.ofCore event]
    unfold ObservationSchedule.captureEvent
    rw [hp]
    rfl

theorem map_toCore_ofCore {slot : Option CoreLastEvent} (h : Told slot) :
    (slot.toList.map TransitionEvent.ofCore).map TransitionEvent.toCore = slot.toList := by
  cases slot with
  | none => rfl
  | some event => exact congrArg (fun e => [e]) (TransitionEvent.toCore_ofCore (h event rfl))

/-! ## What the messages of one call name -/

/-- The message names the step `session` is at, with the hash and the events of a step that
emitted `events`. -/
structure Names (session : SessionRuntime) (events : List CoreLastEvent) (m : Outbound) : Prop where
  identity : ∀ i, m.identity? = some i →
    i = (session.logicalStep, ⟨transitionHash session.snapshot 0 events []⟩)
  events : ∀ o, m.observation? = some o → o.events.toList = events.map .ofCore

theorem names_observation (session : SessionRuntime) (client : ℕ) (seq : UInt64) :
    Names session [] (.observation client
      (buildObservation seq session.logicalStep session.snapshot .empty)) := by
  refine ⟨fun i h => ?_, fun o h => ?_⟩
  · cases h
    rfl
  · cases h
    rfl

theorem names_broadcast {session : SessionRuntime} {slot : Option CoreLastEvent} (hs : Told slot)
    {events : ArrayVec TransitionEvent 4} (he : events.toList = slot.toList.map .ofCore)
    (seq : UInt64) :
    Names session slot.toList
      (.broadcast (buildObservation seq session.logicalStep session.snapshot events)) := by
  refine ⟨fun i h => ?_, fun o h => ?_⟩
  · cases h
    unfold buildObservation
    rw [he, map_toCore_ofCore hs]
  · cases h
    exact he

theorem names_reply (session : SessionRuntime) (transition : Transition) (pending : PendingCommand)
    (outcome : CommandOutcome) :
    Names session transition.events (reply session transition pending outcome) := by
  cases outcome with
  | ok =>
    refine ⟨fun i h => ?_, fun o h => (nomatch h)⟩
    cases h
    rfl
  | error error => exact ⟨fun i h => (nomatch h), fun o h => (nomatch h)⟩

/-- Between two calls nothing is pending. -/
structure Settled (s : LoopState) : Prop where
  emptied : Emptied s.session
  pending : s.observations.pendingEvents = .empty

theorem settled_new (seed frequencyHz : UInt32) : Settled (.new seed frequencyHz) :=
  ⟨emptied_new seed, rfl⟩

theorem drain_names (session : SessionRuntime) (n : ℕ) (queue : List InboundCommand) {d : Drain}
    (hd : d.observations.pendingEvents = .empty) :
    (drain session n queue d).1.observations.pendingEvents = .empty ∧
      ∀ m ∈ (drain session n queue d).2.1, Names session [] m := by
  induction n generalizing queue d with
  | zero => exact ⟨hd, fun m h => (nomatch h)⟩
  | succ n ih =>
    cases queue with
    | nil => exact ⟨hd, fun m h => (nomatch h)⟩
    | cons inbound queue =>
      obtain ⟨clientId, seq, payload⟩ := inbound
      cases payload with
      | SnapshotRequest =>
        obtain ⟨hp, hm⟩ := ih queue
          (d := { d with observations := d.observations.immediate.1 }) rfl
        refine ⟨hp, fun m h => ?_⟩
        rcases List.mem_cons.mp h with rfl | h
        · rw [show d.observations.immediate.2.2 = .empty from hd]
          exact names_observation session clientId _
        · exact hm m h
      | Command command => exact ih queue hd

theorem drain_sent_request (session : SessionRuntime) (n : ℕ) (queue : List InboundCommand)
    (d : Drain) {m : Outbound} (h : m ∈ (drain session n queue d).2.1) :
    (queue.take n).any (fun inbound => inbound.payload = .SnapshotRequest) = true := by
  induction n generalizing queue d with
  | zero => exact absurd h List.not_mem_nil
  | succ n ih =>
    cases queue with
    | nil => exact absurd h List.not_mem_nil
    | cons inbound queue =>
      obtain ⟨clientId, seq, payload⟩ := inbound
      cases payload with
      | SnapshotRequest => exact Bool.true_or _
      | Command command =>
        have hq := ih queue _ h
        rw [List.take_succ_cons, List.any_cons, hq]
        exact Bool.or_true _

theorem drain_answers (session : SessionRuntime) (n : ℕ) (queue : List InboundCommand) (d : Drain)
    (h : (queue.take n).any (fun inbound => inbound.payload = .SnapshotRequest) = true) :
    ∃ m ∈ (drain session n queue d).2.1, ∃ o, m.observation? = some o ∧
      o.logicalStep = session.logicalStep := by
  induction n generalizing queue d with
  | zero => exact absurd h Bool.false_ne_true
  | succ n ih =>
    cases queue with
    | nil => exact absurd h Bool.false_ne_true
    | cons inbound queue =>
      obtain ⟨clientId, seq, payload⟩ := inbound
      cases payload with
      | SnapshotRequest => exact ⟨_, List.mem_cons_self, _, rfl, rfl⟩
      | Command command =>
        obtain ⟨m, hm, o, ho, hstep⟩ := ih queue
          { d with pending := d.pending.push ⟨seq, command, clientId⟩ } (by simpa using h)
        exact ⟨m, hm, o, ho, hstep⟩

theorem finish_names {session : SessionRuntime} (hs : Emptied session) {d : Drain}
    (hd : d.observations.pendingEvents = .empty) (hasAdapter : Bool)
    (localActions : ArrayVec GameAction maxLocalActionsPerStep) (streaming : Bool) :
    Settled (finish session d hasAdapter localActions streaming).1 ∧
      ∀ m ∈ (finish session d hasAdapter localActions streaming).2.1,
        Names (finish session d hasAdapter localActions streaming).1.session
          (finish session d hasAdapter localActions streaming).2.2.events m := by
  simp only [finish]
  have he := emptied_transition hs
    { remote := d.pending.map PendingCommand.command, locals := localActions }
  obtain ⟨slot, hslot, htold⟩ := transition_told hs
    { remote := d.pending.map PendingCommand.command, locals := localActions }
  generalize session.transition
    { remote := d.pending.map PendingCommand.command, locals := localActions } = moved at he hslot ⊢
  have hc := captured_pending hd slot
  rw [← hslot] at hc
  generalize moved.2.events.foldl ObservationSchedule.captureEvent d.observations = captured at hc ⊢
  have hreplies : ∀ m ∈ (d.pending.toList.zip moved.2.commandOutcomes).map (fun item =>
      reply moved.1 moved.2 item.1 item.2), Names moved.1 moved.2.events m := by
    intro m hm
    obtain ⟨item, -, rfl⟩ := List.mem_map.mp hm
    exact names_reply moved.1 moved.2 item.1 item.2
  rcases captured.afterTick_cases moved.1.game with ⟨hempty, hnone, -, hp⟩ | ⟨hsome, -, hp⟩
  · refine ⟨⟨he, hp⟩, fun m hm => ?_⟩
    rw [hnone, List.append_nil] at hm
    exact hreplies m hm
  · refine ⟨⟨he, hp⟩, fun m hm => ?_⟩
    rw [hsome] at hm
    rcases List.mem_append.mp hm with hm | hm
    · exact hreplies m hm
    · simp only at hm
      split at hm
      · rw [List.mem_singleton.mp hm, hslot]
        exact names_broadcast htold (hc.trans (by rw [hslot])) _
      · exact absurd hm List.not_mem_nil

/-! ## Runs -/

structure Call where
  adapter : Option (List InboundCommand)
  localActions : ArrayVec GameAction maxLocalActionsPerStep
  hasStreamingSubscribers : Bool
  deriving DecidableEq

namespace Call

def result (s : LoopState) (call : Call) : StepResult :=
  stepSession call.adapter s call.localActions call.hasStreamingSubscribers

def next (s : LoopState) (call : Call) : LoopState := (call.result s).state

def sent (s : LoopState) (call : Call) : List Outbound := (call.result s).sent

def events (s : LoopState) (call : Call) : List CoreLastEvent := (call.result s).transition.events

def servesRequest (call : Call) : Bool :=
  match call.adapter with
  | some queue =>
    (queue.take AdapterGameLoop.maxCommandsPerStep).any fun inbound => inbound.payload = .SnapshotRequest
  | none => false

end Call

def stateAt (s : LoopState) (calls : List Call) (n : ℕ) : LoopState := run Call.next s (calls.take n)

/-- The events that transition `n` emitted; the first transition has number one. -/
def eventsAt (s : LoopState) (calls : List Call) : ℕ → List CoreLastEvent
  | 0 => []
  | n + 1 => ((calls[n]?).map (Call.events (stateAt s calls n))).getD []

def messages (s : LoopState) (calls : List Call) : List Outbound := trace Call.next Call.sent s calls

/-- Messages that name one logical step carry one hash, and its observations carry the events
of that transition. -/
structure StepIdentity (s : LoopState) (calls : List Call) : Prop where
  hash : ∀ m ∈ messages s calls, ∀ m' ∈ messages s calls, ∀ i i', m.identity? = some i →
    m'.identity? = some i' → i.1 = i'.1 → i.2 = i'.2
  events : ∀ m ∈ messages s calls, ∀ o, m.observation? = some o →
    o.events.toList = (eventsAt s calls o.logicalStep.toNat).map .ofCore

/-- A snapshot request is taken only after a transition without events. -/
def QuietRequests (s : LoopState) (calls : List Call) : Prop :=
  ∀ n call, calls[n]? = some call → call.servesRequest = true → eventsAt s calls n = []

theorem call_names {s : LoopState} (hs : Settled s) (call : Call) :
    Settled (call.next s) ∧ ∀ m ∈ call.sent s,
      (Names s.session [] m ∧ call.servesRequest = true) ∨
        Names (call.next s).session (call.events s) m := by
  obtain ⟨adapter, localActions, streaming⟩ := call
  cases adapter with
  | none =>
    obtain ⟨hn, hm⟩ := finish_names hs.emptied (d := .start s.observations) hs.pending false
      localActions streaming
    exact ⟨hn, fun m h => .inr (hm m h)⟩
  | some queue =>
    obtain ⟨hp, hd⟩ := drain_names s.session AdapterGameLoop.maxCommandsPerStep queue
      (d := .start s.observations) hs.pending
    obtain ⟨hn, hm⟩ := finish_names hs.emptied hp true localActions streaming
    refine ⟨hn, fun m h => ?_⟩
    rcases List.mem_append.mp h with h | h
    · exact .inl ⟨hd m h, drain_sent_request s.session _ queue _ h⟩
    · exact .inr (hm m h)

section
variable {s : LoopState} {calls : List Call}

theorem stateAt_succ {n : ℕ} {call : Call} (h : calls[n]? = some call) :
    stateAt s calls (n + 1) = call.next (stateAt s calls n) := run_take_succ h

theorem eventsAt_succ {n : ℕ} {call : Call} (h : calls[n]? = some call) :
    eventsAt s calls (n + 1) = call.events (stateAt s calls n) := by
  simp only [eventsAt, h, Option.map_some, Option.getD_some]

theorem getElem?_of_lt {n : ℕ} (h : n < calls.length) : ∃ call, calls[n]? = some call :=
  ⟨calls[n], List.getElem?_eq_getElem h⟩

theorem stateAt_spec (hs : Settled s) (hl : s.session.logicalStep = 0) (calls : List Call) {n : ℕ}
    (hn : n ≤ calls.length) :
    Settled (stateAt s calls n) ∧ (stateAt s calls n).session.logicalStep = UInt64.ofNat n := by
  induction n with
  | zero =>
    unfold stateAt
    rw [List.take_zero, run_nil]
    exact ⟨hs, hl⟩
  | succ n ih =>
    obtain ⟨hset, hstep⟩ := ih (Nat.le_of_succ_le hn)
    obtain ⟨call, hc⟩ := getElem?_of_lt hn
    rw [stateAt_succ hc]
    refine ⟨(call_names hset call).1, ?_⟩
    change (stateAt s calls n).session.logicalStep + 1 = _
    rw [hstep, UInt64.ofNat_add]
    rfl

/-- Where requests are quiet, every message names a step of the run with its events. -/
theorem messages_name (hs : Settled s) (hl : s.session.logicalStep = 0)
    (hq : QuietRequests s calls) {m : Outbound} (hm : m ∈ messages s calls) :
    ∃ n ≤ calls.length, Names (stateAt s calls n).session (eventsAt s calls n) m := by
  obtain ⟨n, call, hc, hm⟩ := mem_trace.mp hm
  have hn : n < calls.length := (List.getElem?_eq_some_iff.mp hc).1
  have hset := (stateAt_spec hs hl calls (Nat.le_of_lt hn)).1
  rcases (call_names hset call).2 m hm with ⟨hnames, hserves⟩ | hnames
  · refine ⟨n, Nat.le_of_lt hn, ?_⟩
    rw [hq n call hc hserves]
    exact hnames
  · refine ⟨n + 1, hn, ?_⟩
    rw [stateAt_succ hc, eventsAt_succ hc]
    exact hnames

theorem stepIdentity_of_quiet (hs : Settled s) (hl : s.session.logicalStep = 0)
    (hlen : calls.length < 2 ^ 64) (hq : QuietRequests s calls) : StepIdentity s calls := by
  have hstep : ∀ {n : ℕ}, n ≤ calls.length →
      (stateAt s calls n).session.logicalStep.toNat = n := fun {n} hn => by
    rw [(stateAt_spec hs hl calls hn).2, UInt64.toNat_ofNat_of_lt' (Nat.lt_of_le_of_lt hn hlen)]
  constructor
  · intro m hm m' hm' i i' hi hi' hsame
    obtain ⟨n, hn, hnames⟩ := messages_name hs hl hq hm
    obtain ⟨k, hk, hnames'⟩ := messages_name hs hl hq hm'
    rw [hnames.identity i hi, hnames'.identity i' hi'] at hsame ⊢
    have hnk : n = k := by
      rw [← hstep hn, ← hstep hk]
      exact congrArg UInt64.toNat hsame
    rw [hnk]
  · intro m hm o ho
    obtain ⟨n, hn, hnames⟩ := messages_name hs hl hq hm
    have hnamed : o.logicalStep = (stateAt s calls n).session.logicalStep := by
      have hi : m.identity? = some (o.logicalStep, o.stateHash) := by
        cases m <;> cases ho <;> rfl
      exact congrArg Prod.fst (hnames.identity _ hi)
    rw [hnames.events o ho, hnamed, hstep hn]

theorem quiet_of_stepIdentity (hs : Settled s) (hl : s.session.logicalStep = 0)
    (hlen : calls.length < 2 ^ 64) (h : StepIdentity s calls) : QuietRequests s calls := by
  intro n call hc hserves
  have hn : n < calls.length := (List.getElem?_eq_some_iff.mp hc).1
  obtain ⟨hset, hstep⟩ := stateAt_spec hs hl calls (Nat.le_of_lt hn)
  obtain ⟨adapter, localActions, streaming⟩ := call
  cases adapter with
  | none => exact absurd hserves Bool.false_ne_true
  | some queue =>
    obtain ⟨m, hm, o, ho, hnamed⟩ := drain_answers (stateAt s calls n).session
      AdapterGameLoop.maxCommandsPerStep queue (.start (stateAt s calls n).observations) hserves
    have hnames := (drain_names (stateAt s calls n).session AdapterGameLoop.maxCommandsPerStep queue
      (d := .start (stateAt s calls n).observations) hset.pending).2 m hm
    have hsent := h.events m (mem_trace.mpr ⟨n, _, hc, List.mem_append_left _ hm⟩) o ho
    rw [hnames.events o ho, hnamed, hstep,
      UInt64.toNat_ofNat_of_lt' (Nat.lt_trans hn hlen)] at hsent
    exact List.map_eq_nil_iff.mp hsent.symm

end

/-- In a run of fewer than `2 ^ 64` calls all messages agree on every logical step exactly when
no snapshot request is taken right after a transition that emitted an event. -/
theorem step_identity_iff (seed frequencyHz : UInt32) (calls : List Call)
    (hlen : calls.length < 2 ^ 64) :
    StepIdentity (.new seed frequencyHz) calls ↔ QuietRequests (.new seed frequencyHz) calls :=
  ⟨quiet_of_stepIdentity (settled_new seed frequencyHz) rfl hlen,
    stepIdentity_of_quiet (settled_new seed frequencyHz) rfl hlen⟩

def streamingCall (payload : InboundPayload) : Call :=
  { adapter := some [⟨1, 2, payload⟩], localActions := .empty, hasStreamingSubscribers := true }

def dropCommand : GameCommand := .Actions ⟨[.HardDrop], by decide⟩ none

/-- The request comes one call after the lock has been told. -/
def laterRequest : List Call :=
  [streamingCall (.Command dropCommand), streamingCall (.Command (.Actions .empty none)),
    streamingCall .SnapshotRequest]

theorem laterRequest_quiet : QuietRequests (.new 1 20) laterRequest := by
  intro n call hc hserves
  obtain _ | _ | _ | n := n
  · cases hc
    cases hserves
  · cases hc
    cases hserves
  · decide +kernel
  · cases hc

theorem step_identity_iff_later : StepIdentity (.new 1 20) laterRequest :=
  (step_identity_iff 1 20 laterRequest (by decide)).mpr laterRequest_quiet

def lateRequest : List Call :=
  [streamingCall (.Command dropCommand), streamingCall .SnapshotRequest]

theorem lateRequest_events : eventsAt (.new 1 20) lateRequest 1 ≠ [] := by
  decide +kernel

/-- The reply to the request names step 1 without its lock event. -/
theorem lateRequest_not_identity : ¬StepIdentity (.new 1 20) lateRequest := by
  intro h
  have hq := quiet_of_stepIdentity (settled_new 1 20) rfl (by decide) h
  exact lateRequest_events (hq 1 _ rfl rfl)

end TuiTetris.AdapterStepIdentity
