import TuiTetris.AdapterBrokerControl
import TuiTetris.AdapterHandshake
import TuiTetris.LibLatestSlot

set_option autoImplicit false

/-!
# The status of the adapter

A task that has changed what the status tells of publishes it, and takes no other step before;
the main loop takes in what was published last. `due` are the tasks that wait for the lock to do
so.
-/
namespace TuiTetris.AdapterEmitStatus
open LibTransition LibLatestSlot AdapterBroker AdapterBrokerControl AdapterHandler AdapterMessages
open AdapterHandshake (view smallConfig)

structure AdapterStatus where
  clientCount : ℕ
  controllerId : Option ℕ
  streamingCount : ℕ
  deriving DecidableEq

/-- The counts stop at the largest `u16`. -/
def status (b : BrokerState) : AdapterStatus where
  clientCount := min (b.clients.countP ClientHandle.live) 65535
  controllerId := b.controllerId.filter b.isLive
  streamingCount := min (b.clients.countP fun c => c.streamObservations && c.live) 65535

inductive Emitter where
  | acceptLoop
  | client (id : ℕ)
  deriving DecidableEq

/-- Whose step it is; the game loop and a connection that breaks have no status to publish. -/
def taker : ServerStep → Option Emitter
  | .accept => some .acceptLoop
  | .runSection id | .line id _ | .leave id | .enqueue id | .refuse id => some (.client id)
  | .takeCommand | .die _ => none

/-- The step leads up to `emit_status`. -/
def emits (s : Server) : ServerStep → Bool
  | .accept => true
  | .runSection id =>
    match s.tasks id with
    | .starting | .leaving => true
    | .helloAssign hello => !hello.requested.streamObservations
    | .claim _ => (claim s.broker id).2
    | .release _ => s.broker.isController id
    | _ => false
  | .enqueue id =>
    match s.tasks id with
    | .helloSnapshot _ => true
    | _ => false
  | _ => false

/-- `view` is what the main loop knows. -/
structure Feed where
  server : Server
  due : List Emitter
  published : Watch AdapterStatus
  view : AdapterStatus

def Feed.initial : Feed := ⟨.initial, [], .send ⟨0, none, 0⟩, ⟨0, none, 0⟩⟩

/-- The accept loop starts the task of a connection when it has published. -/
def Feed.free (f : Feed) (step : ServerStep) : Bool :=
  (taker step).all fun who =>
    who ∉ f.due && !(who = .client f.server.clientIdCounter && .acceptLoop ∈ f.due)

inductive FeedStep where
  | act (step : ServerStep)
  | emitStatus (who : Emitter)
  | tryRecvStatus

def Feed.step (config : ServerConfig) (f : Feed) : FeedStep → Option Feed
  | .act step =>
    if f.free step then
      (f.server.step config step).map fun server =>
        { f with server, due := f.due ++ if emits f.server step then (taker step).toList else [] }
    else none
  | .emitStatus who =>
    if who ∈ f.due then
      some { f with due := f.due.erase who, published := .send (status f.server.broker) }
    else none
  | .tryRecvStatus => f.published.take.map fun r => { f with published := r.2, view := r.1 }

def Reachable (config : ServerConfig) : Feed → Prop :=
  Reach (fun f => f = .initial) (fun f step g => f.step config step = some g)

/-- The task has changed what the status tells of, or is about to. -/
def reporting : Task → Bool
  | .helloAssign _ | .helloSnapshot _ | .leaving => true
  | _ => false

/-- Nothing is under way that the status tells of. -/
structure Settled (f : Feed) : Prop where
  due : f.due = []
  tasks : ∀ id, reporting (f.server.tasks id) = false
  live : ∀ c ∈ f.server.broker.clients, c.live = true

theorem emits_taker {s : Server} {step : ServerStep} (h : emits s step = true) :
    (taker step).isSome = true := by
  cases step with
  | takeCommand | die => cases h
  | _ => rfl

/-! ## What the status reads -/

def shown (c : ClientHandle) : ℕ × Bool × Bool := (c.id, c.live, c.streamObservations)

/-- The broker looks the same to the status. -/
structure Same (b u : BrokerState) : Prop where
  clients : u.clients.map shown = b.clients.map shown
  controllerId : u.controllerId = b.controllerId

theorem Same.refl (b : BrokerState) : Same b b := ⟨rfl, rfl⟩

theorem status_shown (b : BrokerState) : status b =
    ⟨min ((b.clients.map shown).countP fun c => c.2.1) 65535,
      b.controllerId.filter fun id => (b.clients.map shown).any fun c => c.1 = id && c.2.1,
      min ((b.clients.map shown).countP fun c => c.2.2 && c.2.1) 65535⟩ := by
  have hlive : b.isLive = fun id => (b.clients.map shown).any fun c => c.1 = id && c.2.1 := by
    funext id
    rw [List.any_map]
    rfl
  unfold status
  rw [List.countP_map, List.countP_map, hlive]
  rfl

theorem Same.status {b u : BrokerState} (h : Same b u) : status u = status b := by
  rw [status_shown, status_shown, h.clients, h.controllerId]

theorem Same.live {b u : BrokerState} (h : Same b u) (hl : ∀ c ∈ u.clients, c.live = true) :
    ∀ c ∈ b.clients, c.live = true := by
  intro c hc
  have hm : shown c ∈ u.clients.map shown := h.clients ▸ List.mem_map_of_mem hc
  obtain ⟨d, hd, he⟩ := List.mem_map.mp hm
  exact (congrArg (fun k => k.2.1) he).symm.trans (hl d hd)

theorem same_update (b : BrokerState) (id : ℕ) {f : ClientHandle → ClientHandle}
    (hf : ∀ c ∈ b.clients, c.id = id → shown (f c) = shown c) : Same b (b.update id f) := by
  refine ⟨?_, rfl⟩
  unfold BrokerState.update
  rw [List.map_map]
  refine List.map_congr_left fun c hc => ?_
  rw [Function.comp_apply]
  split
  · next hid => exact hf c hc hid
  · rfl

theorem same_checkAndUpdateSeq (b : BrokerState) (id seq : ℕ) :
    Same b (b.checkAndUpdateSeq id seq).1 := by
  unfold BrokerState.checkAndUpdateSeq
  split
  · exact same_update b id fun _ _ _ => rfl
  · exact .refl b

/-- A claim that fails has found a controller that is there. -/
theorem claim_failed {b : BrokerState} {id : ℕ} (h : (claim b id).2 = false) : (claim b id).1 = b := by
  unfold claim at *
  simp only at *
  split at h
  · cases h
  · next hother =>
    split at h
    · cases h
    · next hc =>
      rw [if_neg hother, if_neg hc]
      unfold BrokerState.clearStaleController at *
      split
      · next staleId hs =>
        split
        · rfl
        · next hl =>
          rw [hs] at hc
          simp only [if_neg hl] at hc
          exact absurd trivial hc
      · rfl

/-- A connection that breaks is dead, or it was not registered. -/
theorem same_die {b : BrokerState} {id : ℕ}
    (hl : ∀ c ∈ (b.update id fun c => { c with live := false }).clients, c.live = true) :
    Same b (b.update id fun c => { c with live := false }) := by
  refine same_update b id fun c hc hid => ?_
  have hm : { c with live := false } ∈ (b.update id fun c => { c with live := false }).clients :=
    List.mem_map.mpr ⟨c, hc, if_pos hid⟩
  cases hl _ hm

/-! ## Steps that publish nothing -/

def Quiet (s : Server) : Prop := ∀ id, reporting (s.tasks id) = false

/-- The status does not tell of the step. -/
structure Untold (s u : Server) : Prop where
  broker : Same s.broker u.broker
  tasks : Quiet u → Quiet s

theorem untold_become {s : Server} {id : ℕ} (hr : reporting (s.tasks id) = false) {b : BrokerState}
    (hb : Same s.broker b) (task : Task) (events : List Event) :
    Untold s ((s.setBroker b).become id task events) := by
  refine ⟨hb, fun hq i => ?_⟩
  by_cases hi : i = id
  · rw [hi]
    exact hr
  · have h := hq i
    change reporting (Function.update s.tasks id task i) = false at h
    rwa [Function.update_of_ne hi] at h

theorem untold_goto {s : Server} {id : ℕ} (hr : reporting (s.tasks id) = false) (task : Task)
    (events : List Event) : Untold s (s.become id task events) :=
  untold_become hr (.refl s.broker) task events

/-- A task that has something to publish cannot be where the step has left it. -/
theorem not_quiet {s : Server} {id : ℕ} {task : Task} {events : List Event}
    (ht : reporting task = true) (hq : Quiet (s.become id task events)) : False := by
  have h := hq id
  change reporting (Function.update s.tasks id task id) = false at h
  rw [Function.update_self, ht] at h
  cases h

theorem untold_validate {s : Server} {id : ℕ} (hr : reporting (s.tasks id) = false) {b : BrokerState}
    (hb : Same s.broker b) (hello : HelloMessage) :
    Untold s ((s.setBroker b).validate id hello) := by
  unfold Server.validate
  split
  · exact untold_become hr hb _ _
  · split <;> exact untold_become hr hb _ _

theorem untold_dispatch {s : Server} {id : ℕ} (hr : reporting (s.tasks id) = false) (line : Line) :
    Untold s (s.dispatch id line) := by
  cases line with
  | unparsable text error => exact untold_goto hr _ _
  | parsed message =>
    cases message with
    | Hello hello =>
      rw [Server.dispatch]
      split <;> exact untold_goto hr _ _
    | Command command => exact untold_goto hr _ _
    | Control control => exact untold_goto hr _ _
    | Unknown seq => exact untold_goto hr _ _

theorem untold_proceed {s : Server} {id : ℕ} (hr : reporting (s.tasks id) = false) {b : BrokerState}
    (hb : Same s.broker b) (request : Request) :
    Untold s ((s.setBroker b).proceed id request) := by
  cases request with
  | command command => exact untold_become hr hb _ _
  | control control =>
    obtain ⟨seq, action⟩ := control
    cases action <;> exact untold_become hr hb _ _
  | unknown seq => exact untold_become hr hb _ _

theorem untold_runSection {config : ServerConfig} {s u : Server} {id : ℕ}
    (hu : s.runSection config id = some u) (he : emits s (.runSection id) = false) (hq : Quiet u) :
    Untold s u := by
  unfold Server.runSection at hu
  cases ht : s.tasks id with
  | absent | reading | helloSnapshot | trySend | ended =>
    rw [ht] at hu
    cases hu
  | starting | leaving =>
    simp only [emits, ht] at he
    cases he
  | helloCheck hello =>
    have hr : reporting (s.tasks id) = false := by rw [ht]; rfl
    rw [ht] at hu
    simp only at hu
    split at hu <;> cases hu
    · exact untold_goto hr _ _
    · exact untold_validate hr (.refl s.broker) hello
  | helloSeq hello =>
    have hr : reporting (s.tasks id) = false := by rw [ht]; rfl
    rw [ht] at hu
    simp only at hu
    split at hu <;> cases hu
    · exact untold_validate hr (same_checkAndUpdateSeq s.broker id _) hello
    · exact untold_goto hr _ _
  | helloRecord hello =>
    rw [ht] at hu
    cases hu
    exact (not_quiet rfl hq).elim
  | helloAssign hello =>
    rw [ht] at hu
    have hstream : hello.requested.streamObservations = true := by simpa [emits, ht] using he
    simp only [hstream, if_true] at hu
    cases hu
    exact (not_quiet rfl hq).elim
  | check request =>
    have hr : reporting (s.tasks id) = false := by rw [ht]; rfl
    rw [ht] at hu
    simp only at hu
    split at hu <;> cases hu
    · exact untold_goto hr _ _
    · cases request <;> exact untold_goto hr _ _
  | seq request =>
    have hr : reporting (s.tasks id) = false := by rw [ht]; rfl
    rw [ht] at hu
    simp only at hu
    split at hu <;> cases hu
    · exact untold_proceed hr (same_checkAndUpdateSeq s.broker id _) request
    · exact untold_goto hr _ _
  | command command =>
    have hr : reporting (s.tasks id) = false := by rw [ht]; rfl
    rw [ht] at hu
    simp only at hu
    split at hu <;> cases hu
    · unfold Server.prepare
      split <;> exact untold_goto hr _ _
    · exact untold_goto hr _ _
  | claim seq =>
    have hr : reporting (s.tasks id) = false := by rw [ht]; rfl
    rw [ht] at hu
    simp only [emits, ht] at he
    cases hu
    rw [claim_failed he]
    exact untold_goto hr _ _
  | release seq =>
    have hr : reporting (s.tasks id) = false := by rw [ht]; rfl
    rw [ht] at hu
    simp only [emits, ht] at he
    cases hu
    have hkept : release s.broker id = s.broker := by
      unfold release
      rw [if_neg (Bool.eq_false_iff.mp he)]
    rw [hkept]
    exact untold_goto hr _ _

theorem untold_step {config : ServerConfig} {s u : Server} {step : ServerStep}
    (hu : s.step config step = some u) (he : emits s step = false) (hq : Quiet u)
    (hl : ∀ c ∈ u.broker.clients, c.live = true) : Untold s u := by
  cases step with
  | accept => cases he
  | runSection id => exact untold_runSection hu he hq
  | line id line =>
    obtain ⟨ht, hu⟩ := Option.ite_none_right_eq_some.mp hu
    cases hu
    exact untold_dispatch (by rw [ht]; rfl) line
  | leave id =>
    obtain ⟨ht, hu⟩ := Option.ite_none_right_eq_some.mp hu
    cases hu
    exact untold_goto (by rw [ht]; rfl) _ _
  | enqueue id =>
    obtain ⟨-, hu⟩ := Option.ite_none_right_eq_some.mp hu
    unfold Server.enqueue at hu
    split at hu
    · next inbound ht =>
      cases hu
      have h := untold_goto (by rw [ht]; rfl) .reading [.enqueued inbound]
      exact ⟨h.broker, h.tasks⟩
    · next hello ht =>
      simp only [emits, ht] at he
      cases he
    · cases hu
  | refuse id =>
    change s.refuse id = some u at hu
    unfold Server.refuse at hu
    split at hu
    · next inbound ht =>
      cases hu
      exact untold_goto (by rw [ht]; rfl) _ _
    · cases hu
      exact (not_quiet rfl hq).elim
    · cases hu
  | takeCommand =>
    obtain ⟨-, hu⟩ := Option.ite_none_left_eq_some.mp hu
    cases hu
    exact ⟨.refl _, fun h => h⟩
  | die id =>
    cases hu
    exact ⟨same_die hl, fun h => h⟩

/-! ## The controller is registered -/

theorem checkAndUpdateSeq_controller (b : BrokerState) (id seq : ℕ) :
    (b.checkAndUpdateSeq id seq).1.controllerId = b.controllerId :=
  (same_checkAndUpdateSeq b id seq).controllerId

def Known (b : BrokerState) : Prop := ∀ id, b.controllerId = some id → id ∈ ids b

theorem Known.congr {b u : BrokerState} (h : Known b) (hi : ids u = ids b)
    (hc : u.controllerId = b.controllerId) : Known u := fun id hid => hi ▸ h id (hc ▸ hid)

theorem ids_view {b : BrokerState} {id : ℕ} {v : Bool × Option ℕ} (h : view b id = some v) :
    id ∈ ids b := by
  obtain ⟨c, hc, -⟩ := Option.map_eq_some_iff.mp h
  exact List.mem_map.mpr ⟨c, find_mem hc⟩

theorem known_clearStale {b : BrokerState} (h : Known b) : Known b.clearStaleController := by
  unfold BrokerState.clearStaleController
  split
  · split
    · exact h
    · exact fun id hid => nomatch hid
  · exact h

theorem known_assign {b : BrokerState} {id : ℕ} (h : Known b) (hm : id ∈ ids b) (hello : Hello) :
    Known (assignController b id hello) := by
  have hids : ids b.clearStaleController = ids b := congrArg (List.map _) (clearStale_clients b)
  unfold assignController
  simp only
  split
  · rintro i ⟨⟩
    exact hids.symm ▸ hm
  · exact known_clearStale h

theorem known_claim {b : BrokerState} {id : ℕ} (h : Known b) (hm : id ∈ ids b) :
    Known (claim b id).1 := by
  have hids : ids b.clearStaleController = ids b := congrArg (List.map _) (clearStale_clients b)
  unfold claim
  simp only
  split
  · exact known_clearStale h
  · split
    · rintro i ⟨⟩
      exact hids.symm ▸ hm
    · exact known_clearStale h

theorem known_release {b : BrokerState} (h : Known b) (id : ℕ) : Known (release b id) := by
  unfold release
  split
  · exact fun i hi => nomatch hi
  · exact h

theorem known_cleanup {b : BrokerState} (h : Known b) (id : ℕ) : Known (b.removeAndPromote id) := by
  intro i hi
  unfold BrokerState.removeAndPromote at hi
  simp only at hi
  split at hi
  · have hm := List.min?_mem hi
    obtain ⟨c, hc, rfl⟩ := List.mem_map.mp hm
    exact List.mem_map_of_mem (List.mem_filter.mp hc).1
  · next hother =>
    obtain ⟨c, hc, rfl⟩ := List.mem_map.mp (h i hi)
    have hne : c.id ≠ id := by
      rintro rfl
      exact hother (decide_eq_true hi)
    exact List.mem_map_of_mem (List.mem_filter.mpr ⟨hc, decide_eq_true hne⟩)

theorem validate_broker (s : Server) (id : ℕ) (hello : HelloMessage) :
    (s.validate id hello).broker = s.broker := by
  unfold Server.validate
  split
  · rfl
  · split <;> rfl

theorem proceed_broker (s : Server) (id : ℕ) (request : Request) :
    (s.proceed id request).broker = s.broker := by
  cases request with
  | control control =>
    obtain ⟨seq, action⟩ := control
    cases action <;> rfl
  | _ => rfl

theorem known_runSection {config : ServerConfig} {s u : Server} {id : ℕ}
    (hi : AdapterHandshake.Invariant s) (h : Known s.broker)
    (hu : s.runSection config id = some u) : Known u.broker := by
  have hg := hi.good id
  unfold Server.runSection at hu
  cases ht : s.tasks id with
  | absent | reading | helloSnapshot | trySend | ended =>
    rw [ht] at hu
    cases hu
  | starting =>
    rw [ht] at hu
    cases hu
    intro i hc
    have hm := h i hc
    change i ∈ List.map _ (s.broker.clients ++ _)
    rw [List.map_append]
    exact List.mem_append_left _ hm
  | helloCheck hello =>
    rw [ht] at hu
    simp only at hu
    split at hu <;> cases hu
    · exact h
    · rwa [validate_broker]
  | helloSeq hello =>
    rw [ht] at hu
    simp only at hu
    split at hu <;> cases hu
    · rw [validate_broker]
      exact h.congr (checkAndUpdateSeq_ids s.broker id _) (checkAndUpdateSeq_controller s.broker id _)
    · exact h
  | helloRecord hello =>
    rw [ht] at hu
    cases hu
    exact h.congr (update_ids s.broker id _ fun _ => rfl) rfl
  | helloAssign hello =>
    rw [ht] at hu hg
    obtain ⟨n, hv, -⟩ := hg
    cases hu
    exact known_assign h (ids_view hv) hello.requested
  | check request =>
    rw [ht] at hu
    simp only at hu
    split at hu <;> cases hu
    · exact h
    · cases request <;> exact h
  | seq request =>
    rw [ht] at hu
    simp only at hu
    split at hu <;> cases hu
    · rw [proceed_broker]
      exact h.congr (checkAndUpdateSeq_ids s.broker id _) (checkAndUpdateSeq_controller s.broker id _)
    · exact h
  | command command =>
    rw [ht] at hu
    simp only at hu
    split at hu <;> cases hu
    · unfold Server.prepare
      split <;> exact h
    · exact h
  | claim seq =>
    rw [ht] at hu hg
    cases hu
    exact known_claim h (ids_view hg.1)
  | release seq =>
    rw [ht] at hu
    cases hu
    exact known_release h id
  | leaving =>
    rw [ht] at hu
    cases hu
    exact known_cleanup h id

theorem dispatch_broker (s : Server) (id : ℕ) (line : Line) : (s.dispatch id line).broker = s.broker := by
  cases line with
  | unparsable text error => rfl
  | parsed message =>
    cases message with
    | Hello hello =>
      rw [Server.dispatch]
      split <;> rfl
    | _ => rfl

theorem known_step {config : ServerConfig} {s u : Server} {step : ServerStep}
    (hi : AdapterHandshake.Invariant s) (h : Known s.broker) (hu : s.step config step = some u) :
    Known u.broker := by
  cases step with
  | accept =>
    cases hu
    exact h
  | runSection id => exact known_runSection hi h hu
  | line id line =>
    obtain ⟨-, hu⟩ := Option.ite_none_right_eq_some.mp hu
    cases hu
    rwa [dispatch_broker]
  | leave id =>
    obtain ⟨-, hu⟩ := Option.ite_none_right_eq_some.mp hu
    cases hu
    exact h
  | enqueue id =>
    obtain ⟨-, hu⟩ := Option.ite_none_right_eq_some.mp hu
    unfold Server.enqueue at hu
    split at hu <;> cases hu <;> exact h
  | refuse id =>
    change s.refuse id = some u at hu
    unfold Server.refuse at hu
    split at hu <;> cases hu <;> exact h
  | takeCommand =>
    obtain ⟨-, hu⟩ := Option.ite_none_left_eq_some.mp hu
    cases hu
    exact h
  | die id =>
    cases hu
    exact h.congr (update_ids s.broker id _ fun _ => rfl) rfl

/-! ## Every run -/

/-- Once everything is settled the status that was published last is right, and what has been taken
in is what was published last. -/
structure Invariant (f : Feed) : Prop where
  server : AdapterHandshake.Invariant f.server
  known : Known f.server.broker
  published : Settled f → f.published.value = some (status f.server.broker)
  view : f.published.unseen = false → f.published.value = some f.view

theorem invariant_initial : Invariant .initial where
  server := ⟨fun _ => ⟨rfl, rfl⟩, fun _ _ => rfl⟩
  known := fun _ h => nomatch h
  published := fun _ => rfl
  view := fun _ => rfl

theorem invariant_act {config : ServerConfig} {f : Feed} {step : ServerStep} {server : Server}
    (h : Invariant f) (hu : f.server.step config step = some server) :
    Invariant { f with server, due := f.due ++ if emits f.server step then (taker step).toList else [] } where
  server := AdapterHandshake.invariant_step h.server hu
  known := known_step h.server h.known hu
  view := h.view
  published hs := by
    obtain ⟨hdue, hnone⟩ := List.append_eq_nil_iff.mp hs.due
    have he : emits f.server step = false := by
      refine Bool.eq_false_iff.mpr fun he => ?_
      obtain ⟨who, hwho⟩ := Option.isSome_iff_exists.mp (emits_taker he)
      rw [he, hwho, if_pos rfl] at hnone
      cases hnone
    have huntold := untold_step hu he hs.tasks hs.live
    have hbefore := h.published ⟨hdue, huntold.tasks hs.tasks, huntold.broker.live hs.live⟩
    rw [hbefore, huntold.broker.status]

theorem invariant_feedStep {config : ServerConfig} {f g : Feed} {step : FeedStep} (h : Invariant f)
    (hg : f.step config step = some g) : Invariant g := by
  cases step with
  | act step =>
    obtain ⟨-, hg⟩ := Option.ite_none_right_eq_some.mp hg
    obtain ⟨server, hu, rfl⟩ := Option.map_eq_some_iff.mp hg
    exact invariant_act h hu
  | emitStatus who =>
    obtain ⟨-, hg⟩ := Option.ite_none_right_eq_some.mp hg
    cases hg
    exact ⟨h.server, h.known, fun _ => rfl, fun hu => nomatch hu⟩
  | tryRecvStatus =>
    obtain ⟨⟨v, w⟩, ht, rfl⟩ := Option.map_eq_some_iff.mp hg
    obtain ⟨hsend, rfl⟩ := Watch.take_eq_some ht
    refine ⟨h.server, h.known, fun hs => ?_, fun _ => rfl⟩
    have hp := h.published ⟨hs.due, hs.tasks, hs.live⟩
    rw [hsend] at hp
    exact hp

theorem invariant_reachable {config : ServerConfig} {f : Feed} (h : Reachable config f) :
    Invariant f := by
  refine Reach.invariant h ?_ fun f step g hf hg => invariant_feedStep hf hg
  rintro _ rfl
  exact invariant_initial

/-- What the status tells of a broker whose clients are all there. -/
theorem status_live {b : BrokerState} (h : Known b) (hl : ∀ c ∈ b.clients, c.live = true) :
    status b = ⟨min b.clients.length 65535, b.controllerId,
      min (b.clients.countP ClientHandle.streamObservations) 65535⟩ := by
  have hcount : b.clients.countP ClientHandle.live = b.clients.length := List.countP_eq_length.mpr hl
  have hstream : b.clients.countP (fun c => c.streamObservations && c.live) =
      b.clients.countP ClientHandle.streamObservations :=
    List.countP_congr fun c hc => by rw [hl c hc, Bool.and_true]
  have hcontroller : b.controllerId.filter b.isLive = b.controllerId := by
    cases hid : b.controllerId with
    | none => rfl
    | some id =>
      obtain ⟨c, hc, rfl⟩ := List.mem_map.mp (h id hid)
      have hlive : b.isLive c.id = true :=
        List.any_eq_true.mpr ⟨c, hc, by rw [hl c hc, Bool.and_true]; exact decide_eq_true rfl⟩
      exact Option.filter_some_pos hlive
  unfold status
  rw [hcount, hstream, hcontroller]

/-- However the tasks interleave: when all that was begun has been published, the status tells how
many clients there are, who controls the game and how many observe it; and the main loop knows the
same as soon as it has taken the status in. -/
theorem status_settles {config : ServerConfig} {f : Feed} (h : Reachable config f) (hs : Settled f) :
    let b := f.server.broker
    let told : AdapterStatus := ⟨min b.clients.length 65535, b.controllerId,
      min (b.clients.countP ClientHandle.streamObservations) 65535⟩
    f.published.value = some told ∧ (f.published.unseen = false → f.view = told) := by
  intro b told
  have hi := invariant_reachable h
  have hp : f.published.value = some told :=
    (hi.published hs).trans (congrArg some (status_live hi.known hs.live))
  exact ⟨hp, fun hu => Option.some.inj ((hi.view hu).symm.trans hp)⟩

/-- Two clients, of which one observes and the other leaves. -/
def twoClients : List FeedStep :=
  let greet (id : ℕ) (role : RequestedRole) : List FeedStep :=
    [.act .accept, .emitStatus .acceptLoop, .act (.runSection id), .emitStatus (.client id),
      .act (.line id (.parsed (.Hello ⟨1, "3.0.0".toList, true, ⟨some role, .Action, true⟩⟩))),
      .act (.runSection id), .act (.runSection id), .act (.runSection id), .act (.enqueue id),
      .emitStatus (.client id)]
  greet 1 .Auto ++ greet 2 .Observer ++
    [.act (.leave 1), .act (.runSection 1), .tryRecvStatus, .emitStatus (.client 1), .tryRecvStatus]

def twoClientsFeed : Feed := (twoClients.foldlM (Feed.step smallConfig) .initial).getD .initial

theorem twoClients_reached :
    twoClients.foldlM (Feed.step smallConfig) .initial = some twoClientsFeed :=
  (Option.getD_of_ne_none (by decide +kernel) _).symm

theorem status_settles_two : twoClientsFeed.view = ⟨1, none, 1⟩ := by
  have hreach : Reachable smallConfig twoClientsFeed :=
    Reach.foldlM (.init rfl) twoClients twoClients_reached
  have hidle : ∀ id, reporting (twoClientsFeed.server.tasks id) = false := by
    intro id
    by_cases hid : id < 3
    · exact (by decide +kernel : ∀ id < 3, reporting (twoClientsFeed.server.tasks id) = false) id hid
    · have hcounter : twoClientsFeed.server.clientIdCounter = 2 := by decide +kernel
      rw [(invariant_reachable hreach).server.absent id (by omega)]
      rfl
  have h := status_settles hreach ⟨by decide +kernel, hidle, by decide +kernel⟩
  exact (h.2 (by decide +kernel)).trans (by decide +kernel)

end TuiTetris.AdapterEmitStatus
