import TuiTetris.AdapterBrokerControl
import TuiTetris.AdapterDelivery

set_option autoImplicit false

/-!
# In which order a client receives observations

Broadcasts do not overtake each other, and a reply is newer than everything
published before it. A broadcast on its way can be overtaken by a reply.
-/
namespace TuiTetris.AdapterDeliveryOrder
open CoreTypes LibArrayVec LibLatestSlot LibTransition SessionEngine
open AdapterProtocol AdapterObservation AdapterGameLoop AdapterBroker AdapterBrokerControl
open AdapterDelivery

theorem subscribers_nodup {s : System} (hs : Distinct s) :
    (Delivery.subscribers s.broker).Nodup :=
  hs.nodup.sublist (List.filter_sublist.map ClientHandle.id)

/-! ## Numbers of the game loop -/

theorem foldl_captureEvent_seq (events : List CoreLastEvent) (o : ObservationSchedule) :
    (events.foldl ObservationSchedule.captureEvent o).seq = o.seq := by
  induction events generalizing o with
  | nil => rfl
  | cons event events ih => exact ih (o.captureEvent event)

theorem receive_numbers (session : SessionRuntime) (d : Drain) (inbound : InboundCommand) :
    ((receive session d inbound).2 = [] ∧
        (receive session d inbound).1.observations.seq = d.observations.seq) ∨
      ∃ id o, (receive session d inbound).2 = [.observation id o] ∧
        o.seq = d.observations.seq + 1 ∧
        (receive session d inbound).1.observations.seq = d.observations.seq + 1 := by
  obtain ⟨clientId, seq, payload⟩ := inbound
  cases payload with
  | SnapshotRequest => exact .inr ⟨clientId, _, rfl, rfl, rfl⟩
  | Command command => exact .inl ⟨rfl, rfl⟩

theorem finish_numbers (session : SessionRuntime) (d : Drain) (hasAdapter : Bool)
    (localActions : ArrayVec GameAction maxLocalActionsPerStep) (streaming : Bool) :
    ∃ replies, (∀ m ∈ replies, m.observation? = none) ∧
      (((finish session d hasAdapter localActions streaming).2.1 = replies ∧
          ((finish session d hasAdapter localActions streaming).1.observations.seq =
              d.observations.seq ∨
            (finish session d hasAdapter localActions streaming).1.observations.seq =
              d.observations.seq + 1)) ∨
        ∃ o, (finish session d hasAdapter localActions streaming).2.1 = replies ++ [.broadcast o] ∧
          o.seq = d.observations.seq + 1 ∧
          (finish session d hasAdapter localActions streaming).1.observations.seq =
            d.observations.seq + 1) := by
  simp only [finish]
  generalize session.transition
    { remote := d.pending.map PendingCommand.command, locals := localActions } = moved
  have hc := foldl_captureEvent_seq moved.2.events d.observations
  generalize moved.2.events.foldl ObservationSchedule.captureEvent d.observations = captured at hc ⊢
  refine ⟨(d.pending.toList.zip moved.2.commandOutcomes).map fun item =>
    reply moved.1 moved.2 item.1 item.2, fun m hm => ?_, ?_⟩
  · obtain ⟨item, -, rfl⟩ := List.mem_map.mp hm
    cases item.2 <;> rfl
  · rcases captured.afterTick_cases moved.1.game with ⟨-, hnone, hseq, -⟩ | ⟨hsome, hseq, -⟩
    · rw [hnone, hseq, hc]
      exact .inl ⟨List.append_nil _, .inl rfl⟩
    · rw [hsome, hseq, hc]
      dsimp only
      split
      · exact .inr ⟨_, rfl, rfl, rfl⟩
      · exact .inl ⟨List.append_nil _, .inr rfl⟩

/-! ## The invariant -/

def top (s : Delivery) : ℕ := s.loop.drain.observations.seq.toNat

structure Invariant (s : Delivery) : Prop where
  distinct : Distinct s.server
  ordered : ∀ id, (s.clients id).mailbox.Ordered number
  numbered : ∀ id, ∀ o ∈ (s.clients id).mailbox.published, number o ≤ top s
  latest : ∀ o, s.latest.value = some o → number o ≤ top s
  passed : ∀ id, ∀ o ∈ (s.clients id).mailbox.published,
    o ∈ (s.clients id).replies ∨ s.latest.Passed number (number o)
  inHand : ∀ b, s.dispatcher.inHand = some b → s.latest.Passed number (number b)
  ahead : ∀ b, s.dispatcher.inHand = some b → ∀ id, s.dispatcher.awaits id →
    ∀ o ∈ (s.clients id).mailbox.published, o ∈ (s.clients id).replies ∨ number o < number b
  targets : ∀ b rest, s.dispatcher = .publishing b rest → rest.Nodup

theorem invariant_initial (seed frequencyHz : UInt32) : Invariant (.initial seed frequencyHz) where
  distinct := ⟨List.nodup_nil, fun _ h => (nomatch h)⟩
  ordered _ := Mailbox.ordered_empty number
  numbered _ _ h := (nomatch h)
  latest _ h := (nomatch h)
  passed _ _ h := (nomatch h)
  inHand _ h := (nomatch h)
  ahead _ h := (nomatch h)
  targets _ _ h := (nomatch h)

section
variable {s : Delivery}

theorem Invariant.loop (h : Invariant s) (loop : Loop)
    (hl : top s ≤ loop.drain.observations.seq.toNat) : Invariant { s with loop := loop } :=
  { h with
    numbered := fun id o ho => (h.numbered id o ho).trans hl
    latest := fun o ho => (h.latest o ho).trans hl }

theorem Invariant.clients (h : Invariant s) (id : ℕ) (client : Client)
    (hm : client.mailbox = (s.clients id).mailbox) (hr : client.replies = (s.clients id).replies) :
    Invariant (s.setClient id client) := by
  have same := Delivery.forall_setClient s
    (fun i c => c.mailbox = (s.clients i).mailbox ∧ c.replies = (s.clients i).replies)
    ⟨hm, hr⟩ fun _ => ⟨rfl, rfl⟩
  refine ⟨h.distinct, fun i => ?_, fun i => ?_, h.latest, fun i => ?_, h.inHand,
    fun b hb i hi => ?_, h.targets⟩
  · rw [(same i).1]
    exact h.ordered i
  · rw [(same i).1]
    exact h.numbered i
  · rw [(same i).1, (same i).2]
    exact h.passed i
  · rw [(same i).1, (same i).2]
    exact h.ahead b hb i hi

theorem Invariant.requestShutdown (h : Invariant s) (id : ℕ) : Invariant (s.requestShutdown id) := by
  have hc := h.clients id { s.clients id with live := false } rfl rfl
  exact { hc with distinct := h.distinct.congr (update_ids s.server.broker id _ fun _ => rfl) rfl }

/-- An observation newer than all that the client was sent, and either a reply or a broadcast that
is in hand for no other turn. -/
theorem Invariant.publish (h : Invariant s) (id : ℕ) {obs : ObservationMessage}
    (replies : List ObservationMessage)
    (hnew : (s.clients id).accepts = true →
      ∀ o ∈ (s.clients id).mailbox.published, number o < number obs)
    (hnum : number obs ≤ top s)
    (hpassed : obs ∈ replies ∨ s.latest.Passed number (number obs))
    (hahead : ∀ b, s.dispatcher.inHand = some b → s.dispatcher.awaits id → obs ∈ replies) :
    Invariant (s.publishObservation id obs replies) := by
  simp only [Delivery.publishObservation]
  split
  · next ha =>
    refine ⟨h.distinct, ?_, ?_, h.latest, ?_, h.inHand, fun b hb => ?_, h.targets⟩
    · exact Delivery.forall_setClient s (fun _ c => c.mailbox.Ordered number)
        ((h.ordered id).publish (hnew ha)) h.ordered
    · refine Delivery.forall_setClient s
        (fun _ c => ∀ o ∈ c.mailbox.published, number o ≤ top s) (fun o ho => ?_) h.numbered
      rcases List.mem_append.mp ho with ho | ho
      · exact h.numbered id o ho
      · rw [List.mem_singleton.mp ho]
        exact hnum
    · refine Delivery.forall_setClient s
        (fun _ c => ∀ o ∈ c.mailbox.published, o ∈ c.replies ∨ s.latest.Passed number (number o))
        (fun o ho => ?_) h.passed
      rcases List.mem_append.mp ho with ho | ho
      · exact (h.passed id o ho).imp_left (List.mem_append_left _)
      · rw [List.mem_singleton.mp ho]
        exact hpassed.imp_left (List.mem_append_right _)
    · refine Delivery.forall_setClient s
        (fun i c => s.dispatcher.awaits i →
          ∀ o ∈ c.mailbox.published, o ∈ c.replies ∨ number o < number b)
        (fun hi o ho => ?_) (h.ahead b hb)
      rcases List.mem_append.mp ho with ho | ho
      · exact (h.ahead b hb id hi o ho).imp_left (List.mem_append_left _)
      · rw [List.mem_singleton.mp ho]
        exact .inl (List.mem_append_right _ (hahead b hb hi))
  · exact h.requestShutdown id

theorem Invariant.reply (h : Invariant s) {loop : Loop} (id : ℕ) {obs : ObservationMessage}
    (ho : number obs = top s + 1) (hl : loop.drain.observations.seq.toNat = top s + 1) :
    Invariant ({ s with loop := loop }.send (.observation id obs)) := by
  have hloop := h.loop loop (by omega)
  refine hloop.publish id [obs] (fun _ o hm => ?_) ?_ (.inl (List.mem_singleton_self _))
    fun _ _ _ => List.mem_singleton_self _
  · have hle := h.numbered id o hm
    omega
  · change number obs ≤ loop.drain.observations.seq.toNat
    omega

theorem Invariant.broadcast (h : Invariant s) {loop : Loop} {obs : ObservationMessage}
    (ho : number obs = top s + 1) (hl : loop.drain.observations.seq.toNat = top s + 1) :
    Invariant ({ s with loop := loop }.send (.broadcast obs)) := by
  have hloop := h.loop loop (by omega)
  have newer : ∀ {k : ℕ}, s.latest.Passed number k → Watch.Passed number (.send obs) k := by
    rintro k ⟨v, hv, hle, -⟩
    have hv := h.latest v hv
    exact .send (by omega)
  refine { hloop with
    latest := fun o hv => ?_, passed := fun id o hm => ?_, inHand := fun b hb => ?_ }
  · cases hv
    change number obs ≤ loop.drain.observations.seq.toNat
    omega
  · exact (h.passed id o hm).imp_right newer
  · exact newer (h.inHand b hb)

theorem foldl_send_reliable (s : Delivery) {messages : List Outbound}
    (h : ∀ m ∈ messages, m.observation? = none) : messages.foldl Delivery.send s = s := by
  induction messages with
  | nil => rfl
  | cons m ms ih =>
    have hm := h m List.mem_cons_self
    have hs : s.send m = s := by
      cases m with
      | ack id message => rfl
      | error id message => rfl
      | observation id message => cases hm
      | broadcast message => cases hm
    rw [List.foldl_cons, hs]
    exact ih fun m hm => h m (List.mem_cons_of_mem _ hm)

theorem toNat_next {seq : UInt64} (h : seq.toNat + 1 < 2 ^ 64) : (seq + 1).toNat = seq.toNat + 1 := by
  rw [UInt64.toNat_add]
  exact Nat.mod_eq_of_lt h

theorem invariant_receive (h : Invariant s) {u : Delivery} {inbound : InboundCommand}
    (ht : s.loop.drain.observations.seq.toNat + 1 < 2 ^ 64)
    (hu : s.step (.receive inbound) = some u) : Invariant u := by
  simp only [Delivery.step] at hu
  split at hu
  · cases hu
    rcases receive_numbers s.loop.session s.loop.drain inbound with ⟨hsent, hseq⟩ |
      ⟨id, o, hsent, ho, hseq⟩
    · rw [hsent]
      refine h.loop _ ?_
      change _ ≤ (receive s.loop.session s.loop.drain inbound).1.observations.seq.toNat
      rw [hseq]
      exact Nat.le_refl _
    · rw [hsent]
      refine h.reply id ?_ ?_
      · exact (congrArg UInt64.toNat ho).trans (toNat_next ht)
      · exact (congrArg UInt64.toNat hseq).trans (toNat_next ht)
  · cases hu

theorem invariant_finish (h : Invariant s) {u : Delivery}
    {localActions : ArrayVec GameAction maxLocalActionsPerStep} {streaming : Bool}
    (ht : s.loop.drain.observations.seq.toNat + 1 < 2 ^ 64)
    (hu : s.step (.finish localActions streaming) = some u) : Invariant u := by
  cases hu
  have hnext := toNat_next ht
  obtain ⟨replies, hreplies, hcases⟩ :=
    finish_numbers s.loop.session s.loop.drain true localActions streaming
  rcases hcases with ⟨hsent, hseq⟩ | ⟨o, hsent, ho, hseq⟩
  · rw [hsent, foldl_send_reliable _ hreplies]
    refine h.loop _ ?_
    change _ ≤ (finish s.loop.session s.loop.drain true localActions streaming).1.observations.seq.toNat
    rcases hseq with hseq | hseq
    · rw [hseq]
      exact Nat.le_refl _
    · rw [hseq, hnext]
      exact Nat.le_succ _
  · rw [hsent, List.foldl_append, foldl_send_reliable _ hreplies]
    refine h.broadcast ?_ ?_
    · exact (congrArg UInt64.toNat ho).trans hnext
    · exact (congrArg UInt64.toNat hseq).trans hnext

theorem invariant_dispatcherRecv (h : Invariant s) {u : Delivery}
    (hu : s.step .dispatcherRecv = some u) : Invariant u := by
  simp only [Delivery.step] at hu
  split at hu
  · obtain ⟨⟨obs, w⟩, ht, rfl⟩ := Option.map_eq_some_iff.mp hu
    obtain ⟨hsend, hw⟩ := Watch.take_eq_some ht
    refine { h with
      latest := fun o hv => h.latest o ?_, passed := fun id o hm => ?_, inHand := fun b hb => ?_,
      ahead := fun b hb id _ o hm => ?_, targets := fun b rest hd => (nomatch hd) }
    · rw [hsend]
      rw [hw] at hv
      exact hv
    · exact (h.passed id o hm).imp_right fun hk => (hk.take ht).2
    · cases hb
      exact .taken ht
    · cases hb
      exact (h.passed id o hm).imp_right fun hk => (hk.take ht).1
  · cases hu

theorem invariant_dispatcherLock (h : Invariant s) {u : Delivery}
    (hu : s.step .dispatcherLock = some u) : Invariant u := by
  simp only [Delivery.step] at hu
  split at hu
  · next obs hd =>
    cases hu
    have hin : s.dispatcher.inHand = some obs := by rw [hd]; rfl
    have hawaits : ∀ id, s.dispatcher.awaits id := fun id => by rw [hd]; trivial
    refine { h with
      inHand := fun b hb => ?_, ahead := fun b hb id _ => ?_, targets := fun b rest ht => ?_ }
    · cases hb
      exact h.inHand obs hin
    · cases hb
      exact h.ahead obs hin id (hawaits id)
    · cases ht
      exact subscribers_nodup h.distinct
  · cases hu

/-- The client gets what is newer than the broadcasts before it and, on time, than its replies. -/
theorem invariant_dispatcherPublish (h : Invariant s) {u : Delivery}
    (ht : onTime s .dispatcherPublish = true) (hu : s.step .dispatcherPublish = some u) :
    Invariant u := by
  simp only [Delivery.step] at hu
  split at hu
  · next obs id rest hd =>
    cases hu
    have hin : s.dispatcher.inHand = some obs := by rw [hd]; rfl
    have hnodup := h.targets obs (id :: rest) hd
    have hstep : Invariant { s with dispatcher := .publishing obs rest } := by
      refine { h with
        inHand := fun b hb => ?_, ahead := fun b hb i hi => ?_, targets := fun b r hr => ?_ }
      · cases hb
        exact h.inHand obs hin
      · cases hb
        refine h.ahead obs hin i ?_
        rw [hd]
        exact List.mem_cons_of_mem id hi
      · cases hr
        exact (List.nodup_cons.mp hnodup).2
    refine hstep.publish id [] (fun ha o hm => ?_) ?_ (.inr (h.inHand obs hin)) fun b _ hi => ?_
    · have hawaits : s.dispatcher.awaits id := by
        rw [hd]
        exact List.mem_cons_self
      rcases h.ahead obs hin id hawaits o hm with hr | hlt
      · have hacc : (s.clients id).accepts = true := ha
        simp only [onTime, hd, hacc, Bool.not_true, Bool.false_or, List.all_eq_true,
          decide_eq_true_eq] at ht
        exact ht o hr
      · exact hlt
    · obtain ⟨v, hv, hle, -⟩ := h.inHand obs hin
      exact hle.trans (h.latest v hv)
    · exact absurd hi (List.nodup_cons.mp hnodup).1
  · cases hu

theorem invariant_dispatcherDone (h : Invariant s) {u : Delivery}
    (hu : s.step .dispatcherDone = some u) : Invariant u := by
  simp only [Delivery.step] at hu
  split at hu
  · cases hu
    exact { h with
      inHand := fun _ hb => (nomatch hb), ahead := fun _ hb => (nomatch hb),
      targets := fun _ _ ht => (nomatch ht) }
  · cases hu

theorem invariant_broker (h : Invariant s) {u : Delivery} {step : BrokerStep}
    (hu : s.step (.broker step) = some u) : Invariant u := by
  simp only [Delivery.step] at hu
  split at hu
  · cases hu
  · split at hu
    · cases hu
    · obtain ⟨server, hs, rfl⟩ := Option.map_eq_some_iff.mp hu
      exact { h with distinct := distinct_step h.distinct hs }

theorem invariant_write (h : Invariant s) {u : Delivery} {id : ℕ}
    (hu : s.step (.write id) = some u) : Invariant u := by
  simp only [Delivery.step] at hu
  split at hu
  · obtain ⟨m, hm, rfl⟩ := Option.map_eq_some_iff.mp hu
    obtain ⟨ho, hp⟩ := (h.ordered id).read hm
    have same : ∀ i, ((s.setClient id { s.clients id with mailbox := m }).clients i).mailbox.published =
        (s.clients i).mailbox.published ∧
        ((s.setClient id { s.clients id with mailbox := m }).clients i).replies =
          (s.clients i).replies :=
      Delivery.forall_setClient s (fun i c =>
        c.mailbox.published = (s.clients i).mailbox.published ∧
          c.replies = (s.clients i).replies) ⟨hp, rfl⟩ fun _ => ⟨rfl, rfl⟩
    refine { h with ordered := ?_, numbered := ?_, passed := ?_, ahead := ?_ }
    · exact Delivery.forall_setClient s (fun _ c => c.mailbox.Ordered number) ho h.ordered
    · intro i
      rw [(same i).1]
      exact h.numbered i
    · intro i
      rw [(same i).1, (same i).2]
      exact h.passed i
    · intro b hb i
      rw [(same i).1, (same i).2]
      exact h.ahead b hb i
  · cases hu

theorem invariant_onTimeStep (h : Invariant s) {u : Delivery} {step : DeliveryStep}
    (hu : s.onTimeStep step = some u) : Invariant u := by
  unfold Delivery.onTimeStep at hu
  split at hu
  · next ht =>
    cases step with
    | receive inbound => exact invariant_receive h (by simpa [onTime] using ht) hu
    | finish localActions streaming => exact invariant_finish h (by simpa [onTime] using ht) hu
    | dispatcherRecv => exact invariant_dispatcherRecv h hu
    | dispatcherLock => exact invariant_dispatcherLock h hu
    | dispatcherPublish => exact invariant_dispatcherPublish h ht hu
    | dispatcherDone => exact invariant_dispatcherDone h hu
    | broker step => exact invariant_broker h hu
    | write id => exact invariant_write h hu
    | writerExit id =>
      cases hu
      exact (h.clients id { s.clients id with reading := false } rfl rfl).requestShutdown id
    | shutdown id =>
      cases hu
      exact h.requestShutdown id
  · cases hu

end

/-! ## Runs -/

def Started (s : Delivery) : Prop := ∃ seed frequencyHz, s = .initial seed frequencyHz

/-- What every client receives increases, and its slot holds the newest observation published. -/
def InOrder (s : Delivery) : Prop :=
  ∀ id, ((s.clients id).mailbox.received.map number).Pairwise (· < ·) ∧
    ∀ o ∈ (s.clients id).mailbox.published,
      ∃ v, (s.clients id).mailbox.slot.value = some v ∧ number o ≤ number v

/-- In every run whose dispatcher publishes nothing older than a reply to the same client, and
whose numbers do not run out, every client receives observations in order. -/
theorem received_in_order {s : Delivery}
    (h : Reach Started (fun s step u => s.onTimeStep step = some u) s) : InOrder s := by
  have hi : Invariant s := by
    refine h.invariant ?_ fun s step u hs hu => invariant_onTimeStep hs hu
    rintro _ ⟨seed, frequencyHz, rfl⟩
    exact invariant_initial seed frequencyHz
  exact fun id => ⟨(hi.ordered id).received, (hi.ordered id).newest⟩

def streamHello : Hello := ⟨none, .Action, true⟩

/-- The hello of a client that streams, with the request that follows it left in the queue. -/
def greet (id : ℕ) : List DeliveryStep :=
  [.broker (.connect id), .broker (.recordHello id streamHello), .broker (.assign id streamHello)]

def dropStep : DeliveryStep := .finish ⟨[.HardDrop], by decide⟩ true

def request (id : ℕ) : DeliveryStep := .receive ⟨id, 1, .SnapshotRequest⟩

def promptRun : List DeliveryStep :=
  greet 1 ++ [request 1, .write 1, dropStep, .dispatcherRecv, .dispatcherLock, .dispatcherPublish,
    .write 1]

theorem promptRun_received :
    ((promptRun.foldlM Delivery.onTimeStep (.initial 1 20)).map fun s =>
      (s.clients 1).mailbox.received.map number) = some [1, 2] := by
  decide +kernel

theorem received_in_order_prompt : ∃ s : Delivery,
    (s.clients 1).mailbox.received.map number = [1, 2] ∧ InOrder s := by
  obtain ⟨s, hs, hr⟩ := Option.map_eq_some_iff.mp promptRun_received
  exact ⟨s, hr, received_in_order (Reach.foldlM (.init ⟨1, 20, rfl⟩) promptRun hs)⟩

/-- The second client says hello while the dispatcher has the broadcast of the drop in hand. -/
def overtaken : List DeliveryStep :=
  greet 1 ++ [request 1, .write 1] ++ greet 2 ++
    [dropStep, .dispatcherRecv, request 2, .write 2, .dispatcherLock, .dispatcherPublish,
      .dispatcherPublish, .write 2]

theorem overtaken_received :
    ((overtaken.foldlM Delivery.step (.initial 1 20)).map fun s =>
      (s.clients 2).mailbox.received.map number) = some [3, 2] := by
  decide +kernel

/-- The second client receives the older snapshot after the newer one. -/
theorem overtaken_not_in_order :
    ¬∀ s, Reach Started (fun s step u => Delivery.step s step = some u) s → InOrder s := by
  intro h
  obtain ⟨s, hs, hr⟩ := Option.map_eq_some_iff.mp overtaken_received
  have ho := (h s (Reach.foldlM (.init ⟨1, 20, rfl⟩) overtaken hs) 2).1
  rw [hr] at ho
  exact absurd ho (by decide)

end TuiTetris.AdapterDeliveryOrder
