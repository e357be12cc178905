import TuiTetris.AppCli
import TuiTetris.AppRunner

set_option autoImplicit false

/-!
# Wall time and logical steps

Both loops turn the time between two samples into fixed steps. No time is lost on the way,
so the step count follows from the clock alone; and a headless program without an adapter
is the batch mode stretched over time.
-/
namespace TuiTetris.AppRunnerClock
open LibDuration LibTransition SessionEngine SessionReplay SessionFixedStep AdapterGameLoop AppCli
open TermInputHandler AppRunner
open AdapterEmitStatus (AdapterStatus)
open TermGameView (AdapterStatusView)

/-! ## The headless loop -/

structure Headless where
  loop : LoopState
  adapter : Option (List InboundCommand)
  adapterStreamingCount : ℕ
  clock : FixedStepClock
  lastSample : Instant

structure HeadlessTurn where
  statuses : List AdapterStatus
  sampleTime : Instant
  arrivals : ℕ → List InboundCommand

namespace Headless

def start (seed observationHz : UInt32) (adapter : Option (List InboundCommand)) (now : Instant) :
    Headless :=
  { loop := .new seed observationHz, adapter, adapterStreamingCount := 0, clock := startClock,
    lastSample := now }

def takeStatuses (h : Headless) (statuses : List AdapterStatus) : Headless :=
  if h.adapter.isSome then { h with
    adapterStreamingCount :=
      statuses.foldl (fun _ status => status.streamingCount) h.adapterStreamingCount }
  else h

def fixedStep (h : Headless) (e : HeadlessTurn) (i : ℕ) : Headless :=
  let stepped := stepSession (h.adapter.map (· ++ e.arrivals i)) h.loop .empty
    (h.adapterStreamingCount > 0)
  { h with loop := stepped.state, adapter := stepped.queue }

def fixedSteps (h : Headless) (e : HeadlessTurn) : ℕ → ℕ → Headless
  | 0, _ => h
  | n + 1, i => fixedSteps (h.fixedStep e i) e n (i + 1)

/-- Without a step the source sleeps and goes on. -/
def turn (h : Headless) (e : HeadlessTurn) : Headless :=
  let h := h.takeStatuses e.statuses
  let called := advanced h.clock (e.sampleTime.saturatingSub h.lastSample)
  fixedSteps { h with clock := called.clock, lastSample := e.sampleTime } e called.due.toNat 0

end Headless

/-! ## Time and steps -/

/-- After `n` steps the backlog is what is left of the time since `t₀`. -/
structure OnTime (t₀ : Instant) (n : ℕ) (clock : FixedStepClock) (lastSample : Instant) : Prop where
  tick : clock.tick = tickDuration
  maxSteps : clock.maxStepsPerAdvance = maxCatchUpSteps
  started : t₀.asNanos ≤ lastSample.asNanos
  time : n * tickDuration.asNanos + clock.backlog.asNanos = lastSample.asNanos - t₀.asNanos

theorem onTime_start (now : Instant) : OnTime now 0 startClock now :=
  ⟨rfl, rfl, Nat.le_refl _, by
    rw [Nat.zero_mul, Nat.sub_self]
    rfl⟩

/-- A later sample turns the time since the last one into steps and backlog. -/
theorem onTime_advanced {t₀ : Instant} {n : ℕ} {clock : FixedStepClock} {lastSample now : Instant}
    (h : OnTime t₀ n clock lastSample) (hn : lastSample.asNanos ≤ now.asNanos) :
    let called := advanced clock (now.saturatingSub lastSample)
    OnTime t₀ (n + called.due.toNat) called.clock now ∧ called.due.toNat ≤ 8 := by
  intro called
  obtain ⟨-, hbound, hmoved⟩ := advanced_spec clock (now.saturatingSub lastSample)
  change called.due.toNat * _ + called.clock.backlog.asNanos = _ at hmoved
  have helapsed : (now.saturatingSub lastSample).asNanos = now.asNanos - lastSample.asNanos := rfl
  have hstarted := h.started
  have htime := h.time
  have hlimit := now.lt_limit
  have hfit : clock.backlog.asNanos + (now.saturatingSub lastSample).asNanos < nanosLimit := by
    omega
  rw [Duration.saturatingAdd_asNanos hfit, h.tick, helapsed] at hmoved
  refine ⟨⟨hbound.tick.trans h.tick, hbound.maxSteps.trans h.maxSteps, Nat.le_trans hstarted hn, ?_⟩,
    ?_⟩
  · rw [Nat.add_mul]
    omega
  · have hdue := UInt32.le_iff_toNat_le.mp hbound.due_le
    rw [h.maxSteps] at hdue
    exact hdue

theorem logicalStep_add {step : UInt64} {m : ℕ} (h : step = UInt64.ofNat m) :
    step + 1 = UInt64.ofNat (m + 1) := by
  rw [h, UInt64.ofNat_add]
  rfl

/-! ## The program on the terminal -/

theorem steps_counted (a : App) (e : Turn) (n i m : ℕ)
    (h : a.loop.session.logicalStep = UInt64.ofNat m) :
    (a.fixedSteps e n i).2.length = n ∧
      (a.fixedSteps e n i).1.loop.session.logicalStep = UInt64.ofNat (m + n) := by
  induction n generalizing a i m with
  | zero => exact ⟨rfl, h⟩
  | succ n ih =>
    obtain ⟨hlen, hstep⟩ := ih (a.fixedStep e i).1 (i + 1) (m + 1) (logicalStep_add h)
    refine ⟨congrArg Nat.succ hlen, ?_⟩
    rw [Nat.add_assoc, Nat.add_comm 1] at hstep
    exact hstep

structure Punctual (t₀ : Instant) (n : ℕ) (a : App) : Prop where
  onTime : OnTime t₀ n a.clock a.lastSample
  logicalStep : a.loop.session.logicalStep = UInt64.ofNat n

theorem Punctual.congr {t₀ : Instant} {n : ℕ} {a b : App} (h : Punctual t₀ n a)
    (hl : b.loop = a.loop) (hc : b.clock = a.clock) (hs : b.lastSample = a.lastSample) :
    Punctual t₀ n b := by
  refine ⟨?_, ?_⟩
  · rw [hc, hs]
    exact h.onTime
  · rw [hl]
    exact h.logicalStep

theorem punctual_prepare {t₀ : Instant} {n : ℕ} {a : App} (h : Punctual t₀ n a) (e : Turn) :
    Punctual t₀ n (a.prepare e) ∧ (a.prepare e).lastSample = a.lastSample := by
  unfold App.prepare
  rw [App.takeStatuses_eq]
  exact ⟨h.congr rfl rfl rfl, rfl⟩

theorem punctual_sample {t₀ : Instant} {n : ℕ} {a : App} (h : Punctual t₀ n a) {e : Turn}
    (hn : a.lastSample.asNanos ≤ e.sampleTime.asNanos) :
    Punctual t₀ (n + (a.sample e).2.length) (a.sample e).1 ∧
      (a.sample e).1.lastSample = e.sampleTime ∧ (a.sample e).2.length ≤ 8 := by
  obtain ⟨htime, hdue⟩ := onTime_advanced h.onTime hn
  let sampled : App := { a with
    clock := (advanced a.clock (e.sampleTime.saturatingSub a.lastSample)).clock
    lastSample := e.sampleTime }
  obtain ⟨hlen, hstep⟩ := steps_counted sampled e
    (advanced a.clock (e.sampleTime.saturatingSub a.lastSample)).due.toNat 0 n h.logicalStep
  have hs := App.stepped_fixedSteps sampled e
    (advanced a.clock (e.sampleTime.saturatingSub a.lastSample)).due.toNat 0
  have hlen' : (a.sample e).2.length =
      (advanced a.clock (e.sampleTime.saturatingSub a.lastSample)).due.toNat := hlen
  rw [hlen']
  refine ⟨⟨?_, hstep⟩, hs.lastSample, hdue⟩
  change OnTime t₀ _ (sampled.fixedSteps e _ 0).1.clock (sampled.fixedSteps e _ 0).1.lastSample
  rw [hs.clock, hs.lastSample]
  exact htime

theorem punctual_turn {t₀ : Instant} {n : ℕ} {a : App} (h : Punctual t₀ n a) {e : Turn}
    (hn : a.lastSample.asNanos ≤ e.sampleTime.asNanos) :
    Punctual t₀ (n + (a.logs e).length) (a.turn e) ∧
      ((a.turn e).lastSample = a.lastSample ∨ (a.turn e).lastSample = e.sampleTime) ∧
      (a.logs e).length ≤ 8 := by
  obtain ⟨hp, hlast⟩ := punctual_prepare h e
  have hk := App.kept_onEvent (a.prepare e) e
  unfold App.logs App.turn App.turnLogged
  split
  · exact ⟨h, .inl rfl, Nat.zero_le _⟩
  · cases hf : (a.prepare e).onEvent e with
    | quit => exact ⟨hp.congr rfl rfl rfl, .inl hlast, Nat.zero_le _⟩
    | skip b =>
      rw [hf] at hk
      exact ⟨hp.congr hk.loop hk.clock hk.lastSample, .inl (hk.lastSample.trans hlast),
        Nat.zero_le _⟩
    | proceed b =>
      rw [hf] at hk
      have hb := hk.lastSample.trans hlast
      obtain ⟨hpunctual, hsample, hlen⟩ := punctual_sample (e := e)
        (hp.congr hk.loop hk.clock hk.lastSample) (by rw [hb]; exact hn)
      exact ⟨hpunctual, .inr hsample, hlen⟩

/-- The times of the samples to come, none before the last one. -/
def InOrder (lastSample : Instant) (times : List Instant) : Prop :=
  (lastSample :: times).Pairwise fun s t => s.asNanos ≤ t.asNanos

theorem InOrder.next {last next : Instant} {times : List Instant} {sample : Instant}
    (h : InOrder last (sample :: times)) (hn : next = last ∨ next = sample) : InOrder next times := by
  obtain ⟨hlast, hrest⟩ := List.pairwise_cons.mp h
  rcases hn with rfl | rfl
  · exact List.pairwise_cons.mpr
      ⟨fun t ht => hlast t (List.mem_cons_of_mem _ ht), (List.pairwise_cons.mp hrest).2⟩
  · exact hrest

theorem punctual_run {t₀ : Instant} {n : ℕ} {a : App} (h : Punctual t₀ n a) (turns : List Turn)
    {later : List Instant} (hs : InOrder a.lastSample (turns.map Turn.sampleTime ++ later)) :
    Punctual t₀ (n + (trace App.turn App.logs a turns).length) (run App.turn a turns) ∧
      InOrder (run App.turn a turns).lastSample later := by
  induction turns generalizing a n with
  | nil => exact ⟨h, hs⟩
  | cons e turns ih =>
    obtain ⟨hpunctual, hlast, -⟩ := punctual_turn h ((List.pairwise_cons.mp hs).1 _ List.mem_cons_self)
    obtain ⟨hrun, hlater⟩ := ih hpunctual (hs.next hlast)
    rw [Nat.add_assoc] at hrun
    rw [trace, List.length_append]
    exact ⟨hrun, hlater⟩

/-- As long as the clock does not go back, no wall time is lost on the way to the steps, and no turn
takes more than eight of them. -/
theorem wall_clock_kept (adapter : Option (List InboundCommand)) (adapterView : AdapterStatusView)
    (listenIp : IpAddr) (inputHandler : InputHandler) (observationHz : UInt32) (now : Instant)
    (turns : List Turn) (e : Turn)
    (h : InOrder now (turns.map Turn.sampleTime ++ [e.sampleTime])) :
    let start := App.start adapter adapterView listenIp inputHandler observationHz now
    let a := run App.turn start turns
    let steps := (trace App.turn App.logs start turns).length
    steps * tickDuration.asNanos + a.clock.backlog.asNanos =
        a.lastSample.asNanos - now.asNanos ∧
      a.loop.session.logicalStep = UInt64.ofNat steps ∧ (a.logs e).length ≤ 8 := by
  intro start a steps
  have hstart : Punctual now 0 start := ⟨onTime_start now, rfl⟩
  obtain ⟨hrun, hlater⟩ := punctual_run hstart turns h
  rw [Nat.zero_add] at hrun
  exact ⟨hrun.onTime.time, hrun.logicalStep,
    (punctual_turn hrun ((List.pairwise_cons.mp hlater).1 _ List.mem_cons_self)).2.2⟩

/-- A turn that brings nothing but its time. -/
def quietTurn (sampleTime : Instant) : Turn :=
  { statuses := [], viewport := ⟨80, 24⟩, renderMs := 0, event := none, keyTime := .zero,
    resetTime := .zero, sampleTime, stepTimes := fun _ => .zero, arrivals := fun _ => [] }

theorem wall_clock_kept_quiet :
    let start := App.start none ⟨false, 0, none, 0, 1, none⟩ (.V4 (.replicate 4 0)) (.new .zero) 20 .zero
    let turns := [quietTurn ⟨20000000, by decide⟩]
    let a := run App.turn start turns
    let steps := (trace App.turn App.logs start turns).length
    steps * tickDuration.asNanos + a.clock.backlog.asNanos =
        a.lastSample.asNanos - Duration.zero.asNanos ∧
      a.loop.session.logicalStep = UInt64.ofNat steps ∧
      (a.logs (quietTurn ⟨60000000, by decide⟩)).length ≤ 8 :=
  wall_clock_kept none ⟨false, 0, none, 0, 1, none⟩ (.V4 (.replicate 4 0)) (.new .zero) 20 .zero
    [quietTurn ⟨20000000, by decide⟩] (quietTurn ⟨60000000, by decide⟩) (by
      refine List.pairwise_cons.mpr ⟨fun t _ => Nat.zero_le _, List.pairwise_cons.mpr ⟨?_, ?_⟩⟩
      · intro t ht
        obtain rfl := List.mem_singleton.mp ht
        exact (by decide : 20000000 ≤ 60000000)
      · exact List.pairwise_singleton _ _)

/-! ## The headless loop is the batch mode stretched over time -/

theorem headless_fixedSteps (h : Headless) (e : HeadlessTurn) (n i : ℕ) (ha : h.adapter = none) :
    (h.fixedSteps e n i).adapter = none ∧ (h.fixedSteps e n i).clock = h.clock ∧
      (h.fixedSteps e n i).lastSample = h.lastSample ∧
      ∀ hash, (h.fixedSteps e n i).loop.session = (batchLoop n h.loop.session hash).1 := by
  induction n generalizing h i with
  | zero => exact ⟨ha, rfl, rfl, fun _ => rfl⟩
  | succ n ih =>
    have hnone : (h.fixedStep e i).adapter = none := by
      unfold Headless.fixedStep
      rw [ha]
      rfl
    have hsession : (h.fixedStep e i).loop.session = (h.loop.session.transition .default).1 := by
      unfold Headless.fixedStep
      rw [ha]
      rfl
    obtain ⟨hadapter, hclock, hlast, hbatch⟩ := ih (h.fixedStep e i) (i + 1) hnone
    refine ⟨hadapter, hclock, hlast, fun hash => ?_⟩
    have hlater := hbatch (resultHash (h.loop.session.transition .default))
    rw [hsession] at hlater
    exact hlater

theorem batchLoop_add (m n : ℕ) (session : SessionRuntime) (hash hash' : UInt64) :
    (batchLoop n (batchLoop m session hash).1 hash').1 = (batchLoop (m + n) session hash).1 := by
  induction m generalizing session hash with
  | zero =>
    rw [Nat.zero_add]
    cases n <;> rfl
  | succ m ih =>
    rw [Nat.succ_add]
    exact ih _ _

/-- The session of a headless program after `n` steps. -/
structure Stretched (t₀ : Instant) (seed : UInt32) (n : ℕ) (h : Headless) : Prop where
  adapter : h.adapter = none
  onTime : OnTime t₀ n h.clock h.lastSample
  session : ∀ hash, h.loop.session = (batchLoop n (.new seed) hash).1

theorem stretched_turn {t₀ : Instant} {seed : UInt32} {n : ℕ} {h : Headless}
    (hs : Stretched t₀ seed n h) {e : HeadlessTurn} (hn : h.lastSample.asNanos ≤ e.sampleTime.asNanos) :
    ∃ m, Stretched t₀ seed m (h.turn e) ∧ (h.turn e).lastSample = e.sampleTime := by
  have htaken : h.takeStatuses e.statuses = h := by
    unfold Headless.takeStatuses
    rw [hs.adapter]
    rfl
  unfold Headless.turn
  rw [htaken]
  let sampled : Headless := { h with
    clock := (advanced h.clock (e.sampleTime.saturatingSub h.lastSample)).clock
    lastSample := e.sampleTime }
  obtain ⟨hadapter, hclock, hlast, hsession⟩ := headless_fixedSteps sampled e
    (advanced h.clock (e.sampleTime.saturatingSub h.lastSample)).due.toNat 0 hs.adapter
  refine ⟨n + (advanced h.clock (e.sampleTime.saturatingSub h.lastSample)).due.toNat,
    ⟨hadapter, ?_, fun hash => ?_⟩, hlast⟩
  · change OnTime t₀ _ (sampled.fixedSteps e _ 0).clock (sampled.fixedSteps e _ 0).lastSample
    rw [hclock, hlast]
    exact (onTime_advanced hs.onTime hn).1
  · have hrest := hsession hash
    have hbefore : sampled.loop.session = (batchLoop n (.new seed) hash).1 := hs.session hash
    rw [hbefore, batchLoop_add] at hrest
    exact hrest

/-- Without an adapter the headless program is at every time where the batch mode is after as many
steps as the time allows for, except for the backlog. -/
theorem headless_batch (seed observationHz : UInt32) (now : Instant) (turns : List HeadlessTurn)
    (h : InOrder now (turns.map HeadlessTurn.sampleTime)) :
    let a := run Headless.turn (Headless.start seed observationHz none now) turns
    ∃ n, n * tickDuration.asNanos + a.clock.backlog.asNanos = a.lastSample.asNanos - now.asNanos ∧
      ∀ hash, a.loop.session = (batchLoop n (.new seed) hash).1 := by
  intro a
  have hall : ∀ (b : Headless) (m : ℕ), Stretched now seed m b →
      InOrder b.lastSample (turns.map HeadlessTurn.sampleTime) →
      ∃ n, Stretched now seed n (run Headless.turn b turns) := by
    clear h a
    induction turns with
    | nil => exact fun _ m hb _ => ⟨m, hb⟩
    | cons e turns ih =>
      intro b m hb hs
      obtain ⟨k, hturn, hlast⟩ := stretched_turn hb ((List.pairwise_cons.mp hs).1 _ List.mem_cons_self)
      exact ih _ k hturn (hs.next (.inr hlast))
  obtain ⟨n, hn⟩ := hall (.start seed observationHz none now) 0
    ⟨rfl, onTime_start now, fun _ => rfl⟩ h
  exact ⟨n, hn.onTime.time, hn.session⟩

theorem headless_batch_once :
    let a := run Headless.turn (Headless.start 7 20 none .zero) [⟨[], ⟨20000000, by decide⟩, fun _ => []⟩]
    ∃ n, n * tickDuration.asNanos + a.clock.backlog.asNanos =
        a.lastSample.asNanos - Duration.zero.asNanos ∧
      ∀ hash, a.loop.session = (batchLoop n (.new 7) hash).1 :=
  headless_batch 7 20 .zero [⟨[], ⟨20000000, by decide⟩, fun _ => []⟩]
    (List.pairwise_cons.mpr ⟨fun _ _ => Nat.zero_le _, List.pairwise_singleton _ _⟩)

end TuiTetris.AppRunnerClock
