import Mathlib.Data.List.DropRight
import TuiTetris.AdapterObservation
import TuiTetris.LibChecked
import TuiTetris.LibMeter

set_option autoImplicit false

/-!
# Cadence of the observations

A watch beside the schedule remembers the state of the last tick and the events
captured since the last emission, so that a critical tick is a matter of the
history. Between critical ticks the phase of the schedule is a meter.
-/
namespace TuiTetris.AdapterCadence
open CoreTypes CoreGameState LibArrayVec LibChecked LibTransition LibMeter AdapterProtocol
open AdapterObservation

/-! ## One tick -/

/-- `after_tick` with the subtraction checked. -/
def afterTickChecked (o : ObservationSchedule) (game : GameState) :
    Checked (ObservationSchedule × Option (UInt64 × ArrayVec TransitionEvent 4)) := do
  let piece := updateChanged o.lastPieceId game.pieceId
  let active := updateChanged o.lastActiveId game.activeId
  let episode := updateChanged o.lastEpisodeId game.episodeId
  let paused := updateChanged o.lastPaused game.paused
  let gameOver := updateChanged o.lastGameOver game.gameOver
  let critical := piece.2 || active.2 || episode.2 || paused.2 || gameOver.2 ||
    !o.pendingEvents.toList.isEmpty
  let units := satAdd o.accumulatedFrequencyUnits (satMul tickMs o.frequencyHz)
  let o := { o with
    lastPieceId := piece.1, lastActiveId := active.1, lastEpisodeId := episode.1,
    lastPaused := paused.1, lastGameOver := gameOver.1, accumulatedFrequencyUnits := units }
  if !critical && units < 1000 then return (o, none)
  else
    let rest ← if critical then pure 0 else subUInt32 units 1000
    let numbered := { o with accumulatedFrequencyUnits := rest }.immediate
    return (numbered.1, some numbered.2)

theorem afterTickChecked_eq (o : ObservationSchedule) (game : GameState) :
    afterTickChecked o game = .ok (o.afterTick game) := by
  unfold afterTickChecked ObservationSchedule.afterTick
  simp only
  generalize ((updateChanged o.lastPieceId game.pieceId).2 || _ || _ || _ || _ || _) = critical
  generalize satAdd _ _ = units
  cases critical with
  | true => simp
  | false =>
    by_cases hu : units < 1000
    · simp [hu]
    · simp [hu, subUInt32_ok (UInt32.not_lt.mp hu)]

/-- The marks of the game differ from those of the last tick, or events wait. -/
def critical (o : ObservationSchedule) (game : GameState) : Bool :=
  o.lastPieceId ≠ game.pieceId || o.lastActiveId ≠ game.activeId ||
    o.lastEpisodeId ≠ game.episodeId || o.lastPaused ≠ game.paused ||
    o.lastGameOver ≠ game.gameOver || !o.pendingEvents.toList.isEmpty

/-- The schedule with the marks of the game. -/
def noted (o : ObservationSchedule) (game : GameState) : ObservationSchedule :=
  { o with
    lastPieceId := game.pieceId, lastActiveId := game.activeId, lastEpisodeId := game.episodeId,
    lastPaused := game.paused, lastGameOver := game.gameOver }

theorem updateChanged_eq {α : Type} [DecidableEq α] (previous current : α) :
    updateChanged previous current = (current, decide (previous ≠ current)) := by
  unfold updateChanged
  split
  · next h => simp [h]
  · next h => simp [h]

theorem afterTick_eq (o : ObservationSchedule) (game : GameState) : o.afterTick game =
    let units := satAdd o.accumulatedFrequencyUnits (satMul tickMs o.frequencyHz)
    if !critical o game && units < 1000 then
      ({ noted o game with accumulatedFrequencyUnits := units }, none)
    else
      let rest := if critical o game then 0 else units - 1000
      let numbered := { noted o game with accumulatedFrequencyUnits := rest }.immediate
      (numbered.1, some numbered.2) := by
  unfold ObservationSchedule.afterTick
  simp only [updateChanged_eq]
  rfl

/-- The settings stay and the marks are those of the game. -/
theorem afterTick_marks (o : ObservationSchedule) (game : GameState) :
    (o.afterTick game).1.frequencyHz = o.frequencyHz ∧
      (o.afterTick game).1.lastPieceId = game.pieceId ∧
      (o.afterTick game).1.lastActiveId = game.activeId ∧
      (o.afterTick game).1.lastEpisodeId = game.episodeId ∧
      (o.afterTick game).1.lastPaused = game.paused ∧
      (o.afterTick game).1.lastGameOver = game.gameOver := by
  rw [afterTick_eq]
  simp only
  split <;> exact ⟨rfl, rfl, rfl, rfl, rfl, rfl⟩

/-- A critical tick emits and starts a new phase. -/
theorem afterTick_critical {o : ObservationSchedule} {game : GameState}
    (h : critical o game = true) : (o.afterTick game).2 = some (o.seq + 1, o.pendingEvents) ∧
      (o.afterTick game).1.accumulatedFrequencyUnits = 0 := by
  simp only [afterTick_eq, h, Bool.not_true, Bool.false_and, Bool.false_eq_true, if_false, if_true]
  exact ⟨rfl, rfl⟩

def emitted (emission : Option (UInt64 × ArrayVec TransitionEvent 4)) : ℕ :=
  if emission.isSome then 1 else 0

/-- Any other tick adds its units to the phase, and an emission takes a thousand of them. -/
theorem afterTick_periodic {o : ObservationSchedule} {game : GameState}
    (hphase : o.accumulatedFrequencyUnits.toNat < 1000) (hfreq : o.frequencyHz.toNat ≤ 60)
    (h : critical o game = false) :
    emitted (o.afterTick game).2 * 1000 + (o.afterTick game).1.accumulatedFrequencyUnits.toNat =
        o.accumulatedFrequencyUnits.toNat + tickMs.toNat * o.frequencyHz.toNat ∧
      (o.afterTick game).1.accumulatedFrequencyUnits.toNat < 1000 := by
  have htick : tickMs.toNat = 16 := rfl
  have hunits : (satAdd o.accumulatedFrequencyUnits (satMul tickMs o.frequencyHz)).toNat =
      o.accumulatedFrequencyUnits.toNat + 16 * o.frequencyHz.toNat := by
    rw [satAdd_toNat, satMul_toNat, htick]
    omega
  have hthousand : (1000 : UInt32).toNat = 1000 := rfl
  simp only [afterTick_eq, h, Bool.not_false, Bool.true_and, decide_eq_true_eq]
  generalize satAdd o.accumulatedFrequencyUnits (satMul tickMs o.frequencyHz) = units at hunits ⊢
  rw [htick]
  split
  · next hlt =>
    rw [UInt32.lt_iff_toNat_lt] at hlt
    change 0 * 1000 + units.toNat = _ ∧ units.toNat < 1000
    omega
  · next hge =>
    have hle : (1000 : UInt32) ≤ units := UInt32.not_lt.mp hge
    have hsub := UInt32.toNat_sub_of_le _ _ hle
    rw [UInt32.le_iff_toNat_le] at hle
    change 1 * 1000 + (units - 1000).toNat = _ ∧ (units - 1000).toNat < 1000
    omega

/-! ## Runs -/

inductive Call where
  | captureEvent (event : CoreLastEvent)
  | immediate
  | afterTick (game : GameState)

def Call.apply (o : ObservationSchedule) : Call → ObservationSchedule
  | .captureEvent event => o.captureEvent event
  | .immediate => o.immediate.1
  | .afterTick game => (o.afterTick game).1

def Call.emission (o : ObservationSchedule) :
    Call → Option (UInt64 × ArrayVec TransitionEvent 4)
  | .captureEvent _ => none
  | .immediate => some o.immediate.2
  | .afterTick game => (o.afterTick game).2

/-- `previous` is the state of the last tick; before the first one, that of `new`. -/
structure Watch where
  schedule : ObservationSchedule
  previous : GameState
  captured : List CoreLastEvent

namespace Watch

def new (game : GameState) (frequencyHz : UInt32) : Watch := ⟨.new game frequencyHz, game, []⟩

def step (w : Watch) (call : Call) : Watch where
  schedule := call.apply w.schedule
  previous :=
    match call with
    | .afterTick game => game
    | _ => w.previous
  captured :=
    match call with
    | .captureEvent event => w.captured ++ [event]
    | call => if (call.emission w.schedule).isSome then [] else w.captured

/-- The piece, the active piece, the episode, the pause or the end of the game differs from the
last tick, or an event was captured since the last emission. -/
def Critical (w : Watch) (game : GameState) : Prop :=
  w.previous.pieceId ≠ game.pieceId ∨ w.previous.activeId ≠ game.activeId ∨
    w.previous.episodeId ≠ game.episodeId ∨ w.previous.paused ≠ game.paused ∨
    w.previous.gameOver ≠ game.gameOver ∨ w.captured ≠ []

end Watch

def clampedHz (frequencyHz : UInt32) : ℕ := max 1 (min frequencyHz.toNat 60)

/-- The schedule knows the last tick and the last four events of those captured since the last
emission, and its phase is below a thousand. -/
structure Kept (hz : ℕ) (w : Watch) : Prop where
  frequency : w.schedule.frequencyHz.toNat = hz
  piece : w.schedule.lastPieceId = w.previous.pieceId
  active : w.schedule.lastActiveId = w.previous.activeId
  episode : w.schedule.lastEpisodeId = w.previous.episodeId
  paused : w.schedule.lastPaused = w.previous.paused
  gameOver : w.schedule.lastGameOver = w.previous.gameOver
  pending : w.schedule.pendingEvents.toList = (w.captured.map TransitionEvent.ofCore).rtake 4
  phase : w.schedule.accumulatedFrequencyUnits.toNat < 1000

theorem captureEvent_pending (o : ObservationSchedule) (event : CoreLastEvent)
    (xs : List TransitionEvent) (h : o.pendingEvents.toList = xs.rtake 4) :
    (o.captureEvent event).pendingEvents.toList = (xs ++ [TransitionEvent.ofCore event]).rtake 4 := by
  have hlen := congrArg List.length h
  simp only [List.rtake, List.length_drop] at hlen
  rw [List.rtake_concat_succ]
  change (ArrayVec.push (if o.pendingEvents.isFull then o.pendingEvents.dropFirst
    else o.pendingEvents) (.ofCore event)).toList = _
  cases hfull : o.pendingEvents.isFull with
  | true =>
    have hfour : o.pendingEvents.toList.length = 4 := of_decide_eq_true hfull
    have hdrop : o.pendingEvents.dropFirst.toList = xs.rtake 3 := by
      change o.pendingEvents.toList.tail = _
      rw [h, List.rtake, List.rtake, List.tail_drop]
      congr 1
      omega
    have hroom : o.pendingEvents.dropFirst.toList.length < 4 := by
      change o.pendingEvents.toList.tail.length < 4
      rw [List.length_tail]
      omega
    rw [if_pos rfl, ArrayVec.push_toList _ _ hroom, hdrop]
  | false =>
    have hfour : o.pendingEvents.toList.length ≠ 4 := of_decide_eq_false hfull
    have hroom : o.pendingEvents.toList.length < 4 :=
      Nat.lt_of_le_of_ne o.pendingEvents.length_le hfour
    rw [if_neg (by decide), ArrayVec.push_toList _ _ hroom, h, List.rtake, List.rtake]
    congr 2
    omega

theorem waiting_iff {hz : ℕ} {w : Watch} (h : Kept hz w) :
    w.schedule.pendingEvents.toList = [] ↔ w.captured = [] := by
  rw [h.pending]
  cases w.captured using List.reverseRecOn with
  | nil => simp
  | append_singleton xs x => simp [List.rtake_concat_succ]

theorem critical_iff {hz : ℕ} {w : Watch} (h : Kept hz w) (game : GameState) :
    critical w.schedule game = true ↔ w.Critical game := by
  unfold critical Watch.Critical
  simp only [Bool.or_eq_true, decide_eq_true_eq, Bool.not_eq_true', List.isEmpty_eq_false_iff,
    h.piece, h.active, h.episode, h.paused, h.gameOver, ne_eq, waiting_iff h, or_assoc]

theorem kept_new (game : GameState) (frequencyHz : UInt32) :
    Kept (clampedHz frequencyHz) (.new game frequencyHz) := by
  refine ⟨?_, rfl, rfl, rfl, rfl, rfl, rfl, Nat.zero_lt_succ _⟩
  change (max 1 (min frequencyHz 60)).toNat = _
  rw [UInt32.toNat_max, UInt32.toNat_min]
  rfl

/-- No event waits after a tick. -/
theorem afterTick_empties {hz : ℕ} {w : Watch} (h : Kept hz w) (game : GameState) :
    (w.step (.afterTick game)).schedule.pendingEvents.toList = [] ∧
      (w.step (.afterTick game)).captured = [] := by
  change (w.schedule.afterTick game).1.pendingEvents.toList = [] ∧
    (if (w.schedule.afterTick game).2.isSome then [] else w.captured) = []
  rcases w.schedule.afterTick_cases game with ⟨hempty, hnone, -, hafter⟩ | ⟨hsome, -, hafter⟩
  · rw [hnone, hafter]
    exact ⟨rfl, (waiting_iff h).mp (congrArg ArrayVec.toList hempty)⟩
  · rw [hsome, hafter]
    exact ⟨rfl, rfl⟩

theorem kept_step {hz : ℕ} (hhz : hz ≤ 60) {w : Watch} (h : Kept hz w) (call : Call) :
    Kept hz (w.step call) := by
  cases call with
  | captureEvent event =>
    refine ⟨h.frequency, h.piece, h.active, h.episode, h.paused, h.gameOver, ?_, h.phase⟩
    change (w.schedule.captureEvent event).pendingEvents.toList = _
    rw [captureEvent_pending _ _ _ h.pending]
    simp [Watch.step]
  | immediate =>
    exact ⟨h.frequency, h.piece, h.active, h.episode, h.paused, h.gameOver, rfl, h.phase⟩
  | afterTick game =>
    obtain ⟨hfreq, hpiece, hactive, hepisode, hpaused, hover⟩ := afterTick_marks w.schedule game
    refine ⟨(congrArg UInt32.toNat hfreq).trans h.frequency, hpiece, hactive, hepisode, hpaused,
      hover, ?_, ?_⟩
    · obtain ⟨hpending, hcaptured⟩ := afterTick_empties h game
      rw [hcaptured]
      exact hpending
    · change (w.schedule.afterTick game).1.accumulatedFrequencyUnits.toNat < 1000
      cases hc : critical w.schedule game with
      | true =>
        rw [(afterTick_critical hc).2]
        decide
      | false => exact (afterTick_periodic h.phase (h.frequency ▸ hhz) hc).2

theorem clampedHz_le (frequencyHz : UInt32) : clampedHz frequencyHz ≤ 60 := by
  unfold clampedHz
  omega

theorem kept_run (game : GameState) (frequencyHz : UInt32) (calls : List Call) :
    Kept (clampedHz frequencyHz) (run Watch.step (.new game frequencyHz) calls) := by
  have hstep : ∀ w call, Kept (clampedHz frequencyHz) w →
      Kept (clampedHz frequencyHz) (Watch.step w call) :=
    fun _ call h => kept_step (clampedHz_le frequencyHz) h call
  exact run_invariant hstep (kept_new game frequencyHz) calls

/-! ## Numbers -/

def numberOf (w : Watch) (call : Call) : List UInt64 :=
  ((call.emission w.schedule).map Prod.fst).toList

/-- The numbers that a run gives out, periodic and immediate ones. -/
def numbers (w : Watch) (calls : List Call) : List UInt64 := trace Watch.step numberOf w calls

/-- A call gives out no number or the next one. -/
theorem numberOf_cases (w : Watch) (call : Call) :
    (numberOf w call = [] ∧ (w.step call).schedule.seq = w.schedule.seq) ∨
      (numberOf w call = [w.schedule.seq + 1] ∧ (w.step call).schedule.seq = w.schedule.seq + 1) := by
  cases call with
  | captureEvent event => exact .inl ⟨rfl, rfl⟩
  | immediate => exact .inr ⟨rfl, rfl⟩
  | afterTick game =>
    have hnumber : numberOf w (.afterTick game) =
        ((w.schedule.afterTick game).2.map Prod.fst).toList := rfl
    rcases w.schedule.afterTick_cases game with ⟨-, hnone, hseq, -⟩ | ⟨hsome, hseq, -⟩
    · rw [hnumber, hnone]
      exact .inl ⟨rfl, hseq⟩
    · rw [hnumber, hsome]
      exact .inr ⟨rfl, hseq⟩

/-- The numbers count up from the last one as long as the counter does not wrap. -/
theorem numbers_eq (w : Watch) (calls : List Call)
    (h : w.schedule.seq.toNat + (numbers w calls).length < 2 ^ 64) :
    (numbers w calls).map UInt64.toNat =
      List.range' (w.schedule.seq.toNat + 1) (numbers w calls).length := by
  induction calls generalizing w with
  | nil => rfl
  | cons call calls ih =>
    have hnumbers : numbers w (call :: calls) = numberOf w call ++ numbers (w.step call) calls := rfl
    have hrest := ih (w.step call)
    rw [hnumbers] at h ⊢
    rcases numberOf_cases w call with ⟨hnone, hseq⟩ | ⟨hone, hseq⟩
    · rw [hnone, List.nil_append] at h ⊢
      rw [hseq] at hrest
      exact hrest h
    · rw [hone, List.singleton_append, List.length_cons] at h ⊢
      have hnext : (w.schedule.seq + 1).toNat = w.schedule.seq.toNat + 1 := by
        rw [UInt64.toNat_add, UInt64.toNat_one, Nat.mod_eq_of_lt (by omega)]
      rw [hseq, hnext] at hrest
      rw [List.map_cons, List.range'_succ, hnext, hrest (by omega)]

theorem numbers_increasing {w : Watch} {calls : List Call}
    (h : w.schedule.seq.toNat + (numbers w calls).length < 2 ^ 64) :
    (numbers w calls).Pairwise (· < ·) := by
  have hsorted : ((numbers w calls).map UInt64.toNat).Pairwise (· < ·) := by
    rw [numbers_eq w calls h]
    exact List.pairwise_lt_range'
  exact (List.pairwise_map.mp hsorted).imp UInt64.lt_iff_toNat_lt.mpr

/-! ## Periodic emissions -/

def isTick : Call → Bool
  | .afterTick _ => true
  | _ => false

/-- The observations that a tick emits. -/
def tickEmissions (w : Watch) (call : Call) : ℕ :=
  if isTick call then emitted (call.emission w.schedule) else 0

/-- The units that a call adds to the phase. -/
def tickUnits (hz : ℕ) (call : Call) : ℕ := if isTick call then tickMs.toNat * hz else 0

def Uncritical (w : Watch) : Call → Prop
  | .afterTick game => ¬w.Critical game
  | _ => True

def phaseUnits (w : Watch) : ℕ := w.schedule.accumulatedFrequencyUnits.toNat

theorem step_metered {hz : ℕ} (hhz : hz ≤ 60) {w : Watch} {call : Call} (h : Kept hz w)
    (hu : Uncritical w call) :
    tickEmissions w call * 1000 + phaseUnits (w.step call) = phaseUnits w + tickUnits hz call := by
  cases call with
  | captureEvent event =>
    change 0 * 1000 + phaseUnits w = phaseUnits w + 0
    omega
  | immediate =>
    change 0 * 1000 + phaseUnits w = phaseUnits w + 0
    omega
  | afterTick game =>
    have hc : critical w.schedule game = false :=
      Bool.eq_false_iff.mpr fun hc => hu ((critical_iff h game).mp hc)
    have hspec := (afterTick_periodic h.phase (h.frequency ▸ hhz) hc).1
    rw [h.frequency] at hspec
    exact hspec

theorem sum_tickUnits (hz : ℕ) (calls : List Call) :
    (calls.map (tickUnits hz)).sum = calls.countP isTick * (tickMs.toNat * hz) := by
  induction calls with
  | nil => simp
  | cons call calls ih =>
    rw [List.map_cons, List.sum_cons, ih, List.countP_cons, Nat.add_mul, Nat.add_comm]
    congr 1
    unfold tickUnits
    split <;> simp

/-- The schedule is new or has just emitted at a critical tick. -/
def FreshPhase (game : GameState) (frequencyHz : UInt32) (calls : List Call) : Prop :=
  calls = [] ∨ ∃ before next, calls = before ++ [.afterTick next] ∧
    (run Watch.step (.new game frequencyHz) before).Critical next

theorem freshPhase_zero {game : GameState} {frequencyHz : UInt32} {calls : List Call}
    (h : FreshPhase game frequencyHz calls) :
    phaseUnits (run Watch.step (.new game frequencyHz) calls) = 0 := by
  rcases h with rfl | ⟨before, next, rfl, hcritical⟩
  · rfl
  · have hkept := kept_run game frequencyHz before
    rw [run_append]
    exact congrArg UInt32.toNat (afterTick_critical ((critical_iff hkept next).mpr hcritical)).2

/-- What holds after a run of calls on a new schedule. -/
structure Cadenced (game : GameState) (frequencyHz : UInt32) (calls : List Call) (w : Watch) :
    Prop where
  phase : w.schedule.accumulatedFrequencyUnits.toNat < 1000
  subtracts : ∀ next, afterTickChecked w.schedule next = .ok (w.schedule.afterTick next)
  critical_emits : ∀ next, w.Critical next → ∃ events,
    (w.schedule.afterTick next).2 = some (w.schedule.seq + 1, events) ∧
      events.toList = (w.captured.map TransitionEvent.ofCore).rtake 4
  increasing : (numbers (.new game frequencyHz) calls).length < 2 ^ 64 →
    (numbers (.new game frequencyHz) calls).Pairwise (· < ·)
  periodic : FreshPhase game frequencyHz calls → ∀ later, Along Watch.step Uncritical w later →
    total Watch.step tickEmissions w later =
      later.countP isTick * (tickMs.toNat * clampedHz frequencyHz) / 1000

/-- The observations keep their frequency without drift, and no critical tick waits. -/
theorem cadence_kept (game : GameState) (frequencyHz : UInt32) (calls : List Call) :
    Cadenced game frequencyHz calls (run Watch.step (.new game frequencyHz) calls) := by
  have hkept := kept_run game frequencyHz calls
  refine ⟨hkept.phase, fun next => afterTickChecked_eq _ next, fun next hcritical => ?_,
    fun hfew => ?_, fun hfresh later hlater => ?_⟩
  · exact ⟨_, (afterTick_critical ((critical_iff hkept next).mpr hcritical)).1, hkept.pending⟩
  · exact numbers_increasing ((Nat.zero_add _).trans_lt hfew)
  · have hle := clampedHz_le frequencyHz
    obtain ⟨halong, hend⟩ := Along.with_invariant (Kept (clampedHz frequencyHz))
      (fun _ call h _ => kept_step hle h call) hkept hlater
    have htotal := conserved phaseUnits (fun _ call => tickUnits (clampedHz frequencyHz) call)
      tickEmissions 1000 (fun _ _ h => step_metered hle h.1 h.2) halong
    rw [total_labels, sum_tickUnits, freshPhase_zero hfresh, Nat.zero_add] at htotal
    exact units_eq htotal hend.phase

end TuiTetris.AdapterCadence
