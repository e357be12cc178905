import Mathlib.Algebra.Order.BigOperators.Group.List
import Mathlib.Algebra.Order.Group.Nat
import Mathlib.Data.List.FinRange
import TuiTetris.CoreCellConservation
import TuiTetris.CoreGravity
import TuiTetris.CorePauses
import TuiTetris.LibMeter

set_option autoImplicit false

/-!
# Pieces that nobody touches

Every tick that does not lock brings the lock nearer by the time it takes: first
the pause after a clear runs out, then the piece falls, then the lock delay runs.
Pieces that nobody touches pile up in the middle columns, where no row fills.
-/
namespace TuiTetris.CoreLiveness
open CoreTypes CorePieces CoreBoard CoreBoardRows CoreGameState CoreGameStateLoops
open CoreGameStateEffects CoreGameStateInvariant CoreTimers CoreDescents CoreGravity
open CoreCellConservation CorePauses LibTransition LibMeter
open CorePieceAccounting (fresh_incoming)

/-! ## One piece -/

/-- A game in which ticks count. -/
structure Playing (s : GameState) : Prop where
  invariant : Invariant s
  timers : Timers s
  paused : s.paused = false
  gameOver : s.gameOver = false
  started : s.started = true

/-- Milliseconds that the lock of an untouched piece can still take. -/
def delay (s : GameState) : ℕ :=
  s.lineClearTimerMs.toNat +
    match s.active with
    | none => 0
    | some p =>
      if GameState.dropDistance s.board p = 0 then 450 - s.lockTimerMs.toNat
      else GameState.dropDistance s.board p * 1000 - s.dropTimerMs.toNat + 450

theorem delay_le {s : GameState} (h : Timers s) : delay s ≤ 20630 := by
  have hl := UInt32.le_iff_toNat_le.mp h.clocks.lineClear
  have h180 : lineClearPauseMs.toNat = 180 := rfl
  have h20 : boardHeight = 20 := rfl
  change s.lineClearTimerMs.toNat ≤ _ at hl
  unfold delay
  split
  · omega
  · next p hp =>
    have hd := (dropDistance_spec s.board p).1
    split <;> omega

theorem dropDistance_lowered (board : Board) (p : Tetromino) {m : ℕ}
    (hm : m ≤ GameState.dropDistance board p) :
    GameState.dropDistance board (lowered p m) = GameState.dropDistance board p - m := by
  obtain ⟨-, hroom, hstop⟩ := dropDistance_spec board p
  obtain ⟨-, hroom', hstop'⟩ := dropDistance_spec board (lowered p m)
  rcases Nat.lt_trichotomy (GameState.dropDistance board (lowered p m))
    (GameState.dropDistance board p - m) with h | h | h
  · rw [canDrop_lowered, hroom _ (by omega)] at hstop'
    cases hstop'
  · exact h
  · have hr := hroom' _ h
    rw [canDrop_lowered, Nat.add_sub_cancel' hm, hstop] at hr
    cases hr

theorem isGrounded_iff {s : GameState} {p : Tetromino} (hp : s.active = some p) :
    s.isGrounded = true ↔ GameState.dropDistance s.board p = 0 := by
  obtain ⟨-, hroom, hstop⟩ := dropDistance_spec s.board p
  have hg : s.isGrounded = !canDrop s.board p 0 := by
    unfold GameState.isGrounded Tetromino.isGrounded canDrop
    rw [hp]
    simp [List.all_eq_not_any_not]
  rw [hg, Bool.not_eq_true']
  constructor
  · intro h
    by_contra hne
    rw [hroom 0 (Nat.pos_of_ne_zero hne)] at h
    cases h
  · intro h
    rwa [h] at hstop

theorem gravityLoop_timer {interval : UInt32} (hi : 0 < interval.toNat) {fuel : ℕ} {s : GameState}
    (hf : s.dropTimerMs.toNat ≤ fuel) (changed : Bool) :
    (GameState.gravityLoop interval fuel s changed).1.dropTimerMs.toNat =
      s.dropTimerMs.toNat % interval.toNat := by
  induction fuel generalizing s changed with
  | zero =>
    have h0 : s.dropTimerMs.toNat = 0 := by omega
    change s.dropTimerMs.toNat = _
    rw [h0, Nat.zero_mod]
  | succ fuel ih =>
    unfold GameState.gravityLoop
    split
    · next h =>
      have hle : interval.toNat ≤ s.dropTimerMs.toNat := UInt32.le_iff_toNat_le.mp h
      have hsub : (s.dropTimerMs - interval).toNat = s.dropTimerMs.toNat - interval.toNat :=
        UInt32.toNat_sub_of_le _ _ h
      have htimer : ({ s with dropTimerMs := s.dropTimerMs - interval }.tryMove 0
          1).1.dropTimerMs.toNat = s.dropTimerMs.toNat - interval.toNat := by
        rw [tryMove_dropTimer]
        exact hsub
      have hrest := ih (s := ({ s with dropTimerMs := s.dropTimerMs - interval }.tryMove 0 1).1)
        (by omega) (changed || ({ s with dropTimerMs := s.dropTimerMs - interval }.tryMove 0 1).2)
      rw [htimer, ← Nat.mod_eq_sub_mod hle] at hrest
      exact hrest
    · next h =>
      have hlt : s.dropTimerMs.toNat < interval.toNat := UInt32.lt_iff_toNat_lt.mp (UInt32.not_le.mp h)
      exact (Nat.mod_eq_of_lt hlt).symm

/-- A grounded piece is not moved, so its lock delay runs on. -/
theorem gravityLoop_grounded {interval : UInt32} {fuel : ℕ} {s : GameState} {p : Tetromino}
    (hp : s.active = some p) (hstop : canDrop s.board p 0 = false) (changed : Bool) :
    (GameState.gravityLoop interval fuel s changed).1.lockTimerMs = s.lockTimerMs := by
  induction fuel generalizing s changed with
  | zero => rfl
  | succ fuel ih =>
    unfold GameState.gravityLoop
    split
    · have hb : { s with dropTimerMs := s.dropTimerMs - interval }.tryMove 0 1 =
          ({ s with dropTimerMs := s.dropTimerMs - interval }, false) := tryMove_blocked hp hstop
      rw [hb]
      exact ih (s := { s with dropTimerMs := s.dropTimerMs - interval }) hp hstop (changed || false)
    · rfl

/-- What a tick has done to the timers when it comes to the lock delay. -/
structure Fallen (s u : GameState) (p : Tetromino) (timer interval : ℕ) : Prop where
  board : u.board = s.board
  active : u.active = some (lowered p (min (timer / interval) (GameState.dropDistance s.board p)))
  dropTimer : u.dropTimerMs.toNat = timer % interval
  lineClear : u.lineClearTimerMs = 0
  lockTimer : GameState.dropDistance s.board p = 0 → u.lockTimerMs = s.lockTimerMs

theorem tickSoftDrop_lock (s : GameState) (elapsedMs : UInt32) (softDrop : Bool) :
    (s.tickSoftDrop elapsedMs softDrop).lockTimerMs = s.lockTimerMs ∧
      (s.tickSoftDrop elapsedMs softDrop).lineClearTimerMs = s.lineClearTimerMs := by
  unfold GameState.tickSoftDrop
  cases softDrop with
  | false =>
    simp only [Bool.false_eq_true, if_false]
    split <;> exact ⟨rfl, rfl⟩
  | true =>
    simp only [if_true]
    split <;> exact ⟨rfl, rfl⟩

/-- The state of a tick before its soft drop and gravity. -/
def waitedState (s : GameState) (elapsedMs : UInt32) : GameState :=
  (s.tickCounters elapsedMs).tickLineClear elapsedMs

theorem fallenState_some {s u : GameState} {elapsedMs : UInt32} {softDrop : Bool}
    (h : fallenState s elapsedMs softDrop = some u) :
    (waitedState s elapsedMs).lineClearTimerMs = 0 ∧
      u = (((waitedState s elapsedMs).tickSoftDrop elapsedMs softDrop).tickGravity elapsedMs).1 := by
  unfold fallenState at h
  split at h
  · cases h
  · simp only at h
    split at h
    · cases h
    · next hwait =>
      cases h
      refine ⟨?_, rfl⟩
      by_contra hne
      have hpos := (pos_iff_ne_zero _).mpr hne
      exact hwait (by rw [Bool.or_eq_true]; exact .inl (decide_eq_true hpos))

theorem fallen_spec {s u : GameState} {p : Tetromino} {elapsedMs : UInt32} {softDrop : Bool}
    (hp : s.active = some p) (h : fallenState s elapsedMs softDrop = some u) :
    Fallen s u p (satAdd s.dropTimerMs elapsedMs).toNat
      (gravityInterval s elapsedMs softDrop).toNat := by
  have hactive := fallenState_lowered hp h
  obtain ⟨hglide, -, -⟩ := glides_fallenState h
  obtain ⟨hzero, hu⟩ := fallenState_some h
  obtain ⟨hb, ha, ht⟩ := tickSoftDrop_kept (waitedState s elapsedMs) elapsedMs softDrop
  obtain ⟨hlock, hclear⟩ := tickSoftDrop_lock (waitedState s elapsedMs) elapsedMs softDrop
  have hinterval : gravityInterval s elapsedMs softDrop =
      ((waitedState s elapsedMs).tickSoftDrop elapsedMs softDrop).dropIntervalMs := rfl
  rw [hinterval] at hactive ⊢
  have hdrop : (waitedState s elapsedMs).dropTimerMs = s.dropTimerMs := rfl
  have hlock' : (waitedState s elapsedMs).lockTimerMs = s.lockTimerMs := rfl
  have hboard : (waitedState s elapsedMs).board = s.board := rfl
  have hact : (waitedState s elapsedMs).active = s.active := rfl
  generalize (waitedState s elapsedMs).tickSoftDrop elapsedMs softDrop = v at *
  rw [hdrop] at ht
  rw [hlock'] at hlock
  rw [hboard] at hb
  rw [hact] at ha
  have hfuel : ({ v with dropTimerMs := satAdd v.dropTimerMs elapsedMs } : GameState).dropTimerMs.toNat ≤
      (satAdd v.dropTimerMs elapsedMs).toNat := Nat.le_refl _
  refine ⟨hglide.board, hactive, ?_, ?_, fun h0 => ?_⟩
  · rw [hu]
    exact (gravityLoop_timer (dropIntervalMs_pos v) hfuel false).trans (by rw [ht])
  · obtain ⟨timer, hclocks⟩ := gravityLoop_clocks v.dropIntervalMs
      (satAdd v.dropTimerMs elapsedMs).toNat { v with dropTimerMs := satAdd v.dropTimerMs elapsedMs }
      false
    have hline := congrArg Clocks.lineClearTimerMs hclocks
    rw [hu]
    exact hline.trans (hclear.trans hzero)
  · have hstop := (dropDistance_spec s.board p).2.2
    rw [h0, ← hb] at hstop
    rw [hu]
    exact (gravityLoop_grounded (s := { v with dropTimerMs := satAdd v.dropTimerMs elapsedMs })
      (ha.trans hp) hstop false).trans hlock

/-- A tick that does not come to the lock delay waits for the end of the clear pause. -/
theorem delay_waits {s : GameState} (h : Playing s) {elapsedMs : UInt32} {softDrop : Bool}
    (hf : fallenState s elapsedMs softDrop = none) :
    (s.tick elapsedMs softDrop).1 = waitedState s elapsedMs ∧
      delay (waitedState s elapsedMs) + elapsedMs.toNat ≤ delay s := by
  obtain ⟨p, hp⟩ := Option.isSome_iff_exists.mp (h.invariant.playing h.gameOver)
  have hplay : (s.paused || s.gameOver || !s.started) = false := by
    simp [h.paused, h.gameOver, h.started]
  have hact : (waitedState s elapsedMs).active = some p := hp
  have hpos : 0 < (waitedState s elapsedMs).lineClearTimerMs := by
    by_contra hle
    unfold fallenState at hf
    rw [hplay] at hf
    have hwait : (decide ((waitedState s elapsedMs).lineClearTimerMs > 0) ||
        (waitedState s elapsedMs).active.isNone) = false := by simp [hle, hact]
    unfold waitedState at hwait
    simp only [Bool.false_eq_true, if_false, hwait] at hf
    cases hf
  constructor
  · unfold GameState.tick
    rw [hplay]
    have hwait : (decide ((waitedState s elapsedMs).lineClearTimerMs > 0) ||
        (waitedState s elapsedMs).active.isNone) = true := by simp [hpos]
    unfold waitedState at hwait ⊢
    simp only [Bool.false_eq_true, if_false, hwait, if_true]
  · have hsub : (waitedState s elapsedMs).lineClearTimerMs = satSub s.lineClearTimerMs elapsedMs := rfl
    rw [hsub, UInt32.lt_iff_toNat_lt] at hpos
    have htimer : (satSub s.lineClearTimerMs elapsedMs).toNat + elapsedMs.toNat =
        s.lineClearTimerMs.toNat := by
      unfold satSub at hpos ⊢
      split at hpos
      · next hle =>
        have hle' := UInt32.le_iff_toNat_le.mp hle
        rw [if_pos hle, UInt32.toNat_sub_of_le _ _ hle]
        omega
      · cases hpos
    have hboard : (waitedState s elapsedMs).board = s.board := rfl
    have hdrop : (waitedState s elapsedMs).dropTimerMs = s.dropTimerMs := rfl
    have hlock : (waitedState s elapsedMs).lockTimerMs = s.lockTimerMs := rfl
    unfold delay
    rw [hsub, hact, hp, hboard, hdrop, hlock]
    omega

/-- The rows still to fall are worth a second each, which is the longest interval. -/
theorem falling_pays {drop elapsed timer interval rows : ℕ} (hi : interval ≤ 1000)
    (h0 : 0 < interval) (ht : timer = min (drop + elapsed) 4294967295) (hr : rows ≤ 20)
    (hq : timer / interval < rows) :
    (rows - timer / interval) * 1000 - timer % interval + elapsed ≤ rows * 1000 - drop := by
  have hdiv := Nat.div_add_mod timer interval
  have hmod := Nat.mod_lt timer h0
  have hrows : interval * (timer / interval) ≤ 1000 * (timer / interval) := Nat.mul_le_mul_right _ hi
  generalize timer / interval = q at *
  generalize timer % interval = m at *
  generalize interval * q = falls at *
  omega

theorem delay_falls {s u : GameState} {p : Tetromino} {elapsedMs : UInt32} {softDrop : Bool}
    (h : Playing s) (hp : s.active = some p) (hf : fallenState s elapsedMs softDrop = some u)
    (hl : (Op.tick elapsedMs softDrop).lockingState s = none) :
    delay (s.tick elapsedMs softDrop).1 + elapsedMs.toNat ≤ delay s := by
  have hfall := fallen_spec hp hf
  have hsat := satAdd_toNat s.dropTimerMs elapsedMs
  have hlt := UInt32.lt_iff_toNat_lt.mp h.timers.clocks.drop
  have hle := UInt32.le_iff_toNat_le.mp (dropIntervalMs_le
    ((waitedState s elapsedMs).tickSoftDrop elapsedMs softDrop))
  have h1000 : (1000 : UInt32).toNat = 1000 := rfl
  have hinterval : gravityInterval s elapsedMs softDrop =
      ((waitedState s elapsedMs).tickSoftDrop elapsedMs softDrop).dropIntervalMs := rfl
  have hpos := gravityInterval_pos s elapsedMs softDrop
  rw [h1000, ← hinterval] at hle
  rw [h1000] at hlt
  change s.dropTimerMs.toNat < 1000 at hlt
  have h20 : boardHeight = 20 := rfl
  have hrows := (dropDistance_spec s.board p).1
  generalize (gravityInterval s elapsedMs softDrop).toNat = interval at hfall hle hpos
  generalize (satAdd s.dropTimerMs elapsedMs).toNat = timer at hfall hsat
  have hdistance : GameState.dropDistance u.board
      (lowered p (min (timer / interval) (GameState.dropDistance s.board p))) =
      GameState.dropDistance s.board p - min (timer / interval) (GameState.dropDistance s.board p) := by
    rw [hfall.board]
    exact dropDistance_lowered _ _ (Nat.min_le_right _ _)
  have hground := isGrounded_iff hfall.active
  rw [hdistance] at hground
  have ht := tick_fallenState s elapsedMs softDrop
  rw [hf] at ht
  obtain ⟨changed, ht⟩ := ht
  simp only [Op.lockingState, hf, Option.bind_some] at hl
  rw [ht]
  unfold GameState.tickLockDelay
  have h0 : (0 : UInt32).toNat = 0 := rfl
  cases hg : u.isGrounded with
  | false =>
    have hne : GameState.dropDistance s.board p -
        min (timer / interval) (GameState.dropDistance s.board p) ≠ 0 := fun hz =>
      absurd (hground.mpr hz) (by rw [hg]; decide)
    have hrows : GameState.dropDistance s.board p ≤ 20 := by omega
    have hpay := falling_pays hle hpos hsat hrows (by omega)
    have hmin : min (timer / interval) (GameState.dropDistance s.board p) = timer / interval := by omega
    rw [hmin] at hne hdistance
    have hdrop := hfall.dropTimer
    simp only [Bool.false_eq_true, if_false]
    unfold delay
    simp only [hfall.active, hfall.lineClear, h0, hmin, hdistance, if_neg hne, hp, hdrop]
    have hroom : ¬GameState.dropDistance s.board p = 0 := fun hz => hne (by rw [hz, Nat.zero_sub])
    rw [if_neg hroom]
    omega
  | true =>
    have hz := hground.mp hg
    have hd : ¬satAdd u.lockTimerMs elapsedMs ≥ lockDelayMs := fun hd => by simp [hg, hd] at hl
    have hd' := UInt32.lt_iff_toNat_lt.mp (UInt32.not_le.mp hd)
    have h450 : lockDelayMs.toNat = 450 := rfl
    rw [satAdd_toNat, h450] at hd'
    have hkept := hfall.lockTimer
    simp only [if_true, if_neg hd]
    unfold delay
    simp only [hfall.active, hfall.lineClear, h0, hdistance, hz, hp, if_true, satAdd_toNat]
    by_cases hrow : GameState.dropDistance s.board p = 0
    · rw [if_pos hrow, ← hkept hrow]
      omega
    · rw [if_neg hrow]
      omega

theorem moved_paused {s u : GameState} (h : Moved s u) : u.paused = s.paused := by
  obtain ⟨a, t, c, r, rfl⟩ := h
  rfl

theorem gravityLoop_paused (interval : UInt32) (fuel : ℕ) (s : GameState) (changed : Bool) :
    (GameState.gravityLoop interval fuel s changed).1.paused = s.paused := by
  induction fuel generalizing s changed with
  | zero => rfl
  | succ fuel ih =>
    unfold GameState.gravityLoop
    split
    · have hm := moved_paused (moved_tryMove { s with dropTimerMs := s.dropTimerMs - interval } 0 1)
      exact (ih _ _).trans hm
    · rfl

theorem fallenState_paused {s u : GameState} {elapsedMs : UInt32} {softDrop : Bool}
    (h : fallenState s elapsedMs softDrop = some u) : u.paused = s.paused := by
  have hsoft : ((waitedState s elapsedMs).tickSoftDrop elapsedMs softDrop).paused = s.paused := by
    unfold GameState.tickSoftDrop
    cases softDrop <;> simp only [Bool.false_eq_true, if_false, if_true] <;> split <;> rfl
  rw [(fallenState_some h).2]
  exact (gravityLoop_paused _ _ _ _).trans hsoft

theorem spawnPiece_paused (s : GameState) : s.spawnPiece.1.paused = s.paused := by
  cases h : (incoming s).isValid s.board with
  | true =>
    rw [spawnPiece_open s h]
    rfl
  | false => rw [spawnPiece_blocked s h]

theorem lockPiece_paused {s : GameState} {p : Tetromino} (hp : s.active = some p)
    (hg : s.gameOver = false) : s.lockPiece.paused = s.paused := by
  have hsettle : (s.settleLock p).paused = s.paused := by
    unfold GameState.settleLock GameState.recordLock GameState.applyLineClear
    simp only
    split <;> rfl
  rw [lockPiece_eq s p hp hg, spawnPiece_paused, hsettle]

/-- No tick pauses the game or ends a pause. -/
theorem tick_paused (s : GameState) (elapsedMs : UInt32) (softDrop : Bool) :
    (s.tick elapsedMs softDrop).1.paused = s.paused := by
  have ht := tick_fallenState s elapsedMs softDrop
  cases hf : fallenState s elapsedMs softDrop with
  | none =>
    unfold fallenState at hf
    unfold GameState.tick
    split
    · rfl
    · next hplay =>
      simp only [if_neg hplay] at hf
      split at hf
      · next hwait =>
        simp only [if_pos hwait]
        rfl
      · cases hf
  | some u =>
    rw [hf] at ht
    obtain ⟨changed, ht⟩ := ht
    obtain ⟨hglide, hg, ha⟩ := glides_fallenState hf
    obtain ⟨p, hp⟩ := Option.isSome_iff_exists.mp ha
    have hover : u.gameOver = false := hglide.gameOver.trans hg
    rw [ht, ← fallenState_paused hf]
    unfold GameState.tickLockDelay
    split
    · simp only
      split
      · exact lockPiece_paused (s := { u with lockTimerMs := 0, dropTimerMs := 0 }) hp hover
      · rfl
    · rfl

/-- A tick that does not lock pays for the time it takes. -/
theorem delay_tick {s : GameState} (h : Playing s) {elapsedMs : UInt32} {softDrop : Bool}
    (hl : (Op.tick elapsedMs softDrop).lockingState s = none) :
    Playing (s.tick elapsedMs softDrop).1 ∧ Glides s (s.tick elapsedMs softDrop).1 ∧
      delay (s.tick elapsedMs softDrop).1 + elapsedMs.toNat ≤ delay s := by
  have he := effect s (.tick elapsedMs softDrop)
  have hi : Invariant (s.tick elapsedMs softDrop).1 := invariant_effect h.invariant he
  have ht : Timers (s.tick elapsedMs softDrop).1 := timers_tick h.timers elapsedMs softDrop
  have hm : (Op.tick elapsedMs softDrop).marks s = [] := by simp [Op.marks, Op.restarts, hl]
  have hglide : Glides s (s.tick elapsedMs softDrop).1 := by
    rw [hm] at he
    change Effect s _ [] (s.tick elapsedMs softDrop).1 at he
    generalize (s.tick elapsedMs softDrop).1 = u at he ⊢
    cases he with
    | glide h => exact h
    | taken ho => cases ho
    | held p ho => cases ho
  refine ⟨⟨hi, ht, (tick_paused s elapsedMs softDrop).trans h.paused, hglide.gameOver.trans h.gameOver,
    hglide.started.trans h.started⟩, hglide, ?_⟩
  obtain ⟨p, hp⟩ := Option.isSome_iff_exists.mp (h.invariant.playing h.gameOver)
  cases hf : fallenState s elapsedMs softDrop with
  | none =>
    obtain ⟨hu, hd⟩ := delay_waits h hf
    rw [hu]
    exact hd
  | some u => exact delay_falls h hp hf hl

/-! ## Ticks alone -/

/-- Ticks of the given lengths, with or without a soft drop. -/
def ticks (ts : List (UInt32 × Bool)) : List Op := ts.map fun t => .tick t.1 t.2

def elapsed (ts : List (UInt32 × Bool)) : ℕ := (ts.map fun t => t.1.toNat).sum

def tickCost : Op → ℕ
  | .tick elapsedMs _ => elapsedMs.toNat
  | _ => 0

theorem ticks_cost (ts : List (UInt32 × Bool)) : ((ticks ts).map tickCost).sum = elapsed ts := by
  unfold ticks elapsed
  rw [List.map_map]
  rfl

theorem mem_ticks {ts : List (UInt32 × Bool)} {op : Op} (h : op ∈ ticks ts) :
    ∃ elapsedMs softDrop, (elapsedMs, softDrop) ∈ ts ∧ op = .tick elapsedMs softDrop := by
  obtain ⟨⟨elapsedMs, softDrop⟩, ht, rfl⟩ := List.mem_map.mp h
  exact ⟨elapsedMs, softDrop, ht, rfl⟩

theorem started_apply {s : GameState} (h : s.started = true) (op : Op) :
    (op.apply s).started = true := by
  have he := effect s op
  generalize op.marks s = marks at he
  generalize op.apply s = u at he ⊢
  cases he with
  | glide hg => exact hg.started.trans h
  | taken => exact h
  | held p ho ha hp hc =>
    cases hh : s.hold with
    | none =>
      rw [applyHold_empty s p hp hc hh]
      exact (spawns_spawnPiece { s with hold := some p.kind }).started.trans h
    | some k =>
      rw [applyHold_swap s p k hp hc hh]
      split <;> exact h
  | @locked v p e score hg hp hover =>
    change v.lockPiece.started = true
    rw [lockPiece_eq v p hp (hg.gameOver.trans hover), (spawns_spawnPiece _).started,
      (settles_settleLock v p).started]
    exact hg.started.trans h
  | restarted seed hr =>
    rw [restartWithSeed_eq, (spawns_spawnPiece _).started]
    rfl

theorem started_start (seed : UInt32) : (GameState.new seed).start.started = true := by
  rw [start_new, (spawns_spawnPiece _).started]
  rfl

theorem playing_run (seed : UInt32) (ops : List Op)
    (hp : (run Op.apply (GameState.new seed).start ops).paused = false)
    (hg : (run Op.apply (GameState.new seed).start ops).gameOver = false) :
    Playing (run Op.apply (GameState.new seed).start ops) :=
  ⟨invariant_run (invariant_start seed) ops, timers_run (timers_start seed) ops, hp, hg,
    run_invariant (I := fun s : GameState => s.started = true) (fun _ op h => started_apply h op)
      (started_start seed) ops⟩

theorem tick_locks {s v : GameState} {elapsedMs : UInt32} {softDrop : Bool}
    (h : (Op.tick elapsedMs softDrop).lockingState s = some v) :
    ∃ kind event, Mark.lock kind event ∈ (Op.tick elapsedMs softDrop).marks s := by
  obtain ⟨p, score, hglide, hp, hg, -⟩ := lockingState_spec h
  obtain ⟨e, -, hm⟩ := lockMark_active hp (hglide.gameOver.trans hg)
  refine ⟨p.kind, e, ?_⟩
  rw [marks_locking h, hm]
  exact List.mem_singleton.mpr rfl

/-- In every reachable state in play, ticks alone lock the active piece before they have taken
20.63 seconds, however they are cut and whether or not they soft drop. -/
theorem untouched_locks (seed : UInt32) (ops : List Op) (ts : List (UInt32 × Bool))
    (hp : (run Op.apply (GameState.new seed).start ops).paused = false)
    (hg : (run Op.apply (GameState.new seed).start ops).gameOver = false)
    (ht : 20630 < elapsed ts) :
    ∃ kind event, Mark.lock kind event ∈ trace Op.apply (fun s op => op.marks s)
      (run Op.apply (GameState.new seed).start ops) (ticks ts) := by
  have hplay := playing_run seed ops hp hg
  generalize run Op.apply (GameState.new seed).start ops = s at hplay
  have hdelay := delay_le hplay.timers
  have hcost := ticks_cost ts
  obtain ⟨k, op, hop, -, kind, event, hmark⟩ := reached_of_cost Op.apply
    (fun _ op => op ∈ ticks ts) Playing
    (fun s op => ∃ kind event, Mark.lock kind event ∈ op.marks s) delay tickCost
    (fun s op hs hop hq => by
      obtain ⟨elapsedMs, softDrop, -, rfl⟩ := mem_ticks hop
      have hl : (Op.tick elapsedMs softDrop).lockingState s = none :=
        Option.eq_none_iff_forall_not_mem.mpr fun v hv => hq (tick_locks hv)
      obtain ⟨hnext, -, hpay⟩ := delay_tick hs hl
      exact ⟨hnext, hpay⟩)
    (ticks ts) hplay (fun _ _ h => h) (by omega)
  exact ⟨kind, event, mem_trace.mpr ⟨k, op, hop, hmark⟩⟩

theorem untouched_locks_first : ∃ kind event, Mark.lock kind event ∈
    trace Op.apply (fun s op => op.marks s) (run Op.apply (GameState.new 1).start [])
      (ticks [(20000, false), (631, true)]) :=
  untouched_locks 1 [] [(20000, false), (631, true)] (by decide +kernel) (by decide +kernel)
    (by decide)

/-! ## A game that nobody plays -/

/-- All the cells of the board lie in the four columns in which pieces appear. -/
def MiddleOnly (b : Board) : Prop := ∀ r c, (b.cell r c).isSome = true → 3 ≤ c.val ∧ c.val ≤ 6

theorem middle_row {b : Board} (h : MiddleOnly b) (r : Fin 20) : (row b r).countP Option.isSome ≤ 4 := by
  have hlist : row b r = (List.finRange 10).map (b.cell r) := List.ofFn_eq_map
  have hfour : (List.finRange 10).countP (fun c => decide (3 ≤ c.val ∧ c.val ≤ 6)) = 4 := by decide
  rw [hlist, List.countP_map, ← hfour]
  apply List.countP_mono_left
  intro c _ hc
  exact decide_eq_true (h r c hc)

theorem middle_filled {b : Board} (h : MiddleOnly b) : filledCells b ≤ 80 := by
  have hsum := List.sum_le_card_nsmul ((rows b).map (List.countP Option.isSome)) 4 fun n hn => by
    obtain ⟨cells, hcells, rfl⟩ := List.mem_map.mp hn
    obtain ⟨r, rfl⟩ := List.mem_ofFn.mp hcells
    exact middle_row h r
  rw [filledCells_rows]
  rw [List.length_map, rows_length] at hsum
  exact hsum

/-- A column stays empty, so no row fills and nothing is cleared. -/
theorem middle_clear {b : Board} (h : MiddleOnly b) : b.clearFullRows = (b, []) := by
  have hopen : ∀ y : Fin 20, b.isRowFull y.val = false := by
    intro y
    apply Bool.eq_false_iff.mpr
    rw [ne_eq, isRowFull_iff]
    intro hfull
    have h0 := (h y 0 (hfull 0)).1
    exact absurd h0 (by decide)
  have hnone : b.fullRows = [] := by
    apply List.filter_eq_nil_iff.mpr
    intro y hy
    rw [hopen ⟨y, List.mem_range.mp hy⟩]
    decide
  unfold Board.clearFullRows
  rw [hnone]
  rfl

/-- The piece is as it was spawned but for its row. -/
def Upright (p : Tetromino) : Prop := p.x = 3 ∧ p.rotation = .North

theorem upright_columns {p : Tetromino} (h : Upright p) {m : MinoOffset} (hm : m ∈ p.shape) :
    3 ≤ (p.x + m.1).toInt ∧ (p.x + m.1).toInt ≤ 6 := by
  have hall : ∀ k : PieceKind, (getShape k .North).all (fun m =>
      decide (3 ≤ ((3 : Int8) + m.1).toInt ∧ ((3 : Int8) + m.1).toInt ≤ 6)) = true := by
    intro k
    cases k <;> decide
  have hshape : m ∈ getShape p.kind .North := by
    have hm' : m ∈ getShape p.kind p.rotation := hm
    rwa [h.2] at hm'
  rw [h.1]
  exact of_decide_eq_true (List.all_eq_true.mp (hall p.kind) m hshape)

theorem middle_lock {b : Board} (h : MiddleOnly b) {p : Tetromino} (hu : Upright p)
    (hv : p.isValid b = true) : MiddleOnly (b.lockPiece p.shape p.x p.y p.kind).1 := by
  intro r c hc
  obtain ⟨-, hcells⟩ := lockPiece_fits b p.shape p.x p.y p.kind hv
  by_cases hcover : covers p.shape p.x p.y r c
  · obtain ⟨m, hm, hx, -⟩ := hcover
    obtain ⟨h3, h6⟩ := upright_columns hu hm
    omega
  · rw [(hcells r c).2 hcover] at hc
    exact h r c hc

structure Idle (s : GameState) : Prop where
  playing : Playing s
  upright : ∀ p ∈ s.active, Upright p
  middle : MiddleOnly s.board
  cells : filledCells s.board = 4 * s.boardId.toNat

theorem Idle.locks_le {s : GameState} (h : Idle s) : s.boardId.toNat ≤ 20 := by
  have hle := middle_filled h.middle
  have hcells := h.cells
  omega

/-- The milliseconds that a game of at most twenty locks can still take. -/
def idleDelay (longest : ℕ) (s : GameState) : ℕ :=
  (20 - s.boardId.toNat) * (20630 + longest) + delay s

/-- A tick lowers the piece until it locks. -/
theorem tick_active {s : GameState} {p : Tetromino} (hp : s.active = some p) {elapsedMs : UInt32}
    {softDrop : Bool} (hl : (Op.tick elapsedMs softDrop).lockingState s = none) :
    ∃ m, (s.tick elapsedMs softDrop).1.active = some (lowered p m) := by
  have ht := tick_fallenState s elapsedMs softDrop
  cases hf : fallenState s elapsedMs softDrop with
  | none =>
    refine ⟨0, ?_⟩
    rw [lowered_zero]
    unfold fallenState at hf
    unfold GameState.tick
    split
    · exact hp
    · next hplay =>
      simp only [if_neg hplay] at hf
      split at hf
      · next hwait =>
        simp only [if_pos hwait]
        exact hp
      · cases hf
  | some u =>
    rw [hf] at ht
    obtain ⟨changed, ht⟩ := ht
    simp only [Op.lockingState, hf, Option.bind_some] at hl
    rw [ht]
    refine ⟨_, Eq.trans ?_ (fallen_spec hp hf).active⟩
    unfold GameState.tickLockDelay
    cases hg : u.isGrounded with
    | false => rfl
    | true =>
      have hd : ¬satAdd u.lockTimerMs elapsedMs ≥ lockDelayMs := fun hd => by simp [hg, hd] at hl
      simp only [if_true, if_neg hd]

theorem upright_lowered {p : Tetromino} (h : Upright p) (m : ℕ) : Upright (lowered p m) := h

theorem lockingState_lowered {s v : GameState} {p : Tetromino} (hp : s.active = some p)
    {elapsedMs : UInt32} {softDrop : Bool}
    (h : (Op.tick elapsedMs softDrop).lockingState s = some v) :
    ∃ m, v.active = some (lowered p m) := by
  obtain ⟨u, hu, hv⟩ := Option.bind_eq_some_iff.mp h
  split at hv
  · refine ⟨_, Eq.trans ?_ (fallen_spec hp hu).active⟩
    rw [← Option.some.inj hv]
  · cases hv

theorem idle_glides {s u : GameState} (h : Idle s) (hp : Playing u) (hg : Glides s u)
    (hu : ∀ p ∈ u.active, Upright p) : Idle u := by
  refine ⟨hp, hu, ?_, ?_⟩
  · rw [hg.board]
    exact h.middle
  · rw [hg.board, hg.boardId]
    exact h.cells

theorem spawnPiece_upright {s : GameState} (h : s.active = none) :
    ∀ p ∈ s.spawnPiece.1.active, Upright p := by
  intro p hp
  cases hi : (incoming s).isValid s.board with
  | true =>
    rw [spawnPiece_open s hi] at hp
    cases hp
    exact ⟨rfl, rfl⟩
  | false =>
    rw [spawnPiece_blocked s hi] at hp
    cases h.symm.trans hp

/-- The lock of an upright piece clears nothing. -/
theorem idle_lock {s v : GameState} {p : Tetromino} (h : Idle s) (hg : Glides s v)
    (hp : v.active = some p) (hu : Upright p) :
    MiddleOnly v.lockPiece.board ∧ filledCells v.lockPiece.board = filledCells s.board + 4 ∧
      v.lockPiece.boardId.toNat = s.boardId.toNat + 1 ∧ ∀ q ∈ v.lockPiece.active, Upright q := by
  have hv := (invariant_glides h.playing.invariant hg).valid p hp
  have hover := hg.gameOver.trans h.playing.gameOver
  have hlocks := locksCells_lockPiece hp hover hv
  have hle := h.locks_le
  have hmiddle : MiddleOnly (v.board.lockPiece p.shape p.x p.y p.kind).1 := by
    rw [hg.board] at hv ⊢
    exact middle_lock h.middle hu hv
  have hboard : v.lockPiece.board = (v.board.lockPiece p.shape p.x p.y p.kind).1 := by
    rw [hlocks.board, middle_clear hmiddle]
  refine ⟨?_, ?_, ?_, ?_⟩
  · rw [hboard]
    exact hmiddle
  · rw [hboard, hlocks.four, hg.board]
  · have h1 : (1 : UInt32).toNat = 1 := rfl
    rw [hlocks.boardId, hg.boardId, UInt32.toNat_add, h1]
    omega
  · rw [lockPiece_eq v p hp hover]
    exact spawnPiece_upright (settles_settleLock v p).active

/-- A tick that does not end an idle game pays for its time, or with one of the twenty locks. -/
theorem idle_tick {s : GameState} (h : Idle s) {longest : ℕ} {elapsedMs : UInt32} {softDrop : Bool}
    (he : elapsedMs.toNat ≤ longest)
    (hg : (s.tick elapsedMs softDrop).1.gameOver = false) :
    Idle (s.tick elapsedMs softDrop).1 ∧
      idleDelay longest (s.tick elapsedMs softDrop).1 + elapsedMs.toNat ≤ idleDelay longest s := by
  obtain ⟨p, hp⟩ := Option.isSome_iff_exists.mp (h.playing.invariant.playing h.playing.gameOver)
  cases hl : (Op.tick elapsedMs softDrop).lockingState s with
  | none =>
    obtain ⟨hplay, hglide, hpay⟩ := delay_tick h.playing hl
    obtain ⟨m, hm⟩ := tick_active hp hl
    have hu : ∀ q ∈ (s.tick elapsedMs softDrop).1.active, Upright q := by
      rw [hm]
      intro q hq
      cases hq
      exact upright_lowered (h.upright p hp) m
    refine ⟨idle_glides h hplay hglide hu, ?_⟩
    unfold idleDelay
    rw [hglide.boardId]
    omega
  | some v =>
    obtain ⟨q, score, hglide, hq, hover, happly⟩ := lockingState_spec hl
    have happly' : (s.tick elapsedMs softDrop).1 = { v.lockPiece with score := score } := happly
    have hinv := invariant_effect h.playing.invariant (effect s (.tick elapsedMs softDrop))
    have htimers := timers_tick h.playing.timers elapsedMs softDrop
    have hpaused := (tick_paused s elapsedMs softDrop).trans h.playing.paused
    have hstarted := started_apply h.playing.started (.tick elapsedMs softDrop)
    obtain ⟨m, hm⟩ := lockingState_lowered hp hl
    have hu : Upright q := by
      have hq' := Option.some.inj (hq.symm.trans hm)
      rw [hq']
      exact upright_lowered (h.upright p hp) m
    obtain ⟨hmiddle, hfilled, hid, hupright⟩ := idle_lock h hglide hq hu
    have hidle : Idle (s.tick elapsedMs softDrop).1 := by
      refine ⟨⟨hinv, htimers, hpaused, hg, hstarted⟩, ?_, ?_, ?_⟩
      · rw [happly']
        exact hupright
      · rw [happly']
        exact hmiddle
      · rw [happly']
        change filledCells v.lockPiece.board = 4 * v.lockPiece.boardId.toNat
        rw [hfilled, hid, h.cells]
        omega
    have hboard : (s.tick elapsedMs softDrop).1.boardId.toNat = s.boardId.toNat + 1 := by
      rw [happly']
      exact hid
    have hdelay := delay_le htimers
    have hlocks := hidle.locks_le
    refine ⟨hidle, ?_⟩
    have hsteps : (20 - s.boardId.toNat) * (20630 + longest) =
        (20 - (s.boardId.toNat + 1)) * (20630 + longest) + (20630 + longest) := by
      rw [← Nat.succ_mul]
      congr 1
      omega
    unfold idleDelay
    rw [hboard, hsteps]
    omega

theorem idle_start (seed : UInt32) : Idle (GameState.new seed).start := by
  have hopen := spawnPiece_open (freshState seed 0) (fresh_incoming seed 0)
  have hspawns := spawns_spawnPiece (freshState seed 0)
  have hinv := invariant_start seed
  have htimers := timers_start seed
  have hstarted := started_start seed
  have hpaused := spawnPiece_paused (freshState seed 0)
  have hupright := spawnPiece_upright (s := freshState seed 0) rfl
  rw [start_new] at *
  have hover : (freshState seed 0).spawnPiece.1.gameOver = false := by
    rw [hopen]
    rfl
  refine ⟨⟨hinv, htimers, hpaused, hover, hstarted⟩, hupright, ?_, ?_⟩
  · rw [hspawns.board]
    intro r c hc
    change (Board.new.cell r c).isSome = true at hc
    rw [new_cell] at hc
    cases hc
  · rw [hspawns.board, hspawns.boardId]
    exact new_filled

/-- A game left alone comes to its end: each of at most twenty locks takes 20.63 seconds and what
its tick takes longer, and so does the last piece. -/
theorem idle_game_over (seed : UInt32) (ts : List (UInt32 × Bool)) (longest : ℕ)
    (hlongest : ∀ t ∈ ts, t.1.toNat ≤ longest)
    (ht : 20 * (20630 + longest) + 20630 < elapsed ts) :
    (run Op.apply (GameState.new seed).start (ticks ts)).gameOver = true := by
  have hidle := idle_start seed
  generalize (GameState.new seed).start = s at hidle
  have hdelay := delay_le hidle.playing.timers
  have hcost := ticks_cost ts
  have hrank : idleDelay longest s < ((ticks ts).map tickCost).sum := by
    have hle : (20 - s.boardId.toNat) * (20630 + longest) ≤ 20 * (20630 + longest) :=
      Nat.mul_le_mul_right _ (Nat.sub_le _ _)
    unfold idleDelay
    omega
  obtain ⟨k, op, hop, -, hover⟩ := reached_of_cost Op.apply
    (fun _ op => ∃ e d, (op : Op) = .tick e d ∧ e.toNat ≤ longest) Idle
    (fun s op => (op.apply s).gameOver = true) (idleDelay longest) tickCost
    (fun s op hs hop hq => by
      obtain ⟨e, d, rfl, he⟩ := hop
      exact idle_tick hs he (Bool.eq_false_iff.mpr hq))
    (ticks ts) hidle
    (fun _ op hop => by
      obtain ⟨e, d, hmem, rfl⟩ := mem_ticks hop
      exact ⟨e, d, rfl, hlongest _ hmem⟩) hrank
  have hsplit : ticks ts = (ticks ts).take (k + 1) ++ (ticks ts).drop (k + 1) :=
    (List.take_append_drop _ _).symm
  have hrest := over_run hover ((ticks ts).drop (k + 1)) fun op hop => by
    obtain ⟨e, d, -, rfl⟩ := mem_ticks (List.mem_of_mem_drop hop)
    rfl
  rw [hsplit, run_append, run_take_succ hop, hrest.1, (withEventTaken_flags _ _).2]
  exact hover

/-- Twenty-one ticks of a thousand seconds. -/
theorem idle_game_over_long :
    (run Op.apply (GameState.new 1).start (ticks (List.replicate 21 (1000000, false)))).gameOver = true :=
  idle_game_over 1 (List.replicate 21 (1000000, false)) 1000000
    (fun _ h => by rw [(List.mem_replicate.mp h).2]; decide) (by decide)

end TuiTetris.CoreLiveness
