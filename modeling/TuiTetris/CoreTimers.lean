import TuiTetris.CoreGameStateInvariant

set_option autoImplicit false

/-!
# Timers and progress counters

The lock delay belongs to the active piece and the other clocks to the game, so
each operation is taken apart twice: what it does to the lock delay, and what it
does to the rest.
-/
namespace TuiTetris.CoreTimers
open CoreTypes CorePieces CoreBoard CoreScoring CoreRng CoreGameState CoreGameStateLoops
open CoreGameStateEffects CoreGameStateInvariant LibTransition

/-! ## The lock delay -/

/-- The lock delay of a piece that can fall has not begun. -/
structure LockDelay (s : GameState) : Prop where
  timer : s.lockTimerMs < lockDelayMs
  resets : s.lockResetCount ≤ lockResetLimit
  falling : s.active.isSome = true → s.isGrounded = false → s.lockTimerMs = 0 ∧ s.lockResetCount = 0

theorem isGrounded_active {s : GameState} (h : s.isGrounded = true) : ∃ p, s.active = some p := by
  unfold GameState.isGrounded at h
  split at h
  · next p hp => exact ⟨p, hp⟩
  · cases h

/-- A piece that can move down one row is not grounded. -/
theorem tryMove_down {s : GameState} (h : (s.tryMove 0 1).2 = true) :
    s.active.isSome = true ∧ s.isGrounded = false := by
  unfold GameState.tryMove at h
  split at h
  · cases h
  · next p hp =>
    split at h
    · next hv =>
      refine ⟨by rw [hp]; rfl, ?_⟩
      unfold GameState.isGrounded Tetromino.isGrounded
      rw [hp]
      simp only [List.any_eq_false]
      intro m hm
      have hm' := List.all_eq_true.mp hv m hm
      rw [Int8.add_zero] at hm'
      simp [hm']
    · cases h

theorem LockDelay.zero {s : GameState} (ht : s.lockTimerMs = 0) (hc : s.lockResetCount = 0) :
    LockDelay s := by
  refine ⟨?_, ?_, fun _ _ => ⟨ht, hc⟩⟩
  · rw [ht]
    decide
  · rw [hc]
    decide

theorem LockDelay.settled {s : GameState} (h : LockDelay s) {u : GameState} (ha : u.active = none)
    (ht : u.lockTimerMs = s.lockTimerMs) (hc : u.lockResetCount = s.lockResetCount) :
    LockDelay u := by
  refine ⟨?_, ?_, fun hs => ?_⟩
  · rw [ht]
    exact h.timer
  · rw [hc]
    exact h.resets
  · rw [ha] at hs
    cases hs

theorem resets_succ {n : UInt8} (h : n < lockResetLimit) :
    (n + 1).toNat = n.toNat + 1 ∧ n + 1 ≤ lockResetLimit := by
  have hlimit : lockResetLimit.toNat = 15 := rfl
  have hone : (1 : UInt8).toNat = 1 := rfl
  rw [UInt8.lt_iff_toNat_lt, hlimit] at h
  have hn : (n + 1).toNat = n.toNat + 1 := by
    rw [UInt8.toNat_add, hone]
    omega
  refine ⟨hn, ?_⟩
  rw [UInt8.le_iff_toNat_le, hlimit, hn]
  omega

theorem lockDelay_handleLockReset {s : GameState} (ht : s.lockTimerMs < lockDelayMs)
    (hc : s.lockResetCount ≤ lockResetLimit) : LockDelay s.handleLockReset := by
  unfold GameState.handleLockReset
  cases hg : s.isGrounded with
  | false => exact .zero rfl rfl
  | true =>
    simp only [Bool.not_true, Bool.false_eq_true, if_false]
    split
    · next hlt =>
      exact ⟨(by decide : (0 : UInt32) < lockDelayMs), (resets_succ hlt).2,
        fun _ hf => absurd (hg.symm.trans hf) (by decide)⟩
    · exact ⟨ht, hc, fun _ hf => absurd (hg.symm.trans hf) (by decide)⟩

theorem lockDelay_tryMove {s : GameState} (h : LockDelay s) (dx dy : Int8) :
    LockDelay (s.tryMove dx dy).1 := by
  unfold GameState.tryMove
  split
  · exact h
  · split
    · next p hp hv =>
      have hm := lockDelay_handleLockReset
        (s := { s with active := some { p with x := p.x + dx, y := p.y + dy } }) h.timer h.resets
      simp only
      split <;> exact ⟨hm.timer, hm.resets, hm.falling⟩
    · exact h

theorem lockDelay_tryRotate {s : GameState} (h : LockDelay s) (clockwise : Bool) :
    LockDelay (s.tryRotate clockwise).1 := by
  unfold GameState.tryRotate
  split
  · exact h
  · next p hp =>
    split
    · exact h
    · split
      · next shape rot dx dy hr =>
        have hm := lockDelay_handleLockReset
          (s := { s with active := some { p with rotation := rot, x := p.x + dx, y := p.y + dy } })
          h.timer h.resets
        exact ⟨hm.timer, hm.resets, hm.falling⟩
      · exact h

theorem lockDelay_spawnPiece {s : GameState} (h : LockDelay s) : LockDelay s.spawnPiece.1 := by
  cases hv : (incoming s).isValid s.board with
  | true =>
    rw [spawnPiece_open s hv]
    exact .zero rfl rfl
  | false =>
    rw [spawnPiece_blocked s hv]
    exact ⟨h.timer, h.resets, h.falling⟩

theorem lockDelay_applyHold {s : GameState} (h : LockDelay s) (p : Tetromino)
    (hp : s.active = some p) (hc : s.canHold = true) : LockDelay s.applyHold.1 := by
  cases hh : s.hold with
  | none =>
    rw [applyHold_empty s p hp hc hh]
    exact .zero rfl rfl
  | some k =>
    rw [applyHold_swap s p k hp hc hh]
    split
    · exact .zero rfl rfl
    · exact h.settled rfl rfl rfl

theorem recordLock_lockDelay (s : GameState) (n : ℕ) (tspin : TSpinKind) :
    (s.recordLock n tspin).lockTimerMs = s.lockTimerMs ∧
      (s.recordLock n tspin).lockResetCount = s.lockResetCount := by
  unfold GameState.recordLock GameState.applyLineClear
  split <;> exact ⟨rfl, rfl⟩

theorem settleLock_lockDelay (s : GameState) (p : Tetromino) :
    (s.settleLock p).lockTimerMs = s.lockTimerMs ∧
      (s.settleLock p).lockResetCount = s.lockResetCount := by
  unfold GameState.settleLock
  exact recordLock_lockDelay _ _ _

theorem lockDelay_lockPiece {s : GameState} (ht : s.lockTimerMs < lockDelayMs)
    (hc : s.lockResetCount ≤ lockResetLimit) (p : Tetromino) (hp : s.active = some p)
    (hg : s.gameOver = false) : LockDelay s.lockPiece := by
  obtain ⟨ht', hc'⟩ := settleLock_lockDelay s p
  have ha := (settles_settleLock s p).active
  rw [lockPiece_eq s p hp hg]
  apply lockDelay_spawnPiece
  refine ⟨?_, ?_, fun hs => ?_⟩
  · rw [ht']
    exact ht
  · rw [hc']
    exact hc
  · rw [ha] at hs
    cases hs

theorem lockDelay_gravityLoop (interval : UInt32) (fuel : ℕ) {s : GameState} (h : LockDelay s)
    (changed : Bool) : LockDelay (GameState.gravityLoop interval fuel s changed).1 := by
  induction fuel generalizing s changed with
  | zero => exact h
  | succ fuel ih =>
    unfold GameState.gravityLoop
    split
    · have ht : LockDelay { s with dropTimerMs := s.dropTimerMs - interval } :=
        ⟨h.timer, h.resets, h.falling⟩
      exact ih (lockDelay_tryMove ht 0 1) _
    · exact h

theorem lockDelay_tickSoftDrop {s : GameState} (h : LockDelay s) (elapsedMs : UInt32)
    (softDrop : Bool) : LockDelay (s.tickSoftDrop elapsedMs softDrop) := by
  unfold GameState.tickSoftDrop
  cases softDrop <;> simp only [Bool.false_eq_true, if_false, if_true] <;> split <;>
    exact ⟨h.timer, h.resets, h.falling⟩

/-! ## The other clocks -/

/-- The fields that a move leaves alone and a lock or a tick changes. -/
structure Clocks where
  lineClearTimerMs : UInt32
  dropTimerMs : UInt32
  softDropTimerMs : UInt32
  isSoftDropping : Bool
  level : UInt32
  lines : UInt32
  combo : Int32

def clocks (s : GameState) : Clocks :=
  ⟨s.lineClearTimerMs, s.dropTimerMs, s.softDropTimerMs, s.isSoftDropping, s.level, s.lines, s.combo⟩

structure Clocks.Bounded (c : Clocks) : Prop where
  lineClear : c.lineClearTimerMs ≤ lineClearPauseMs
  drop : c.dropTimerMs < 1000
  softDropping : c.isSoftDropping = true ↔ 0 < c.softDropTimerMs
  softDrop : c.softDropTimerMs ≤ softDropGraceMs
  level : c.level = c.lines / 10
  combo : -1 ≤ c.combo

/-- All that a move can change. -/
def Moved (s u : GameState) : Prop := ∃ active lockTimerMs lockResetCount lastActionWasRotate,
  u = { s with active, lockTimerMs, lockResetCount, lastActionWasRotate }

theorem moved_refl (s : GameState) : Moved s s := ⟨_, _, _, _, rfl⟩

theorem moved_handleLockReset (s : GameState) : Moved s s.handleLockReset := by
  unfold GameState.handleLockReset
  split
  · exact ⟨_, _, _, _, rfl⟩
  · split
    · exact ⟨_, _, _, _, rfl⟩
    · exact moved_refl s

theorem moved_tryMove (s : GameState) (dx dy : Int8) : Moved s (s.tryMove dx dy).1 := by
  unfold GameState.tryMove
  split
  · exact moved_refl s
  · next p hp =>
    split
    · obtain ⟨a, t, c, r, hm⟩ := moved_handleLockReset
        { s with active := some { p with x := p.x + dx, y := p.y + dy } }
      simp only [hm]
      split <;> exact ⟨_, _, _, _, rfl⟩
    · exact moved_refl s

theorem moved_tryRotate (s : GameState) (clockwise : Bool) : Moved s (s.tryRotate clockwise).1 := by
  unfold GameState.tryRotate
  split
  · exact moved_refl s
  · next p hp =>
    split
    · exact moved_refl s
    · split
      · next shape rot dx dy hr =>
        obtain ⟨a, t, c, r, hm⟩ := moved_handleLockReset
          { s with active := some { p with rotation := rot, x := p.x + dx, y := p.y + dy } }
        simp only [hm]
        exact ⟨_, _, _, _, rfl⟩
      · exact moved_refl s

theorem moved_clocks {s u : GameState} (h : Moved s u) : clocks u = clocks s := by
  obtain ⟨a, t, c, r, rfl⟩ := h
  rfl

theorem clocks_spawnPiece (s : GameState) : clocks s.spawnPiece.1 = clocks s := by
  cases h : (incoming s).isValid s.board with
  | true =>
    rw [spawnPiece_open s h]
    rfl
  | false =>
    rw [spawnPiece_blocked s h]
    rfl

theorem clocks_applyHold (s : GameState) (p : Tetromino) (hp : s.active = some p)
    (hc : s.canHold = true) : clocks s.applyHold.1 = clocks s := by
  cases hh : s.hold with
  | none =>
    rw [applyHold_empty s p hp hc hh]
    exact clocks_spawnPiece { s with hold := some p.kind }
  | some k =>
    rw [applyHold_swap s p k hp hc hh]
    split <;> rfl

theorem clocks_dropActive (s : GameState) (p : Tetromino) : clocks (s.dropActive p) = clocks s := by
  unfold GameState.dropActive
  simp only
  split <;> rfl

theorem satSucc_ge {a : Int32} (h : -1 ≤ a) : -1 ≤ satSucc a := by
  have hneg : (-1 : Int32).toInt = -1 := by decide
  have hone : (1 : Int32).toInt = 1 := by decide
  rw [Int32.le_iff_toInt_le, hneg] at h ⊢
  unfold satSucc
  split
  · omega
  · next hmax =>
    have hne : a.toInt ≠ 2147483647 := fun he => hmax (Int32.toInt_inj.mp he)
    have hlt := a.toInt_lt
    rw [Int32.toInt_add, hone, Int.bmod_def]
    omega

theorem bounded_recordLock {s : GameState} (h : (clocks s).Bounded) (n : ℕ) (tspin : TSpinKind) :
    (clocks (s.recordLock n tspin)).Bounded := by
  unfold GameState.recordLock GameState.applyLineClear
  split
  · exact ⟨h.lineClear, h.drop, h.softDropping, h.softDrop, h.level,
      (by decide : (-1 : Int32) ≤ -1)⟩
  · exact ⟨(by decide : lineClearPauseMs ≤ lineClearPauseMs), h.drop, h.softDropping, h.softDrop, rfl,
      satSucc_ge h.combo⟩

theorem bounded_lockPiece {s : GameState} (h : (clocks s).Bounded) (p : Tetromino)
    (hp : s.active = some p) (hg : s.gameOver = false) : (clocks s.lockPiece).Bounded := by
  rw [lockPiece_eq s p hp hg, clocks_spawnPiece]
  unfold GameState.settleLock
  apply bounded_recordLock
  exact h

theorem satSub_le (a b : UInt32) : satSub a b ≤ a := by
  unfold satSub
  split
  · next h =>
    rw [UInt32.le_iff_toNat_le, UInt32.toNat_sub_of_le _ _ h]
    omega
  · exact UInt32.le_iff_toNat_le.mpr (Nat.zero_le _)

theorem bounded_tickLineClear {s : GameState} (h : (clocks s).Bounded) (elapsedMs : UInt32) :
    (clocks (s.tickLineClear elapsedMs)).Bounded :=
  ⟨UInt32.le_trans (satSub_le _ _) h.lineClear, h.drop, h.softDropping, h.softDrop, h.level, h.combo⟩

/-- Either the flag holds and the timer runs, or neither. -/
theorem bounded_softDrop {s : GameState} (h : (clocks s).Bounded) {timer : UInt32}
    (ht : timer ≤ softDropGraceMs) (flag : Bool) (hf : flag = true ↔ 0 < timer) :
    (clocks { s with softDropTimerMs := timer, isSoftDropping := flag }).Bounded :=
  ⟨h.lineClear, h.drop, hf, ht, h.level, h.combo⟩

theorem pos_iff_ne_zero (a : UInt32) : 0 < a ↔ a ≠ 0 := by
  have h0 : (0 : UInt32).toNat = 0 := rfl
  rw [UInt32.lt_iff_toNat_lt, h0, ne_eq, ← UInt32.toNat_inj, h0]
  omega

theorem softDrop_expires {s : GameState} (h : (clocks s).Bounded) (elapsedMs : UInt32)
    (hs : s.isSoftDropping = true) :
    (clocks { s with
      softDropTimerMs := satSub s.softDropTimerMs elapsedMs
      isSoftDropping := if satSub s.softDropTimerMs elapsedMs = 0 then false
        else s.isSoftDropping }).Bounded := by
  have hle : satSub s.softDropTimerMs elapsedMs ≤ softDropGraceMs :=
    UInt32.le_trans (satSub_le _ _) h.softDrop
  apply bounded_softDrop h hle
  generalize satSub s.softDropTimerMs elapsedMs = timer
  rw [pos_iff_ne_zero, hs]
  by_cases h0 : timer = 0
  · simp [h0]
  · simp [h0]

theorem bounded_tickSoftDrop {s : GameState} (h : (clocks s).Bounded) (elapsedMs : UInt32)
    (softDrop : Bool) : (clocks (s.tickSoftDrop elapsedMs softDrop)).Bounded := by
  have hset : (clocks { s with isSoftDropping := true, softDropTimerMs := softDropGraceMs }).Bounded :=
    bounded_softDrop h (UInt32.le_refl _) true (by decide)
  unfold GameState.tickSoftDrop
  cases softDrop with
  | false =>
    simp only [Bool.false_eq_true, if_false]
    split
    · next hs => exact softDrop_expires h elapsedMs (Bool.and_eq_true_iff.mp hs).1
    · exact h
  | true =>
    simp only [if_true]
    split
    · exact softDrop_expires hset elapsedMs rfl
    · exact hset

theorem dropIntervalMs_le (s : GameState) : s.dropIntervalMs ≤ 1000 := by
  have h : ∀ l : List UInt32, l.all (fun v => v.toNat ≤ 1000) = true → ∀ i : ℕ,
      ((l[i]?).getD 120).toNat ≤ 1000 := by
    intro l hl i
    cases hi : l[i]? with
    | none => decide
    | some v => exact of_decide_eq_true (List.all_eq_true.mp hl v (List.mem_of_getElem? hi))
  have hb : (getDropIntervalMs s.level).toNat ≤ 1000 := h _ (by decide) _
  rw [UInt32.le_iff_toNat_le]
  unfold GameState.dropIntervalMs
  split
  · rw [UInt32.toNat_div]
    exact Nat.le_trans (Nat.div_le_self _ _) hb
  · exact hb

theorem gravityLoop_clocks (interval : UInt32) (fuel : ℕ) (s : GameState) (changed : Bool) :
    ∃ timer, clocks (GameState.gravityLoop interval fuel s changed).1 =
      { clocks s with dropTimerMs := timer } := by
  induction fuel generalizing s changed with
  | zero => exact ⟨s.dropTimerMs, rfl⟩
  | succ fuel ih =>
    unfold GameState.gravityLoop
    split
    · obtain ⟨timer, ht⟩ := ih
        ({ s with dropTimerMs := s.dropTimerMs - interval }.tryMove 0 1).1 _
      rw [moved_clocks (moved_tryMove _ 0 1)] at ht
      exact ⟨timer, ht⟩
    · exact ⟨s.dropTimerMs, rfl⟩

theorem bounded_tickGravity {s : GameState} (h : (clocks s).Bounded) (elapsedMs : UInt32) :
    (clocks (s.tickGravity elapsedMs).1).Bounded := by
  obtain ⟨timer, ht⟩ := gravityLoop_clocks s.dropIntervalMs (satAdd s.dropTimerMs elapsedMs).toNat
    { s with dropTimerMs := satAdd s.dropTimerMs elapsedMs } false
  have hdrop := UInt32.lt_of_lt_of_le (tickGravity_ends s elapsedMs) (dropIntervalMs_le s)
  have htimer : (s.tickGravity elapsedMs).1.dropTimerMs = timer := congrArg Clocks.dropTimerMs ht
  rw [htimer] at hdrop
  change (clocks (GameState.gravityLoop _ _ _ _).1).Bounded
  rw [ht]
  exact ⟨h.lineClear, hdrop, h.softDropping, h.softDrop, h.level, h.combo⟩

/-! ## Operations -/

structure Timers (s : GameState) : Prop where
  lockDelay : LockDelay s
  clocks : (clocks s).Bounded

theorem timers_tryMove {s : GameState} (h : Timers s) (dx dy : Int8) : Timers (s.tryMove dx dy).1 := by
  refine ⟨lockDelay_tryMove h.lockDelay dx dy, ?_⟩
  rw [moved_clocks (moved_tryMove s dx dy)]
  exact h.clocks

theorem timers_tryRotate {s : GameState} (h : Timers s) (clockwise : Bool) :
    Timers (s.tryRotate clockwise).1 := by
  refine ⟨lockDelay_tryRotate h.lockDelay clockwise, ?_⟩
  rw [moved_clocks (moved_tryRotate s clockwise)]
  exact h.clocks

theorem timers_softDropStep {s : GameState} (h : Timers s) : Timers s.softDropStep.1 := by
  have hm := timers_tryMove h 0 1
  exact ⟨⟨hm.lockDelay.timer, hm.lockDelay.resets, hm.lockDelay.falling⟩,
    bounded_softDrop hm.clocks (UInt32.le_refl _) true (by decide)⟩

theorem timers_lockPiece {s : GameState} (ht : s.lockTimerMs < lockDelayMs)
    (hc : s.lockResetCount ≤ lockResetLimit) (hb : (clocks s).Bounded) (p : Tetromino)
    (hp : s.active = some p) (hg : s.gameOver = false) : Timers s.lockPiece :=
  ⟨lockDelay_lockPiece ht hc p hp hg, bounded_lockPiece hb p hp hg⟩

theorem dropActive_lockDelay (s : GameState) (p : Tetromino) :
    (s.dropActive p).lockTimerMs = s.lockTimerMs ∧
      (s.dropActive p).lockResetCount = s.lockResetCount := by
  unfold GameState.dropActive
  simp only
  split <;> exact ⟨rfl, rfl⟩

theorem timers_hardDropStep {s : GameState} (h : Timers s) (hg : s.gameOver = false) :
    Timers s.hardDropStep.1 := by
  cases hp : s.active with
  | none =>
    rw [hardDropStep_none s hp]
    exact ⟨⟨h.lockDelay.timer, h.lockDelay.resets, h.lockDelay.falling⟩, h.clocks⟩
  | some p =>
    rw [hardDropStep_some s p hp]
    obtain ⟨ht, hc⟩ := dropActive_lockDelay { s with lastActionWasRotate := false } p
    have hb : clocks (dropState s p) = clocks s := clocks_dropActive _ p
    have hl : Timers (dropState s p).lockPiece := by
      refine timers_lockPiece ?_ ?_ ?_ _ (dropActive_active _ p hp)
        ((glides_dropState s p hp).gameOver.trans hg)
      · unfold dropState
        rw [ht]
        exact h.lockDelay.timer
      · unfold dropState
        rw [hc]
        exact h.lockDelay.resets
      · rw [hb]
        exact h.clocks
    exact ⟨⟨hl.lockDelay.timer, hl.lockDelay.resets, hl.lockDelay.falling⟩, hl.clocks⟩

theorem timers_applyHold {s : GameState} (h : Timers s) : Timers s.applyHold.1 := by
  cases hc : s.canHold with
  | false =>
    have he : s.applyHold.1 = s := by simp [GameState.applyHold, hc]
    rwa [he]
  | true =>
    cases hp : s.active with
    | none =>
      have he : s.applyHold.1 = s := by simp [GameState.applyHold, hc, hp]
      rwa [he]
    | some p =>
      refine ⟨lockDelay_applyHold h.lockDelay p hp hc, ?_⟩
      rw [clocks_applyHold s p hp hc]
      exact h.clocks

theorem timers_togglePause {s : GameState} (h : Timers s) : Timers s.togglePause.1 := by
  unfold GameState.togglePause
  simp only
  split
  · exact ⟨⟨h.lockDelay.timer, h.lockDelay.resets, h.lockDelay.falling⟩,
      bounded_softDrop h.clocks (by decide) false (by decide)⟩
  · exact ⟨⟨h.lockDelay.timer, h.lockDelay.resets, h.lockDelay.falling⟩, h.clocks⟩

theorem timers_spawnPiece {s : GameState} (h : Timers s) : Timers s.spawnPiece.1 := by
  refine ⟨lockDelay_spawnPiece h.lockDelay, ?_⟩
  rw [clocks_spawnPiece]
  exact h.clocks

theorem bounded_zero : (⟨0, 0, 0, false, 0, 0, -1⟩ : Clocks).Bounded := by
  constructor <;> decide

theorem timers_fresh (seed episodeId : UInt32) : Timers (freshState seed episodeId) := by
  have hc : clocks (freshState seed episodeId) = ⟨0, 0, 0, false, 0, 0, -1⟩ := rfl
  refine ⟨.zero rfl rfl, ?_⟩
  rw [hc]
  exact bounded_zero

theorem timers_restartWithSeed (s : GameState) (seed : UInt32) :
    Timers (s.restartWithSeed seed).1 := by
  rw [restartWithSeed_eq]
  exact timers_spawnPiece (timers_fresh seed _)

theorem timers_action {s : GameState} (h : Timers s) (a : GameAction) : Timers (s.applyAction a).1 := by
  cases ha : accepts s a with
  | false =>
    rw [applyAction_rejected s a ha]
    exact h
  | true =>
    obtain ⟨ho, hp⟩ := (accepts_iff s a).mp ha
    unfold GameState.applyAction
    rw [if_neg ho, if_neg hp]
    cases a with
    | MoveLeft => exact timers_tryMove h (-1) 0
    | MoveRight => exact timers_tryMove h 1 0
    | SoftDrop => exact timers_softDropStep h
    | HardDrop => exact timers_hardDropStep h (accepts_gameOver ha (by decide))
    | RotateCw => exact timers_tryRotate h true
    | RotateCcw => exact timers_tryRotate h false
    | Hold => exact timers_applyHold h
    | Pause => exact timers_togglePause h
    | Restart => exact timers_restartWithSeed s _

theorem timers_tickLockDelay {s : GameState} (h : Timers s) (hg : s.gameOver = false)
    (elapsedMs : UInt32) (changed : Bool) : Timers (s.tickLockDelay elapsedMs changed).1 := by
  unfold GameState.tickLockDelay
  cases hgr : s.isGrounded with
  | false => exact ⟨.zero rfl rfl, h.clocks⟩
  | true =>
    simp only [if_true]
    split
    · obtain ⟨p, hp⟩ := isGrounded_active hgr
      have hb : (clocks { s with lockTimerMs := 0, dropTimerMs := 0 }).Bounded :=
        ⟨h.clocks.lineClear, (by decide : (0 : UInt32) < 1000), h.clocks.softDropping,
          h.clocks.softDrop, h.clocks.level, h.clocks.combo⟩
      exact timers_lockPiece (by decide : (0 : UInt32) < lockDelayMs) h.lockDelay.resets hb p hp hg
    · next hlt =>
      exact ⟨⟨UInt32.not_le.mp hlt, h.lockDelay.resets,
        fun _ hf => absurd (hgr.symm.trans hf) (by decide)⟩, h.clocks⟩

theorem timers_tick {s : GameState} (h : Timers s) (elapsedMs : UInt32) (softDrop : Bool) :
    Timers (s.tick elapsedMs softDrop).1 := by
  unfold GameState.tick
  split
  · exact h
  · next hplay =>
    have hg : ((s.tickCounters elapsedMs).tickLineClear elapsedMs).gameOver = false := by
      change s.gameOver = false
      simp_all
    have hcounters : Timers (s.tickCounters elapsedMs) :=
      ⟨⟨h.lockDelay.timer, h.lockDelay.resets, h.lockDelay.falling⟩, h.clocks⟩
    have ht : Timers ((s.tickCounters elapsedMs).tickLineClear elapsedMs) :=
      ⟨⟨h.lockDelay.timer, h.lockDelay.resets, h.lockDelay.falling⟩,
        bounded_tickLineClear hcounters.clocks elapsedMs⟩
    simp only
    generalize (s.tickCounters elapsedMs).tickLineClear elapsedMs = t at hg ht
    split
    · exact ht
    · have hglides := (glides_tickSoftDrop t elapsedMs softDrop).trans
        (glides_tickGravity (t.tickSoftDrop elapsedMs softDrop) elapsedMs)
      have hsoft := lockDelay_tickSoftDrop ht.lockDelay elapsedMs softDrop
      apply timers_tickLockDelay _ (hglides.gameOver.trans hg)
      refine ⟨?_, bounded_tickGravity (bounded_tickSoftDrop ht.clocks elapsedMs softDrop) elapsedMs⟩
      unfold GameState.tickGravity
      apply lockDelay_gravityLoop
      exact ⟨hsoft.timer, hsoft.resets, hsoft.falling⟩

theorem timers_apply {s : GameState} (h : Timers s) (op : Op) : Timers (op.apply s) := by
  cases op with
  | action a => exact timers_action h a
  | tick elapsedMs softDrop => exact timers_tick h elapsedMs softDrop
  | restart seed => exact timers_restartWithSeed s seed
  | takeEvent => exact ⟨⟨h.lockDelay.timer, h.lockDelay.resets, h.lockDelay.falling⟩, h.clocks⟩

theorem timers_run {s : GameState} (h : Timers s) (ops : List Op) : Timers (run Op.apply s ops) :=
  run_invariant (I := Timers) (fun _ op hs => timers_apply hs op) h ops

theorem timers_start (seed : UInt32) : Timers (GameState.new seed).start := by
  rw [start_new]
  exact timers_spawnPiece (timers_fresh seed 0)

/-- The relations between the timers, the flags and the counters of a state. -/
structure TimersHold (s : GameState) : Prop where
  lockTimer : s.lockTimerMs < lockDelayMs
  lockResets : s.lockResetCount ≤ lockResetLimit
  lineClearTimer : s.lineClearTimerMs ≤ lineClearPauseMs
  dropTimer : s.dropTimerMs < 1000
  softDropping : s.isSoftDropping = true ↔ 0 < s.softDropTimerMs
  softDropTimer : s.softDropTimerMs ≤ softDropGraceMs
  level : s.level = s.lines / 10
  combo : -1 ≤ s.combo
  falling : (s.tryMove 0 1).2 = true → s.lockTimerMs = 0 ∧ s.lockResetCount = 0

theorem timers_hold (seed : UInt32) (ops : List Op) :
    TimersHold (run Op.apply (GameState.new seed).start ops) := by
  have h := timers_run (timers_start seed) ops
  generalize run Op.apply (GameState.new seed).start ops = s at h
  refine ⟨h.lockDelay.timer, h.lockDelay.resets, h.clocks.lineClear, h.clocks.drop,
    h.clocks.softDropping, h.clocks.softDrop, h.clocks.level, h.clocks.combo, fun hd => ?_⟩
  obtain ⟨ha, hg⟩ := tryMove_down hd
  exact h.lockDelay.falling ha hg

end TuiTetris.CoreTimers
