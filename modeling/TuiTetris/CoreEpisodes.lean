import TuiTetris.CoreGameStateInvariant

set_option autoImplicit false

/-!
# Episodes

A restart keeps nothing of the old game but its episode counter, and nothing reads
the counter but a restart. Every operation therefore commutes with a shift of it.
-/
namespace TuiTetris.CoreEpisodes
open CoreTypes CoreGameState CoreGameStateEffects CoreGameStateInvariant LibTransition

/-- The state with its episode counter ahead by `k`. -/
def shiftEpisode (k : UInt32) (s : GameState) : GameState := { s with episodeId := s.episodeId + k }

@[simp] theorem shiftEpisode_active (k : UInt32) (s : GameState) :
    (shiftEpisode k s).active = s.active := rfl

@[simp] theorem shiftEpisode_board (k : UInt32) (s : GameState) :
    (shiftEpisode k s).board = s.board := rfl

@[simp] theorem shiftEpisode_gameOver (k : UInt32) (s : GameState) :
    (shiftEpisode k s).gameOver = s.gameOver := rfl

theorem shift_handleLockReset (k : UInt32) (s : GameState) :
    (shiftEpisode k s).handleLockReset = shiftEpisode k s.handleLockReset := by
  have hg : (shiftEpisode k s).isGrounded = s.isGrounded := rfl
  have hc : (shiftEpisode k s).lockResetCount = s.lockResetCount := rfl
  unfold GameState.handleLockReset
  rw [hg, hc]
  split
  · rfl
  · split <;> rfl

theorem shift_tryMove (k : UInt32) (s : GameState) (dx dy : Int8) :
    (shiftEpisode k s).tryMove dx dy = (shiftEpisode k (s.tryMove dx dy).1, (s.tryMove dx dy).2) := by
  unfold GameState.tryMove
  rw [shiftEpisode_active, shiftEpisode_board]
  split
  · next h => simp only
  · next p hp =>
    split
    · have h := shift_handleLockReset k { s with active := some { p with x := p.x + dx, y := p.y + dy } }
      simp only [shiftEpisode] at h ⊢
      by_cases hx : dx ≠ 0
      · simp only [if_pos hx, h]
      · simp only [if_neg hx, h]
    · rfl

theorem shift_tryRotate (k : UInt32) (s : GameState) (clockwise : Bool) :
    (shiftEpisode k s).tryRotate clockwise =
      (shiftEpisode k (s.tryRotate clockwise).1, (s.tryRotate clockwise).2) := by
  unfold GameState.tryRotate
  rw [shiftEpisode_active, shiftEpisode_board]
  split
  · rfl
  · next p hp =>
    by_cases hO : p.kind = .O
    · simp only [if_pos hO]
    · simp only [if_neg hO]
      split
      · next shape rot dx dy hr =>
        have h := shift_handleLockReset k
          { s with active := some { p with rotation := rot, x := p.x + dx, y := p.y + dy } }
        simp only [shiftEpisode] at h ⊢
        rw [h]
      · rfl

theorem shift_spawnPiece (k : UInt32) (s : GameState) :
    (shiftEpisode k s).spawnPiece = (shiftEpisode k s.spawnPiece.1, s.spawnPiece.2) := by
  cases h : (incoming s).isValid s.board with
  | true =>
    rw [spawnPiece_open s h, spawnPiece_open (shiftEpisode k s) h]
    rfl
  | false =>
    rw [spawnPiece_blocked s h, spawnPiece_blocked (shiftEpisode k s) h]
    rfl

theorem shift_recordLock (k : UInt32) (s : GameState) (n : ℕ) (tspin : TSpinKind) :
    (shiftEpisode k s).recordLock n tspin = shiftEpisode k (s.recordLock n tspin) := by
  unfold GameState.recordLock GameState.applyLineClear
  split <;> rfl

theorem shift_settleLock (k : UInt32) (s : GameState) (p : Tetromino) :
    (shiftEpisode k s).settleLock p = shiftEpisode k (s.settleLock p) := by
  let u : GameState := { s with
    landingFlashMs := CoreTypes.landingFlashMs
    board := (s.board.lockPiece p.shape p.x p.y p.kind).1.clearFullRows.1
    boardId := if (s.board.lockPiece p.shape p.x p.y p.kind).2 ||
      (s.board.lockPiece p.shape p.x p.y p.kind).1.clearFullRows.2.length > 0
      then s.boardId + 1 else s.boardId
    active := none }
  exact shift_recordLock k u _ _

theorem shift_lockPiece (k : UInt32) (s : GameState) :
    (shiftEpisode k s).lockPiece = shiftEpisode k s.lockPiece := by
  unfold GameState.lockPiece
  rw [shiftEpisode_active]
  split
  · rfl
  · simp only [shift_settleLock, shiftEpisode_gameOver, shift_spawnPiece]
    split <;> rfl

theorem shift_dropActive (k : UInt32) (s : GameState) (p : Tetromino) :
    (shiftEpisode k s).dropActive p = shiftEpisode k (s.dropActive p) := by
  unfold GameState.dropActive
  rw [shiftEpisode_board]
  simp only
  split <;> rfl

theorem shift_hardDropStep (k : UInt32) (s : GameState) :
    (shiftEpisode k s).hardDropStep = (shiftEpisode k s.hardDropStep.1, true) := by
  unfold GameState.hardDropStep GameState.hardDrop
  have h (p : Tetromino) := shift_dropActive k { s with lastActionWasRotate := false } p
  have hl (p : Tetromino) := shift_lockPiece k ({ s with lastActionWasRotate := false }.dropActive p)
  simp only [shiftEpisode] at h hl ⊢
  split
  · rfl
  · simp only [h, hl]

theorem shift_applyHold (k : UInt32) (s : GameState) :
    (shiftEpisode k s).applyHold = (shiftEpisode k s.applyHold.1, s.applyHold.2) := by
  cases hc : s.canHold with
  | false => simp [GameState.applyHold, shiftEpisode, hc]
  | true =>
    cases hp : s.active with
    | none => simp [GameState.applyHold, shiftEpisode, hc, hp]
    | some p =>
      cases hh : s.hold with
      | none =>
        rw [applyHold_empty s p hp hc hh, applyHold_empty (shiftEpisode k s) p hp hc hh]
        have h := shift_spawnPiece k { s with hold := some p.kind }
        simp only [shiftEpisode] at h ⊢
        rw [h]
        rfl
      | some q =>
        rw [applyHold_swap s p q hp hc hh, applyHold_swap (shiftEpisode k s) p q hp hc hh,
          shiftEpisode_board]
        split <;> rfl

theorem shift_gravityLoop (k interval : UInt32) (fuel : ℕ) (s : GameState) (changed : Bool) :
    GameState.gravityLoop interval fuel (shiftEpisode k s) changed =
      (shiftEpisode k (GameState.gravityLoop interval fuel s changed).1,
        (GameState.gravityLoop interval fuel s changed).2) := by
  induction fuel generalizing s changed with
  | zero => rfl
  | succ fuel ih =>
    have hd : (shiftEpisode k s).dropTimerMs = s.dropTimerMs := rfl
    unfold GameState.gravityLoop
    rw [hd]
    split
    · have h := shift_tryMove k { s with dropTimerMs := s.dropTimerMs - interval } 0 1
      simp only [shiftEpisode] at h ih ⊢
      rw [h, ih]
    · rfl

theorem shift_tickLockDelay (k : UInt32) (s : GameState) (elapsedMs : UInt32) (changed : Bool) :
    (shiftEpisode k s).tickLockDelay elapsedMs changed =
      (shiftEpisode k (s.tickLockDelay elapsedMs changed).1, (s.tickLockDelay elapsedMs changed).2) := by
  have hg : (shiftEpisode k s).isGrounded = s.isGrounded := rfl
  have ht : (shiftEpisode k s).lockTimerMs = s.lockTimerMs := rfl
  have h := shift_lockPiece k { s with lockTimerMs := 0, dropTimerMs := 0 }
  unfold GameState.tickLockDelay
  rw [hg, ht]
  split
  · simp only
    split
    · simp only [shiftEpisode] at h ⊢
      rw [h]
    · rfl
  · rfl

theorem shift_tickSoftDrop (k : UInt32) (s : GameState) (elapsedMs : UInt32) (softDrop : Bool) :
    (shiftEpisode k s).tickSoftDrop elapsedMs softDrop =
      shiftEpisode k (s.tickSoftDrop elapsedMs softDrop) := by
  have hs : (shiftEpisode k s).isSoftDropping = s.isSoftDropping := rfl
  have ht : (shiftEpisode k s).softDropTimerMs = s.softDropTimerMs := rfl
  unfold GameState.tickSoftDrop
  cases softDrop with
  | false =>
    simp only [Bool.false_eq_true, if_false, hs, ht]
    split <;> rfl
  | true =>
    simp only [if_true]
    split <;> rfl

theorem shift_tickGravity (k : UInt32) (s : GameState) (elapsedMs : UInt32) :
    (shiftEpisode k s).tickGravity elapsedMs =
      (shiftEpisode k (s.tickGravity elapsedMs).1, (s.tickGravity elapsedMs).2) :=
  shift_gravityLoop k s.dropIntervalMs (satAdd s.dropTimerMs elapsedMs).toNat
    { s with dropTimerMs := satAdd s.dropTimerMs elapsedMs } false

theorem shift_tick (k : UInt32) (s : GameState) (elapsedMs : UInt32) (softDrop : Bool) :
    (shiftEpisode k s).tick elapsedMs softDrop =
      (shiftEpisode k (s.tick elapsedMs softDrop).1, (s.tick elapsedMs softDrop).2) := by
  have hc : ((shiftEpisode k s).tickCounters elapsedMs).tickLineClear elapsedMs =
      shiftEpisode k ((s.tickCounters elapsedMs).tickLineClear elapsedMs) := rfl
  have hp : ((shiftEpisode k s).paused || (shiftEpisode k s).gameOver || !(shiftEpisode k s).started) =
      (s.paused || s.gameOver || !s.started) := rfl
  unfold GameState.tick
  rw [hp, hc]
  split
  · rfl
  · simp only
    generalize (s.tickCounters elapsedMs).tickLineClear elapsedMs = u
    have hl : (shiftEpisode k u).lineClearTimerMs = u.lineClearTimerMs := rfl
    rw [hl, shiftEpisode_active]
    split
    · rfl
    · rw [shift_tickSoftDrop, shift_tickGravity, shift_tickLockDelay]

theorem shift_restartWithSeed (k : UInt32) (s : GameState) (seed : UInt32) :
    ((shiftEpisode k s).restartWithSeed seed).1 = shiftEpisode k (s.restartWithSeed seed).1 := by
  have h : freshState seed ((shiftEpisode k s).episodeId + 1) =
      shiftEpisode k (freshState seed (s.episodeId + 1)) := by
    simp only [freshState, shiftEpisode]
    congr 1
    grind
  rw [restartWithSeed_eq, restartWithSeed_eq, h, shift_spawnPiece]

theorem shift_applyAction (k : UInt32) (s : GameState) (a : GameAction) :
    ((shiftEpisode k s).applyAction a).1 = shiftEpisode k (s.applyAction a).1 := by
  have hp : (shiftEpisode k s).paused = s.paused := rfl
  unfold GameState.applyAction
  rw [hp, shiftEpisode_gameOver]
  split
  · rfl
  · split
    · rfl
    · cases a with
      | MoveLeft => exact congrArg Prod.fst (shift_tryMove k s (-1) 0)
      | MoveRight => exact congrArg Prod.fst (shift_tryMove k s 1 0)
      | SoftDrop =>
        simp only [GameState.softDropStep, shift_tryMove]
        split <;> rfl
      | HardDrop => exact congrArg Prod.fst (shift_hardDropStep k s)
      | RotateCw => exact congrArg Prod.fst (shift_tryRotate k s true)
      | RotateCcw => exact congrArg Prod.fst (shift_tryRotate k s false)
      | Hold => exact congrArg Prod.fst (shift_applyHold k s)
      | Pause =>
        simp only [GameState.togglePause, hp]
        split <;> rfl
      | Restart => exact shift_restartWithSeed k s s.pieceQueue.rngState

theorem shift_apply (k : UInt32) (s : GameState) (op : Op) :
    op.apply (shiftEpisode k s) = shiftEpisode k (op.apply s) := by
  cases op with
  | action a => exact shift_applyAction k s a
  | tick elapsedMs softDrop => exact congrArg Prod.fst (shift_tick k s elapsedMs softDrop)
  | restart seed => exact shift_restartWithSeed k s seed
  | takeEvent => rfl

theorem shift_fallenState (k : UInt32) (s : GameState) (elapsedMs : UInt32) (softDrop : Bool) :
    fallenState (shiftEpisode k s) elapsedMs softDrop =
      (fallenState s elapsedMs softDrop).map (shiftEpisode k) := by
  have hc : ((shiftEpisode k s).tickCounters elapsedMs).tickLineClear elapsedMs =
      shiftEpisode k ((s.tickCounters elapsedMs).tickLineClear elapsedMs) := rfl
  have hp : ((shiftEpisode k s).paused || (shiftEpisode k s).gameOver || !(shiftEpisode k s).started) =
      (s.paused || s.gameOver || !s.started) := rfl
  unfold fallenState
  rw [hp, hc]
  split
  · rfl
  · simp only
    generalize (s.tickCounters elapsedMs).tickLineClear elapsedMs = u
    have hl : (shiftEpisode k u).lineClearTimerMs = u.lineClearTimerMs := rfl
    rw [hl, shiftEpisode_active]
    split
    · rfl
    · rw [shift_tickSoftDrop, shift_tickGravity]
      rfl

theorem shift_lockingState (k : UInt32) (s : GameState) (op : Op) :
    op.lockingState (shiftEpisode k s) = (op.lockingState s).map (shiftEpisode k) := by
  cases op with
  | action a =>
    cases a with
    | HardDrop =>
      have ha : accepts (shiftEpisode k s) .HardDrop = accepts s .HardDrop := rfl
      have hd (p : Tetromino) : dropState (shiftEpisode k s) p = shiftEpisode k (dropState s p) :=
        shift_dropActive k { s with lastActionWasRotate := false } p
      simp only [Op.lockingState, ha, shiftEpisode_active]
      split
      · cases s.active with
        | none => rfl
        | some p => exact congrArg some (hd p)
      · rfl
    | _ => rfl
  | tick elapsedMs softDrop =>
    simp only [Op.lockingState, shift_fallenState]
    cases fallenState s elapsedMs softDrop with
    | none => rfl
    | some u =>
      have hg : (shiftEpisode k u).isGrounded = u.isGrounded := rfl
      have ht : (shiftEpisode k u).lockTimerMs = u.lockTimerMs := rfl
      simp only [Option.map_some, Option.bind_some, hg, ht]
      split <;> rfl
  | restart seed => rfl
  | takeEvent => rfl

theorem shift_marks (k : UInt32) (s : GameState) (op : Op) :
    op.marks (shiftEpisode k s) = op.marks s := by
  have hm (u : GameState) : lockMark (shiftEpisode k u) = lockMark u := by
    unfold lockMark
    rw [shift_lockPiece, shiftEpisode_active]
    rfl
  unfold Op.marks
  rw [shift_lockingState]
  cases op.lockingState s with
  | none => rfl
  | some u => simp only [Option.map_some, Option.bind_some, hm]

theorem restart_start (s : GameState) (seed : UInt32) :
    (s.restartWithSeed seed).1 = shiftEpisode (s.episodeId + 1) (GameState.new seed).start := by
  have h : freshState seed (s.episodeId + 1) = shiftEpisode (s.episodeId + 1) (freshState seed 0) := by
    simp only [freshState, shiftEpisode, UInt32.zero_add]
  rw [restartWithSeed_eq, start_new, h, shift_spawnPiece]

/-- After a restart the game runs as a new one with this seed, whatever it was before; only its
episode counter is ahead. -/
theorem restart_forgets (s : GameState) (seed : UInt32) (ops : List Op) :
    run Op.apply s (.restart seed :: ops) =
      shiftEpisode (s.episodeId + 1) (run Op.apply (GameState.new seed).start ops) ∧
    trace Op.apply (fun s op => op.marks s) s (.restart seed :: ops) =
      .restart :: trace Op.apply (fun s op => op.marks s) (GameState.new seed).start ops := by
  have h : (Op.restart seed).apply s = shiftEpisode (s.episodeId + 1) (GameState.new seed).start :=
    restart_start s seed
  constructor
  · rw [run_cons, h]
    exact run_commutes (shift_apply _) _ ops
  · rw [trace, h, trace_commutes (shift_apply _) (shift_marks _)]
    rfl

end TuiTetris.CoreEpisodes
