import TuiTetris.CoreGameStateLoops
import TuiTetris.CoreBoardRows

set_option autoImplicit false

/-!
# What one operation can do

Most operations only glide the active piece or run timers. `Glides` says what
they leave alone, `Effect` lists the few other things an operation can do, and
`marks` the locks and restarts it performs. The invariants of the later modules
are derived from these and never unfold an operation again.
-/
namespace TuiTetris.CoreGameStateEffects
open CoreTypes CorePieces CoreBoard CoreRng CoreScoring CoreGameState CoreGameStateLoops CoreBoardRows

/-- The active piece keeps its kind and, if it fitted, fits where it is now. -/
structure Glides (s u : GameState) : Prop where
  board : u.board = s.board
  boardId : u.boardId = s.boardId
  hold : u.hold = s.hold
  nextQueue : u.nextQueue = s.nextQueue
  pieceQueue : u.pieceQueue = s.pieceQueue
  episodeId : u.episodeId = s.episodeId
  pieceId : u.pieceId = s.pieceId
  lastEvent : u.lastEvent = s.lastEvent
  level : u.level = s.level
  lines : u.lines = s.lines
  combo : u.combo = s.combo
  backToBack : u.backToBack = s.backToBack
  gameOver : u.gameOver = s.gameOver
  started : u.started = s.started
  canHold : u.canHold = s.canHold
  kind : u.active.map Tetromino.kind = s.active.map Tetromino.kind
  fits : (∀ p ∈ s.active, p.isValid s.board = true) → ∀ p ∈ u.active, p.isValid s.board = true

theorem Glides.refl (s : GameState) : Glides s s := by
  constructor <;> first | rfl | exact fun h => h

theorem Glides.trans {s u v : GameState} (h : Glides s u) (k : Glides u v) : Glides s v where
  board := k.board.trans h.board
  boardId := k.boardId.trans h.boardId
  hold := k.hold.trans h.hold
  nextQueue := k.nextQueue.trans h.nextQueue
  pieceQueue := k.pieceQueue.trans h.pieceQueue
  episodeId := k.episodeId.trans h.episodeId
  pieceId := k.pieceId.trans h.pieceId
  lastEvent := k.lastEvent.trans h.lastEvent
  level := k.level.trans h.level
  lines := k.lines.trans h.lines
  combo := k.combo.trans h.combo
  backToBack := k.backToBack.trans h.backToBack
  gameOver := k.gameOver.trans h.gameOver
  started := k.started.trans h.started
  canHold := k.canHold.trans h.canHold
  kind := k.kind.trans h.kind
  fits hs p hp := by
    have hu := k.fits (fun q hq => h.board ▸ h.fits hs q hq) p hp
    exact h.board ▸ hu

theorem glides_place (s : GameState) {p q : Tetromino} (hp : s.active = some p)
    (hk : q.kind = p.kind) (hq : (∀ p ∈ s.active, p.isValid s.board = true) → q.isValid s.board = true) :
    Glides s { s with active := some q } := by
  constructor <;> first | rfl | skip
  · simp [hp, hk]
  · intro h r hr
    cases hr
    exact hq h

theorem glides_idle (s : GameState) (activeId stepInPiece score dropTimerMs lockTimerMs : UInt32)
    (lockResetCount : UInt8) (lineClearTimerMs landingFlashMs : UInt32)
    (paused lastActionWasRotate : Bool) (softDropTimerMs : UInt32) (isSoftDropping : Bool) :
    Glides s { s with
      activeId, stepInPiece, score, dropTimerMs, lockTimerMs, lockResetCount, lineClearTimerMs,
      landingFlashMs, paused, lastActionWasRotate, softDropTimerMs, isSoftDropping } := by
  constructor <;> first | rfl | exact fun h => h

theorem glides_handleLockReset (s : GameState) : Glides s s.handleLockReset := by
  unfold GameState.handleLockReset
  split
  · exact glides_idle s ..
  · split
    · exact glides_idle s ..
    · exact .refl s

theorem shape_shift (b : Board) (shape : PieceShape) (x y dx dy : Int8) :
    (shape.all fun m => b.isValid (x + m.1 + dx) (y + m.2 + dy)) =
      shapeFits b.isValid shape (x + dx) (y + dy) := by
  unfold shapeFits
  congr 1
  funext m
  congr 1 <;> grind

theorem glides_tryMove (s : GameState) (dx dy : Int8) : Glides s (s.tryMove dx dy).1 := by
  unfold GameState.tryMove
  split
  · exact .refl s
  · next p hp =>
    rw [shape_shift]
    split
    · next h =>
      have hm := glides_place s (q := { p with x := p.x + dx, y := p.y + dy }) hp rfl (fun _ => h)
      have hr := hm.trans (glides_handleLockReset _)
      simp only
      split
      · exact hr.trans (glides_idle _ ..)
      · exact hr
    · exact .refl s

theorem glides_tryRotate (s : GameState) (clockwise : Bool) : Glides s (s.tryRotate clockwise).1 := by
  unfold GameState.tryRotate
  split
  · exact .refl s
  · next p hp =>
    split
    · exact .refl s
    · split
      · next shape rotation dx dy hr =>
        obtain ⟨hshape, -, hfits⟩ := tryRotate_fits hr
        have hm := glides_place s
          (q := { p with rotation := rotation, x := p.x + dx, y := p.y + dy }) hp rfl
          (fun _ => by rwa [hshape] at hfits)
        exact (hm.trans (glides_handleLockReset _)).trans (glides_idle _ ..)
      · exact .refl s

theorem glides_gravityLoop (interval : UInt32) (fuel : ℕ) (s : GameState) (changed : Bool) :
    Glides s (GameState.gravityLoop interval fuel s changed).1 := by
  induction fuel generalizing s changed with
  | zero => exact .refl s
  | succ fuel ih =>
    unfold GameState.gravityLoop
    split
    · exact ((glides_idle s ..).trans (glides_tryMove _ 0 1)).trans (ih _ _)
    · exact .refl s

theorem glides_tickGravity (s : GameState) (elapsedMs : UInt32) :
    Glides s (s.tickGravity elapsedMs).1 :=
  (glides_idle s ..).trans (glides_gravityLoop _ _ _ _)

theorem glides_tickSoftDrop (s : GameState) (elapsedMs : UInt32) (softDrop : Bool) :
    Glides s (s.tickSoftDrop elapsedMs softDrop) := by
  unfold GameState.tickSoftDrop
  cases softDrop
  · simp only [Bool.false_eq_true, if_false]
    split
    · exact glides_idle s ..
    · exact .refl s
  · simp only [if_true]
    split
    · exact glides_idle s ..
    · exact glides_idle s ..

theorem glides_softDropStep (s : GameState) : Glides s s.softDropStep.1 :=
  (glides_tryMove s 0 1).trans (glides_idle _ ..)

theorem glides_togglePause (s : GameState) : Glides s s.togglePause.1 := by
  unfold GameState.togglePause
  simp only
  split <;> exact glides_idle s ..

theorem dropDistance_valid (board : Board) (p : Tetromino)
    (hd : 0 < GameState.dropDistance board p) :
    Tetromino.isValid { p with y := p.y + Int8.ofNat (GameState.dropDistance board p) } board = true := by
  obtain ⟨-, hall, -⟩ := dropDistance_spec board p
  generalize GameState.dropDistance board p = d at hd hall
  obtain ⟨e, rfl⟩ : ∃ e, d = e + 1 := ⟨d - 1, by omega⟩
  have he := List.all_eq_true.mp (hall e (Nat.lt_succ_self e))
  apply List.all_eq_true.mpr
  intro m hm
  have hy : p.y + Int8.ofNat (e + 1) + m.2 = p.y + m.2 + Int8.ofNat e + 1 := by
    rw [show Int8.ofNat (e + 1) = Int8.ofNat e + 1 from Int8.ofNat_add e 1]
    grind
  rw [hy]
  exact he m hm

theorem glides_dropActive (s : GameState) (p : Tetromino) (hp : s.active = some p) :
    Glides s (s.dropActive p) := by
  unfold GameState.dropActive
  simp only
  split
  · next hd => exact glides_place s hp rfl fun _ => dropDistance_valid s.board p hd
  · exact .refl s

theorem dropActive_active (s : GameState) (p : Tetromino) (hp : s.active = some p) :
    (s.dropActive p).active =
      some { p with y := p.y + Int8.ofNat (GameState.dropDistance s.board p) } := by
  unfold GameState.dropActive
  simp only
  split
  · rfl
  · next hd =>
    have h0 : GameState.dropDistance s.board p = 0 := by omega
    rw [h0, hp]
    change some p = some { p with y := p.y + 0 }
    rw [Int8.add_zero]

/-- The operations a client of the core can call. -/
inductive Op where
  | action (a : GameAction)
  | tick (elapsedMs : UInt32) (softDrop : Bool)
  | restart (seed : UInt32)
  | takeEvent
  deriving DecidableEq, Repr

def Op.apply (s : GameState) : Op → GameState
  | .action a => (s.applyAction a).1
  | .tick elapsedMs softDrop => (s.tick elapsedMs softDrop).1
  | .restart seed => (s.restartWithSeed seed).1
  | .takeEvent => s.takeLastEvent.1

def accepts (s : GameState) (a : GameAction) : Bool :=
  !(s.gameOver && a ≠ .Restart) && !(s.paused && a ≠ .Pause && a ≠ .Restart)

/-- The state in which a tick comes to the lock delay, if it gets that far. -/
def fallenState (s : GameState) (elapsedMs : UInt32) (softDrop : Bool) : Option GameState :=
  if s.paused || s.gameOver || !s.started then none
  else
    let s := (s.tickCounters elapsedMs).tickLineClear elapsedMs
    if s.lineClearTimerMs > 0 || s.active.isNone then none
    else some ((s.tickSoftDrop elapsedMs softDrop).tickGravity elapsedMs).1

/-- The state in which a hard drop locks the active piece `p`. -/
def dropState (s : GameState) (p : Tetromino) : GameState :=
  { s with lastActionWasRotate := false }.dropActive p

/-- The state in which the operation calls `lock_piece` on an active piece, if it does. -/
def Op.lockingState (s : GameState) : Op → Option GameState
  | .action .HardDrop =>
    if accepts s .HardDrop then s.active.map (dropState s) else none
  | .tick elapsedMs softDrop =>
    (fallenState s elapsedMs softDrop).bind fun u =>
      if u.isGrounded && satAdd u.lockTimerMs elapsedMs ≥ lockDelayMs then
        some { u with lockTimerMs := 0, dropTimerMs := 0 }
      else none
  | _ => none

def Op.restarts : Op → Bool
  | .action .Restart => true
  | .restart _ => true
  | _ => false

/-- What an observer of the game keeps record of. -/
inductive Mark where
  | restart
  | lock (kind : PieceKind) (event : CoreLastEvent)
  deriving DecidableEq, Repr

def lockMark (u : GameState) : Option Mark :=
  u.active.bind fun p => u.lockPiece.lastEvent.map (Mark.lock p.kind)

def Op.marks (s : GameState) (op : Op) : List Mark :=
  if op.restarts then [.restart] else ((op.lockingState s).bind lockMark).toList

def incoming (s : GameState) : Tetromino := .new s.pieceQueue.draw.1

theorem spawnPiece_open (s : GameState) (h : (incoming s).isValid s.board = true) :
    s.spawnPiece = (s.installPiece (incoming s) s.pieceQueue.draw.2, true) := by
  unfold GameState.spawnPiece
  rw [peek_eq_draw]
  exact if_pos h

theorem spawnPiece_blocked (s : GameState) (h : (incoming s).isValid s.board = false) :
    s.spawnPiece = ({ s with gameOver := true }, false) := by
  unfold GameState.spawnPiece
  rw [peek_eq_draw]
  exact if_neg (Bool.eq_false_iff.mp h)

structure Spawns (s u : GameState) : Prop where
  board : u.board = s.board
  boardId : u.boardId = s.boardId
  hold : u.hold = s.hold
  episodeId : u.episodeId = s.episodeId
  lastEvent : u.lastEvent = s.lastEvent
  started : u.started = s.started

theorem spawns_spawnPiece (s : GameState) : Spawns s s.spawnPiece.1 := by
  cases h : (incoming s).isValid s.board with
  | true =>
    rw [spawnPiece_open s h]
    constructor <;> rfl
  | false =>
    rw [spawnPiece_blocked s h]
    constructor <;> rfl

structure Settles (s u : GameState) : Prop where
  active : u.active = none
  hold : u.hold = s.hold
  nextQueue : u.nextQueue = s.nextQueue
  pieceQueue : u.pieceQueue = s.pieceQueue
  episodeId : u.episodeId = s.episodeId
  pieceId : u.pieceId = s.pieceId
  gameOver : u.gameOver = s.gameOver
  started : u.started = s.started
  canHold : u.canHold = s.canHold

theorem settles_recordLock (s : GameState) (n : ℕ) (tspin : TSpinKind) (h : s.active = none) :
    Settles s (s.recordLock n tspin) := by
  unfold GameState.recordLock GameState.applyLineClear
  split <;> constructor <;> first | rfl | exact h

theorem recordLock_board (s : GameState) (n : ℕ) (tspin : TSpinKind) :
    (s.recordLock n tspin).board = s.board ∧ (s.recordLock n tspin).boardId = s.boardId := by
  unfold GameState.recordLock GameState.applyLineClear
  split <;> exact ⟨rfl, rfl⟩

theorem recordLock_lastEvent (s : GameState) (n : ℕ) (tspin : TSpinKind) :
    (s.recordLock n tspin).lastEvent.isSome = true := rfl

theorem settles_settleLock (s : GameState) (p : Tetromino) : Settles s (s.settleLock p) := by
  unfold GameState.settleLock
  have h := settles_recordLock
  exact ⟨(h _ _ _ rfl).active, (h _ _ _ rfl).hold, (h _ _ _ rfl).nextQueue, (h _ _ _ rfl).pieceQueue,
    (h _ _ _ rfl).episodeId, (h _ _ _ rfl).pieceId, (h _ _ _ rfl).gameOver, (h _ _ _ rfl).started,
    (h _ _ _ rfl).canHold⟩

theorem settleLock_board (s : GameState) (p : Tetromino) :
    (s.settleLock p).board = (s.board.lockPiece p.shape p.x p.y p.kind).1.clearFullRows.1 :=
  (recordLock_board _ _ _).1

theorem settleLock_boardId (s : GameState) (p : Tetromino) (h : p.isValid s.board = true) :
    (s.settleLock p).boardId = s.boardId + 1 := by
  have hl : (s.board.lockPiece p.shape p.x p.y p.kind).2 = true := (lockPiece_fits _ _ _ _ _ h).1
  refine (recordLock_board _ _ _).2.trans ?_
  simp only [hl, Bool.true_or, if_true]

theorem lockPiece_eq (s : GameState) (p : Tetromino) (hp : s.active = some p)
    (hg : s.gameOver = false) : s.lockPiece = (s.settleLock p).spawnPiece.1 := by
  have h := (settles_settleLock s p).gameOver
  unfold GameState.lockPiece
  rw [hp]
  simp only [h, hg, Bool.false_eq_true, if_false]

theorem lockPiece_lastEvent (s : GameState) (p : Tetromino) (hp : s.active = some p)
    (hg : s.gameOver = false) : ∃ e, s.lockPiece.lastEvent = some e := by
  rw [lockPiece_eq s p hp hg, (spawns_spawnPiece _).lastEvent]
  exact Option.isSome_iff_exists.mp (recordLock_lastEvent _ _ _)

theorem lockMark_active {v : GameState} {p : Tetromino} (hp : v.active = some p)
    (hg : v.gameOver = false) :
    ∃ e, v.lockPiece.lastEvent = some e ∧ lockMark v = some (.lock p.kind e) := by
  obtain ⟨e, he⟩ := lockPiece_lastEvent v p hp hg
  refine ⟨e, he, ?_⟩
  unfold lockMark
  rw [hp, Option.bind_some, he, Option.map_some]

theorem applyHold_empty (s : GameState) (p : Tetromino) (hp : s.active = some p)
    (hc : s.canHold = true) (hh : s.hold = none) :
    s.applyHold = (GameState.finishHold { s with hold := some p.kind }.spawnPiece.1, true) := by
  unfold GameState.applyHold
  rw [if_neg (by rw [hc]; decide)]
  split
  · next h => cases hp.symm.trans h
  · next q hq =>
    cases hp.symm.trans hq
    split
    · next h => cases hh.symm.trans h
    · rfl

def swapHold (s : GameState) (p : Tetromino) (k : PieceKind) : GameState :=
  { s with
    active := some (.new k), hold := some p.kind, activeId := s.activeId + 1, stepInPiece := 0 }

theorem applyHold_swap (s : GameState) (p : Tetromino) (k : PieceKind) (hp : s.active = some p)
    (hc : s.canHold = true) (hh : s.hold = some k) :
    s.applyHold = if (Tetromino.new k).isValid s.board then ((swapHold s p k).finishHold, true)
      else ({ swapHold s p k with gameOver := true, active := none }, false) := by
  unfold GameState.applyHold
  rw [if_neg (by rw [hc]; decide)]
  split
  · next h => cases hp.symm.trans h
  · next q hq =>
    cases hp.symm.trans hq
    split
    · next k' h =>
      cases hh.symm.trans h
      rfl
    · next h => cases hh.symm.trans h

/-- Everything one operation can do, with the marks it leaves. -/
inductive Effect (s : GameState) (op : Op) : List Mark → GameState → Prop where
  | glide {u : GameState} (h : Glides s u) : Effect s op [] u
  | taken (ho : op = .takeEvent) : Effect s op [] { s with lastEvent := none }
  | held (p : Tetromino) (ho : op = .action .Hold) (ha : accepts s .Hold = true)
      (hp : s.active = some p) (hc : s.canHold = true) : Effect s op [] s.applyHold.1
  | locked {v : GameState} (p : Tetromino) (e : CoreLastEvent) (score : UInt32) (h : Glides s v)
      (hp : v.active = some p) (hg : s.gameOver = false) (he : v.lockPiece.lastEvent = some e) :
      Effect s op [.lock p.kind e] { v.lockPiece with score := score }
  | restarted (seed : UInt32) (hr : op.restarts = true) :
      Effect s op [.restart] (s.restartWithSeed seed).1

theorem effect_takeEvent (s : GameState) :
    Effect s .takeEvent (Op.takeEvent.marks s) (Op.takeEvent.apply s) :=
  .taken rfl

theorem effect_restart (s : GameState) (seed : UInt32) :
    Effect s (.restart seed) ((Op.restart seed).marks s) ((Op.restart seed).apply s) :=
  .restarted seed rfl

theorem effect_lock {s v : GameState} (op : Op) (p : Tetromino) (score : UInt32) (h : Glides s v)
    (hp : v.active = some p) (hg : s.gameOver = false) :
    Effect s op (lockMark v).toList { v.lockPiece with score := score } := by
  obtain ⟨e, he, hm⟩ := lockMark_active hp (h.gameOver.trans hg)
  rw [hm]
  exact .locked p e score h hp hg he

theorem effect_hold (s : GameState) (ha : accepts s .Hold = true) :
    Effect s (.action .Hold) [] s.applyHold.1 := by
  cases hc : s.canHold with
  | false =>
    have h : s.applyHold.1 = s := by simp [GameState.applyHold, hc]
    rw [h]
    exact .glide (.refl s)
  | true =>
    cases hp : s.active with
    | none =>
      have h : s.applyHold.1 = s := by simp [GameState.applyHold, hc, hp]
      rw [h]
      exact .glide (.refl s)
    | some p => exact .held p rfl ha hp hc

theorem applyAction_rejected (s : GameState) (a : GameAction) (h : accepts s a = false) :
    s.applyAction a = (s, false) := by
  unfold GameState.applyAction
  simp only [accepts, Bool.and_eq_false_iff, Bool.not_eq_false'] at h
  rcases h with h | h
  · rw [if_pos h]
  · by_cases ho : (s.gameOver && a ≠ .Restart) = true
    · rw [if_pos ho]
    · rw [if_neg ho, if_pos h]

theorem accepts_iff (s : GameState) (a : GameAction) : accepts s a = true ↔
    ¬(s.gameOver && a ≠ .Restart) = true ∧ ¬(s.paused && a ≠ .Pause && a ≠ .Restart) = true := by
  rw [accepts, Bool.and_eq_true, Bool.not_eq_true', Bool.not_eq_true', Bool.not_eq_true,
    Bool.not_eq_true]

theorem accepts_gameOver {s : GameState} {a : GameAction} (h : accepts s a = true)
    (ha : a ≠ .Restart) : s.gameOver = false := by
  have ho := ((accepts_iff s a).mp h).1
  simpa [ha] using ho

theorem glides_dropState (s : GameState) (p : Tetromino) (hp : s.active = some p) :
    Glides s (dropState s p) :=
  Glides.trans (glides_idle s ..) (glides_dropActive _ p hp)

theorem hardDropStep_some (s : GameState) (p : Tetromino) (hp : s.active = some p) :
    s.hardDropStep.1 = { (dropState s p).lockPiece with
      score := satAdd (dropState s p).lockPiece.score
        (calculateDropScore (UInt32.ofNat (GameState.dropDistance s.board p)) true) } := by
  unfold GameState.hardDropStep GameState.hardDrop
  simp only [hp]
  rw [← hp]
  rfl

theorem hardDropStep_none (s : GameState) (hp : s.active = none) :
    s.hardDropStep.1 = { s with lastActionWasRotate := false, score := satAdd s.score 0 } := by
  unfold GameState.hardDropStep GameState.hardDrop
  simp only [hp]

theorem effect_hardDrop (s : GameState) (h : accepts s .HardDrop = true) :
    Effect s (.action .HardDrop) ((Op.action .HardDrop).marks s) s.hardDropStep.1 := by
  have hg := accepts_gameOver h (by decide)
  simp only [Op.marks, Op.restarts, Op.lockingState, h, if_true, Bool.false_eq_true, if_false]
  cases hp : s.active with
  | none =>
    rw [hardDropStep_none s hp]
    exact .glide (glides_idle s ..)
  | some p =>
    rw [hardDropStep_some s p hp]
    exact effect_lock _ _ _ (glides_dropState s p hp) (dropActive_active _ p hp) hg

theorem effect_action (s : GameState) (a : GameAction) :
    Effect s (.action a) ((Op.action a).marks s) ((Op.action a).apply s) := by
  change Effect s (.action a) _ (s.applyAction a).1
  cases h : accepts s a with
  | false =>
    rw [applyAction_rejected s a h]
    have hm : (Op.action a).marks s = [] := by
      cases a <;> simp_all [Op.marks, Op.restarts, Op.lockingState, accepts]
    rw [hm]
    exact .glide (.refl s)
  | true =>
    obtain ⟨ho, hp⟩ := (accepts_iff s a).mp h
    unfold GameState.applyAction
    rw [if_neg ho, if_neg hp]
    cases a with
    | MoveLeft => exact .glide (glides_tryMove s (-1) 0)
    | MoveRight => exact .glide (glides_tryMove s 1 0)
    | SoftDrop => exact .glide (glides_softDropStep s)
    | HardDrop => exact effect_hardDrop s h
    | RotateCw => exact .glide (glides_tryRotate s true)
    | RotateCcw => exact .glide (glides_tryRotate s false)
    | Hold => exact effect_hold s h
    | Pause => exact .glide (glides_togglePause s)
    | Restart => exact .restarted _ rfl

/-- A tick that gets to the lock delay has only glided, and hands it an active piece in play. -/
theorem glides_fallenState {s u : GameState} {elapsedMs : UInt32} {softDrop : Bool}
    (h : fallenState s elapsedMs softDrop = some u) :
    Glides s u ∧ s.gameOver = false ∧ u.active.isSome = true := by
  unfold fallenState at h
  split at h
  · cases h
  · next hplay =>
    simp only at h
    split at h
    · cases h
    · next hrun =>
      simp only [Option.some.injEq] at h
      subst h
      have hg : s.gameOver = false := by simp_all
      have ha : s.active.isSome = true := by
        simp only [Bool.or_eq_true, not_or, Bool.not_eq_true, Option.isNone_eq_false_iff] at hrun
        exact hrun.2
      have h1 : Glides s ((s.tickCounters elapsedMs).tickLineClear elapsedMs) :=
        (glides_idle s ..).trans (glides_idle _ ..)
      have h2 := (h1.trans (glides_tickSoftDrop _ elapsedMs softDrop)).trans
        (glides_tickGravity _ elapsedMs)
      refine ⟨h2, hg, ?_⟩
      have hk := congrArg Option.isSome h2.kind
      rw [Option.isSome_map, Option.isSome_map] at hk
      exact hk.trans ha

theorem tick_fallenState (s : GameState) (elapsedMs : UInt32) (softDrop : Bool) :
    match fallenState s elapsedMs softDrop with
    | none => Glides s (s.tick elapsedMs softDrop).1
    | some u => ∃ changed, s.tick elapsedMs softDrop = u.tickLockDelay elapsedMs changed := by
  unfold fallenState GameState.tick
  by_cases hp : (s.paused || s.gameOver || !s.started) = true
  · simp only [hp, if_true]
    exact .refl s
  · have ht : Glides s ((s.tickCounters elapsedMs).tickLineClear elapsedMs) :=
      (glides_idle s ..).trans (glides_idle _ ..)
    simp only [hp]
    generalize (s.tickCounters elapsedMs).tickLineClear elapsedMs = t at ht
    by_cases hr : (decide (t.lineClearTimerMs > 0) || t.active.isNone) = true
    · simp only [hr, if_true]
      exact ht
    · simp only [hr]
      exact ⟨_, rfl⟩

theorem effect_tick (s : GameState) (elapsedMs : UInt32) (softDrop : Bool) :
    Effect s (.tick elapsedMs softDrop) ((Op.tick elapsedMs softDrop).marks s)
      ((Op.tick elapsedMs softDrop).apply s) := by
  change Effect s (.tick elapsedMs softDrop) _ (s.tick elapsedMs softDrop).1
  have ht := tick_fallenState s elapsedMs softDrop
  simp only [Op.marks, Op.restarts, Op.lockingState, Bool.false_eq_true, if_false]
  cases hf : fallenState s elapsedMs softDrop with
  | none =>
    rw [hf] at ht
    exact .glide ht
  | some u =>
    rw [hf] at ht
    obtain ⟨changed, ht⟩ := ht
    obtain ⟨hu, hg, ha⟩ := glides_fallenState hf
    obtain ⟨p, hp⟩ := Option.isSome_iff_exists.mp ha
    rw [ht]
    simp only [Option.bind_some]
    unfold GameState.tickLockDelay
    by_cases hgr : u.isGrounded = true
    · by_cases hd : satAdd u.lockTimerMs elapsedMs ≥ lockDelayMs
      · simp only [hgr, hd, decide_true, Bool.and_self, if_true]
        exact effect_lock _ p _ (hu.trans (glides_idle u ..)) hp hg
      · simp only [hgr, hd, decide_false, Bool.and_false, if_true, Bool.false_eq_true, if_false]
        exact .glide (hu.trans (glides_idle u ..))
    · simp only [hgr, Bool.false_and, Bool.false_eq_true, if_false]
      exact .glide (hu.trans (glides_idle u ..))

/-- An operation that locks has only glided to the state in which it calls `lock_piece`. -/
theorem lockingState_spec {s v : GameState} {op : Op} (h : op.lockingState s = some v) :
    ∃ p score, Glides s v ∧ v.active = some p ∧ s.gameOver = false ∧
      op.apply s = { v.lockPiece with score := score } := by
  cases op with
  | action a =>
    cases a with
    | HardDrop =>
      simp only [Op.lockingState] at h
      split at h
      · next ha =>
        obtain ⟨p, hp, rfl⟩ := Option.map_eq_some_iff.mp h
        obtain ⟨ho, hpaused⟩ := (accepts_iff s .HardDrop).mp ha
        have hu : (s.applyAction .HardDrop).1 = s.hardDropStep.1 := by
          unfold GameState.applyAction
          rw [if_neg ho, if_neg hpaused]
        exact ⟨_, _, glides_dropState s p hp, dropActive_active _ p hp,
          accepts_gameOver ha (by decide), hu.trans (hardDropStep_some s p hp)⟩
      · cases h
    | _ => cases h
  | tick elapsedMs softDrop =>
    obtain ⟨u, hu, hv⟩ := Option.bind_eq_some_iff.mp h
    have ht := tick_fallenState s elapsedMs softDrop
    rw [hu] at ht
    obtain ⟨changed, ht⟩ := ht
    obtain ⟨hglide, hg, ha⟩ := glides_fallenState hu
    obtain ⟨p, hp⟩ := Option.isSome_iff_exists.mp ha
    split at hv
    · next hlock =>
      cases hv
      obtain ⟨hgr, hd⟩ := Bool.and_eq_true_iff.mp hlock
      have hu : (s.tick elapsedMs softDrop).1 =
          { u with lockTimerMs := 0, dropTimerMs := 0 }.lockPiece := by
        rw [ht]
        unfold GameState.tickLockDelay
        rw [if_pos hgr, if_pos (of_decide_eq_true hd)]
      exact ⟨p, _, hglide.trans (glides_idle u ..), hp, hg, hu⟩
    · cases hv
  | restart seed => cases h
  | takeEvent => cases h

theorem marks_unlocked {s : GameState} {op : Op} (hr : op.restarts = false)
    (h : op.lockingState s = none) : op.marks s = [] := by
  unfold Op.marks
  rw [hr, if_neg (by decide), h]
  rfl

theorem marks_locking {s v : GameState} {op : Op} (h : op.lockingState s = some v) :
    op.marks s = (lockMark v).toList := by
  have hr : op.restarts = false := by
    cases op with
    | action a => cases a <;> first | rfl | cases h
    | restart seed => cases h
    | _ => rfl
  unfold Op.marks
  rw [hr, if_neg (by decide), h, Option.bind_some]

/-- The inversion of one operation. -/
theorem effect (s : GameState) (op : Op) : Effect s op (op.marks s) (op.apply s) := by
  cases op with
  | action a => exact effect_action s a
  | tick elapsedMs softDrop => exact effect_tick s elapsedMs softDrop
  | restart seed => exact effect_restart s seed
  | takeEvent => exact effect_takeEvent s

end TuiTetris.CoreGameStateEffects
