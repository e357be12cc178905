import TuiTetris.CoreBoard
import TuiTetris.CoreRng
import TuiTetris.CoreScoring

set_option autoImplicit false

/-!
# The complete game state and its operations

Methods that mutate `self` return the new state, with the source's return value
beside it. Loops of the source carry a fuel argument, which is never what stops
them.
-/
namespace TuiTetris.CoreGameState
open CoreTypes CorePieces CoreBoard CoreRng CoreScoring

structure Tetromino where
  kind : PieceKind
  rotation : Rotation
  x : Int8
  y : Int8
  deriving DecidableEq, Repr

namespace Tetromino

def new (kind : PieceKind) : Tetromino := ⟨kind, .North, 3, 0⟩

def shape (p : Tetromino) : PieceShape := getShape p.kind p.rotation

def isValid (p : Tetromino) (board : Board) : Bool := shapeFits board.isValid p.shape p.x p.y

def isGrounded (p : Tetromino) (board : Board) : Bool :=
  p.shape.any fun m => !board.isValid (p.x + m.1) (p.y + m.2 + 1)

end Tetromino

structure GameState where
  board : Board
  boardId : UInt32
  active : Option Tetromino
  hold : Option PieceKind
  nextQueue : Vector PieceKind 5
  pieceQueue : PieceQueue
  episodeId : UInt32
  pieceId : UInt32
  activeId : UInt32
  stepInPiece : UInt32
  lastEvent : Option CoreLastEvent
  score : UInt32
  level : UInt32
  lines : UInt32
  combo : Int32
  backToBack : Bool
  dropTimerMs : UInt32
  lockTimerMs : UInt32
  lockResetCount : UInt8
  lineClearTimerMs : UInt32
  landingFlashMs : UInt32
  paused : Bool
  gameOver : Bool
  started : Bool
  canHold : Bool
  lastActionWasRotate : Bool
  softDropTimerMs : UInt32
  isSoftDropping : Bool
  deriving DecidableEq

/-- Steps the loop takes while `canDrop` allows one more row, `fuel` rows at most. -/
def dropLoop (canDrop : ℕ → Bool) : ℕ → ℕ → ℕ
  | 0, distance => distance
  | fuel + 1, distance =>
    if canDrop distance then dropLoop canDrop fuel (distance + 1) else distance

/-- The same loop with the `i8` counter of `ghost_y`. -/
def ghostLoop (canDrop : Int8 → Bool) : ℕ → Int8 → Int8
  | 0, distance => distance
  | fuel + 1, distance =>
    if canDrop distance then ghostLoop canDrop fuel (distance + 1) else distance

namespace GameState

def new (seed : UInt32) : GameState :=
  let pieceQueue := PieceQueue.new seed
  { board := Board.new, boardId := 0, active := none, hold := none,
    nextQueue := pieceQueue.peek5, pieceQueue, episodeId := 0, pieceId := 0, activeId := 0,
    stepInPiece := 0, lastEvent := none, score := 0, level := 0, lines := 0, combo := -1,
    backToBack := false, dropTimerMs := 0, lockTimerMs := 0, lockResetCount := 0,
    lineClearTimerMs := 0, landingFlashMs := 0, paused := false, gameOver := false,
    started := false, canHold := true, lastActionWasRotate := false, softDropTimerMs := 0,
    isSoftDropping := false }

/-- The fields set by a spawn whose position has been validated. -/
def installPiece (s : GameState) (piece : Tetromino) (pieceQueue : PieceQueue) : GameState :=
  { s with
    active := some piece, nextQueue := pieceQueue.peek5, pieceQueue, pieceId := s.pieceId + 1,
    activeId := s.activeId + 1, stepInPiece := 0, canHold := true, lockTimerMs := 0,
    lockResetCount := 0, lastActionWasRotate := false }

/-- Spawn from the queue; nothing is consumed when the spawn area is blocked. -/
def spawnPiece (s : GameState) : GameState × Bool :=
  match s.pieceQueue.peek with
  | none => ({ s with gameOver := true }, false)
  | some kind =>
    let piece := Tetromino.new kind
    if piece.isValid s.board then (s.installPiece piece s.pieceQueue.draw.2, true)
    else ({ s with gameOver := true }, false)

def start (s : GameState) : GameState :=
  if s.started then s else { s with started := true }.spawnPiece.1

def dropIntervalMs (s : GameState) : UInt32 :=
  let base := getDropIntervalMs s.level
  if s.isSoftDropping then base / softDropMultiplier else base

def isGrounded (s : GameState) : Bool :=
  match s.active with
  | some piece => piece.isGrounded s.board
  | none => false

def handleLockReset (s : GameState) : GameState :=
  if !s.isGrounded then { s with lockTimerMs := 0, lockResetCount := 0 }
  else if s.lockResetCount < lockResetLimit then
    { s with lockTimerMs := 0, lockResetCount := s.lockResetCount + 1 }
  else s

def tryMove (s : GameState) (dx dy : Int8) : GameState × Bool :=
  match s.active with
  | none => (s, false)
  | some active =>
    if active.shape.all fun m => s.board.isValid (active.x + m.1 + dx) (active.y + m.2 + dy) then
      let moved := { s with
        active := some { active with x := active.x + dx, y := active.y + dy } }.handleLockReset
      (if dx ≠ 0 then { moved with lastActionWasRotate := false } else moved, true)
    else (s, false)

def tryRotate (s : GameState) (clockwise : Bool) : GameState × Bool :=
  match s.active with
  | none => (s, false)
  | some active =>
    if active.kind = .O then (s, false)
    else
      match CorePieces.tryRotate active.kind active.rotation active.x active.y clockwise
          s.board.isValid with
      | some (_, rotation, dx, dy) =>
        let rotated := { s with
          active := some { active with
            rotation, x := active.x + dx, y := active.y + dy } }.handleLockReset
        ({ rotated with lastActionWasRotate := true }, true)
      | none => (s, false)

def filledCorners (s : GameState) (piece : Tetromino) (corners : List (Int8 × Int8)) : ℕ :=
  (corners.filter fun c => !s.board.isValid (piece.x + c.1) (piece.y + c.2)).length

def frontCorners : Rotation → List (Int8 × Int8)
  | .North => [(0, 0), (2, 0)]
  | .East => [(2, 0), (2, 2)]
  | .South => [(0, 2), (2, 2)]
  | .West => [(0, 0), (0, 2)]

def tSpinKind (s : GameState) (piece : Tetromino) : TSpinKind :=
  if !s.lastActionWasRotate then .None
  else if s.filledCorners piece [(0, 0), (2, 0), (0, 2), (2, 2)] ≥ 3 then
    if s.filledCorners piece (frontCorners piece.rotation) = 2 then .Full else .Mini
  else .None

/-- Returns the base clear points of the event: B2B included, combo excluded. -/
def applyLineClear (s : GameState) (linesCleared : ℕ) (tspin : TSpinKind) : GameState × UInt32 :=
  if linesCleared = 0 then
    let tspinPoints := match tspin with
      | .Full => calculateTspinScore .Full 0 s.level
      | .Mini => calculateTspinScore .Mini 0 s.level
      | .None => 0
    ({ s with combo := -1, backToBack := false, score := satAdd s.score tspinPoints }, 0)
  else
    let comboAfterClear := satSucc s.combo
    let result := calculateScore linesCleared s.level tspin comboAfterClear s.backToBack
    let lines := satAdd s.lines (UInt32.ofNat linesCleared)
    ({ s with
      combo := comboAfterClear, lines, level := lines / 10,
      backToBack := result.qualifiesForB2b, score := satAdd s.score result.total,
      lineClearTimerMs := lineClearPauseMs, landingFlashMs := CoreTypes.landingFlashMs },
      result.lineClearScore)

def lockTspin (s : GameState) (active : Tetromino) (lockSuccess : Bool) : TSpinKind :=
  if lockSuccess && active.kind = .T then s.tSpinKind active else .None

/-- Only a lock that cleared lines reports its T-spin. -/
def reportedTspin (linesCleared : ℕ) (tspin : TSpinKind) : Option TSpinKind :=
  if linesCleared > 0 then
    match tspin with
    | .None => none
    | .Mini => some .Mini
    | .Full => some .Full
  else none

/-- Second half of `lock_piece`: score the clear and emit the event of this lock. -/
def recordLock (s : GameState) (linesCleared : ℕ) (tspin : TSpinKind) : GameState :=
  let r := s.applyLineClear linesCleared tspin
  { r.1 with lastEvent := some {
      locked := true, linesCleared := UInt32.ofNat linesCleared, lineClearScore := r.2,
      tspin := reportedTspin linesCleared tspin, combo := r.1.combo,
      backToBack := r.1.backToBack } }

/-- `lock_piece` up to the spawn of the next piece. -/
def settleLock (s : GameState) (active : Tetromino) : GameState :=
  let locked := s.board.lockPiece active.shape active.x active.y active.kind
  let s := { s with
    landingFlashMs := CoreTypes.landingFlashMs, board := locked.1, active := none }
  let tspin := s.lockTspin active locked.2
  let cleared := s.board.clearFullRows
  let linesCleared := cleared.2.length
  let s := { s with
    board := cleared.1,
    boardId := if locked.2 || linesCleared > 0 then s.boardId + 1 else s.boardId }
  s.recordLock linesCleared tspin

def lockPiece (s : GameState) : GameState :=
  match s.active with
  | none => s
  | some active =>
    let s := s.settleLock active
    if s.gameOver then s else s.spawnPiece.1

/-- How far the piece can fall; `boardHeight` rows of fuel. -/
def dropDistance (board : Board) (active : Tetromino) : ℕ :=
  dropLoop (fun d => active.shape.all fun m =>
    board.isValid (active.x + m.1) (active.y + m.2 + Int8.ofNat d + 1)) boardHeight 0

def dropActive (s : GameState) (active : Tetromino) : GameState :=
  let distance := dropDistance s.board active
  if distance > 0 then { s with active := some { active with y := active.y + Int8.ofNat distance } }
  else s

def hardDrop (s : GameState) : GameState × UInt32 :=
  match s.active with
  | none => (s, 0)
  | some active =>
    ((s.dropActive active).lockPiece,
      calculateDropScore (UInt32.ofNat (dropDistance s.board active)) true)

/-- What both branches of `hold` reset when they run to the end. -/
def finishHold (s : GameState) : GameState :=
  { s with canHold := false, lockTimerMs := 0, lockResetCount := 0, lastActionWasRotate := false }

/-- The method `hold` of the source. -/
def applyHold (s : GameState) : GameState × Bool :=
  if !s.canHold then (s, false)
  else
    match s.active with
    | none => (s, false)
    | some active =>
      match s.hold with
      | some holdKind =>
        let piece := Tetromino.new holdKind
        let s := { s with
          active := some piece, hold := some active.kind, activeId := s.activeId + 1,
          stepInPiece := 0 }
        if piece.isValid s.board then (s.finishHold, true)
        else ({ s with gameOver := true, active := none }, false)
      | none => ({ s with hold := some active.kind }.spawnPiece.1.finishHold, true)

def ghostY (s : GameState) : Option Int8 :=
  s.active.map fun active =>
    active.y + ghostLoop (fun d => active.shape.all fun m =>
      s.board.isValid (active.x + m.1) (active.y + m.2 + d + 1)) boardHeight 0

/-- Landing flash and step counter run even during the line clear pause. -/
def tickCounters (s : GameState) (elapsedMs : UInt32) : GameState :=
  { s with
    landingFlashMs := satSub s.landingFlashMs elapsedMs,
    stepInPiece := if s.active.isSome then s.stepInPiece + 1 else s.stepInPiece }

def tickLineClear (s : GameState) (elapsedMs : UInt32) : GameState :=
  { s with lineClearTimerMs := satSub s.lineClearTimerMs elapsedMs }

def tickSoftDrop (s : GameState) (elapsedMs : UInt32) (softDrop : Bool) : GameState :=
  let s := if softDrop then { s with isSoftDropping := true, softDropTimerMs := softDropGraceMs }
    else s
  if s.isSoftDropping && s.softDropTimerMs > 0 then
    let timer := satSub s.softDropTimerMs elapsedMs
    { s with
      softDropTimerMs := timer,
      isSoftDropping := if timer = 0 then false else s.isSoftDropping }
  else s

/-- The `while` loop of gravity; every turn takes one interval off the timer. -/
def gravityLoop (dropInterval : UInt32) : ℕ → GameState → Bool → GameState × Bool
  | 0, s, changed => (s, changed)
  | fuel + 1, s, changed =>
    if s.dropTimerMs ≥ dropInterval then
      let r := { s with dropTimerMs := s.dropTimerMs - dropInterval }.tryMove 0 1
      gravityLoop dropInterval fuel r.1 (changed || r.2)
    else (s, changed)

/-- The timer itself is enough fuel, as no interval is zero. -/
def tickGravity (s : GameState) (elapsedMs : UInt32) : GameState × Bool :=
  let timer := satAdd s.dropTimerMs elapsedMs
  gravityLoop s.dropIntervalMs timer.toNat { s with dropTimerMs := timer } false

/-- Lock delay: the state in which the piece locks when the delay has run out. -/
def tickLockDelay (s : GameState) (elapsedMs : UInt32) (changed : Bool) : GameState × Bool :=
  if s.isGrounded then
    let timer := satAdd s.lockTimerMs elapsedMs
    if timer ≥ lockDelayMs then ({ s with lockTimerMs := 0, dropTimerMs := 0 }.lockPiece, true)
    else ({ s with lockTimerMs := timer }, changed)
  else ({ s with lockTimerMs := 0, lockResetCount := 0 }, changed)

def tick (s : GameState) (elapsedMs : UInt32) (softDrop : Bool) : GameState × Bool :=
  if s.paused || s.gameOver || !s.started then (s, false)
  else
    let s := (s.tickCounters elapsedMs).tickLineClear elapsedMs
    if s.lineClearTimerMs > 0 || s.active.isNone then (s, false)
    else
      let r := (s.tickSoftDrop elapsedMs softDrop).tickGravity elapsedMs
      r.1.tickLockDelay elapsedMs r.2

/-- The fresh episode keeps nothing of the old state but the episode counter. -/
def restartWithSeed (s : GameState) (seed : UInt32) : GameState × Bool :=
  let nextEpisode := s.episodeId + 1
  ({ GameState.new seed with episodeId := nextEpisode }.start, true)

def softDropStep (s : GameState) : GameState × Bool :=
  let r := s.tryMove 0 1
  let score := if r.2 then satAdd r.1.score (calculateDropScore 1 false) else r.1.score
  ({ r.1 with
    score, isSoftDropping := true, softDropTimerMs := softDropGraceMs,
    lastActionWasRotate := false }, r.2)

def hardDropStep (s : GameState) : GameState × Bool :=
  let r := { s with lastActionWasRotate := false }.hardDrop
  ({ r.1 with score := satAdd r.1.score r.2 }, true)

def togglePause (s : GameState) : GameState × Bool :=
  let s := { s with paused := !s.paused }
  (if s.paused then { s with isSoftDropping := false, softDropTimerMs := 0 } else s, true)

def applyAction (s : GameState) (action : GameAction) : GameState × Bool :=
  if s.gameOver && action ≠ .Restart then (s, false)
  else if s.paused && action ≠ .Pause && action ≠ .Restart then (s, false)
  else
    match action with
    | .MoveLeft => s.tryMove (-1) 0
    | .MoveRight => s.tryMove 1 0
    | .SoftDrop => s.softDropStep
    | .HardDrop => s.hardDropStep
    | .RotateCw => s.tryRotate true
    | .RotateCcw => s.tryRotate false
    | .Hold => s.applyHold
    | .Pause => s.togglePause
    | .Restart => s.restartWithSeed s.pieceQueue.rngState

def takeLastEvent (s : GameState) : GameState × Option CoreLastEvent :=
  ({ s with lastEvent := none }, s.lastEvent)

end GameState

end TuiTetris.CoreGameState
