import TuiTetris.CoreSnapshot
import TuiTetris.LibChecked

set_option autoImplicit false

/-!
# The core with every check on

The same functions as in the modules before, each step in the order of the
source and each arithmetic operation, array access and loop able to fault.
Operations that the source wraps or saturates on purpose stay as they are.
-/
namespace TuiTetris.CoreChecked
open CoreTypes CorePieces CoreBoard CoreRng CoreScoring CoreGameState CoreSnapshot LibChecked

/-! ## Board -/

def index (x y : Int8) : Option ℕ :=
  if x < 0 ∨ x ≥ 10 ∨ y < 0 ∨ y ≥ 20 then none
  else some (y.toNatClampNeg * boardWidth + x.toNatClampNeg)

def get (b : Board) (x y : Int8) : Checked (Option Cell) :=
  match index x y with
  | some i => do return some (← readAt b.cells i)
  | none => return none

def set (b : Board) (x y : Int8) (cell : Cell) : Checked (Board × Bool) :=
  match index x y with
  | some i => do return (⟨← writeAt b.cells i cell⟩, true)
  | none => return (b, false)

def isValid (b : Board) (x y : Int8) : Checked Bool := do
  return (← get b x y) == some none

def isRowFull (b : Board) (y : ℕ) : Checked Bool :=
  if y ≥ boardHeight then return false
  else do
    let row ← slice b.cells (y * boardWidth) (y * boardWidth + boardWidth)
    return row.all Option.isSome

/-- `copy_within` panics when its source or its destination leaves the slice. -/
def copyWithin (cells : Vector Cell 200) (len dest : ℕ) : Checked (Vector Cell 200) :=
  if len ≤ 200 ∧ dest ≤ 200 - len then .ok (Board.copyWithin cells len dest) else .error .index

def clearRow (b : Board) (y : ℕ) : Checked Board :=
  if y ≥ boardHeight then return b
  else do
    let shifted ← copyWithin b.cells (y * boardWidth) boardWidth
    let cells ← (List.range boardWidth).foldlM (fun cells i => writeAt cells i none) shifted
    return ⟨cells⟩

def fullRows (b : Board) : Checked (List ℕ) :=
  (List.range boardHeight).foldlM
    (fun rows y => do if ← isRowFull b y then push 4 rows y else return rows) []

def clearFullRows (b : Board) : Checked (Board × List ℕ) := do
  let rows ← fullRows b
  rows.foldlM (fun r y => do
    let b ← clearRow r.1 y
    return (b, ← push 4 r.2 y)) (b, [])

def shapeFits (b : Board) (shape : PieceShape) (x y : Int8) : Checked Bool :=
  shape.allM fun m => do isValid b (← addInt8 x m.1) (← addInt8 y m.2)

def setCells (x y : Int8) (kind : PieceKind) : Board → PieceShape → Checked (Board × Bool)
  | b, [] => return (b, true)
  | b, m :: ms => do
    let r ← set b (← addInt8 x m.1) (← addInt8 y m.2) (some kind)
    if r.2 then setCells x y kind r.1 ms else return (r.1, false)

def lockCells (b : Board) (shape : PieceShape) (x y : Int8) (kind : PieceKind) :
    Checked (Board × Bool) := do
  if ← shapeFits b shape x y then setCells x y kind b shape else return (b, false)

def writeU8Row {n : ℕ} (row : Vector Cell n) (out : Vector UInt8 10) : Checked (Vector UInt8 10) :=
  (List.range boardWidth).foldlM
    (fun out x => do writeAt out x (Board.cellCode (← readAt row x))) out

def writeU8Grid (b : Board) (out : Vector (Vector UInt8 10) 20) :
    Checked (Vector (Vector UInt8 10) 20) :=
  (List.range boardHeight).foldlM (fun out y => do
    let row ← slice b.cells (y * boardWidth) ((y + 1) * boardWidth)
    writeAt out y (← writeU8Row row (← readAt out y))) out

/-! ## Rotation -/

def tryRotate (kind : PieceKind) (rotation : Rotation) (x y : Int8) (clockwise : Bool) (b : Board) :
    Checked (Option (PieceShape × Rotation × (Int8 × Int8))) := do
  let newRotation := if clockwise then rotation.rotateCw else rotation.rotateCcw
  let newShape := getShape kind newRotation
  let kicks ← readAt (getKickTable kind) (getKickIndex rotation clockwise).val
  let kick ← kicks.findM? fun k => do shapeFits b newShape (← addInt8 x k.1) (← addInt8 y k.2)
  return kick.map fun k => (newShape, newRotation, k)

/-! ## Piece queue -/

def nextRange (g : SimpleRng) (max : UInt32) : Checked (UInt32 × SimpleRng) := do
  return (← modUInt32 g.nextU32.1 max, g.nextU32.2)

def shuffleLoop {α : Type} {n : ℕ} : ℕ → SimpleRng → Vector α n → Checked (SimpleRng × Vector α n)
  | 0, g, slice => return (g, slice)
  | i + 1, g, slice => do
    let r ← nextRange g (UInt32.ofNat (i + 1 + 1))
    shuffleLoop i r.2 (← swapAt slice (i + 1) r.1.toNat)

def shuffle {α : Type} {n : ℕ} (g : SimpleRng) (slice : Vector α n) :
    Checked (SimpleRng × Vector α n) := shuffleLoop (n - 1) g slice

def refillBag (q : PieceQueue) : Checked PieceQueue := do
  return q.withBag (← shuffle q.rng allKinds)

def newQueue (seed : UInt32) : Checked PieceQueue :=
  refillBag { episodeSeed := seed, bag := allKinds, bagIndex := 0, rng := ⟨seed⟩ }

def previewBag (q : PieceQueue) : Checked (Vector PieceKind 7) := do
  return (← shuffle q.rng allKinds).2

def peek (q : PieceQueue) : Checked (Option PieceKind) :=
  if q.bagIndex < 7 then return q.bag[q.bagIndex]?
  else do return some (← readAt (← previewBag q) 0)

/-- The array that `peek_5` fills, with the index of its next entry. -/
structure Preview where
  out : Vector PieceKind 5
  outI : ℕ

/-- One turn of a loop of `peek_5` that copies `bag[idx]`. -/
def copyPiece (bag : Vector PieceKind 7) (p : Preview) (idx : ℕ) : Checked Preview := do
  return ⟨← writeAt p.out p.outI (← readAt bag idx), p.outI + 1⟩

def peekCurrent (q : PieceQueue) (p : Preview) : Checked Preview :=
  loop (fun r : Preview × ℕ => do
    if r.1.outI < 5 && r.2 < 7 then return .inl (← copyPiece q.bag r.1 r.2, r.2 + 1)
    else return .inr r.1) 6 (p, q.bagIndex)

def peekNext (bag : Vector PieceKind 7) (p : Preview) : Checked Preview :=
  loop (fun r : Preview × ℕ => do
    if r.1.outI < 5 then return .inl (← copyPiece bag r.1 r.2, r.2 + 1)
    else return .inr r.1) 6 (p, 0)

def peek5 (q : PieceQueue) : Checked (Vector PieceKind 5) := do
  let p ← peekCurrent q ⟨Vector.replicate 5 .I, 0⟩
  if p.outI < 5 then return (← peekNext (← previewBag q) p).out else return p.out

def ensureBag (q : PieceQueue) : Checked PieceQueue :=
  if q.bagIndex ≥ 7 then refillBag q else return q

def draw (q : PieceQueue) : Checked (PieceKind × PieceQueue) := do
  let q ← ensureBag q
  return (← readAt q.bag q.bagIndex, { q with bagIndex := q.bagIndex + 1 })

/-! ## Scoring -/

def calculateLineScore (lines : ℕ) (level : UInt32) : Checked UInt32 :=
  if lines = 0 ∨ lines > 4 then return 0
  else do return satMul (← readList lineScores lines) (satAdd level 1)

def applyB2bMultiplier (points : UInt32) : Checked UInt32 :=
  divUInt32 (satMul points b2bNumerator) b2bDenominator

def basePoints (lines : ℕ) (level : UInt32) (tspin : TSpinKind) : Checked UInt32 :=
  match tspin with
  | .Full | .Mini => return calculateTspinScore tspin lines level
  | .None => calculateLineScore lines level

def multiply (b2bApplied : Bool) (points : UInt32) : Checked UInt32 :=
  if b2bApplied then applyB2bMultiplier points else return points

def calculateScore (lines : ℕ) (level : UInt32) (tspin : TSpinKind) (comboIndex : Int32)
    (previousB2b : Bool) : Checked ScoreResult := do
  let qualifiesB2b := qualifiesForB2b tspin lines
  let b2bApplied := qualifiesB2b && previousB2b
  let lineClearScore ← multiply b2bApplied (← basePoints lines level tspin)
  let comboBonus := calculateComboBonus comboIndex
  return ⟨lineClearScore, comboBonus, satAdd lineClearScore comboBonus, qualifiesB2b, b2bApplied⟩

def intervals : List UInt32 := [1000, 800, 650, 500, 400, 320, 250, 200, 160]

def getDropIntervalMs (level : UInt32) : Checked UInt32 :=
  if level.toNat < intervals.length then readList intervals level.toNat else return 120

/-! ## Game state -/

def pieceIsValid (p : Tetromino) (board : Board) : Checked Bool :=
  p.shape.allM fun m => do isValid board (← addInt8 p.x m.1) (← addInt8 p.y m.2)

def pieceIsGrounded (p : Tetromino) (board : Board) : Checked Bool :=
  p.shape.anyM fun m => do
    return !(← isValid board (← addInt8 p.x m.1) (← addInt8 (← addInt8 p.y m.2) 1))

def spawnPiece (s : GameState) : Checked (GameState × Bool) := do
  match ← peek s.pieceQueue with
  | none => return ({ s with gameOver := true }, false)
  | some kind =>
    let piece := Tetromino.new kind
    if ← pieceIsValid piece s.board then
      let drawn ← draw s.pieceQueue
      return ({ s with
        active := some piece, nextQueue := ← peek5 drawn.2, pieceQueue := drawn.2,
        pieceId := s.pieceId + 1, activeId := s.activeId + 1, stepInPiece := 0, canHold := true,
        lockTimerMs := 0, lockResetCount := 0, lastActionWasRotate := false }, true)
    else return ({ s with gameOver := true }, false)

def newGame (seed : UInt32) : Checked GameState := do
  let pieceQueue ← newQueue seed
  return { GameState.new seed with nextQueue := ← peek5 pieceQueue, pieceQueue }

def start (s : GameState) : Checked GameState := do
  if s.started then return s else return (← spawnPiece { s with started := true }).1

def dropIntervalMs (s : GameState) : Checked UInt32 := do
  let base ← getDropIntervalMs s.level
  if s.isSoftDropping then divUInt32 base softDropMultiplier else return base

def isGrounded (s : GameState) : Checked Bool :=
  match s.active with
  | some piece => pieceIsGrounded piece s.board
  | none => return false

def handleLockReset (s : GameState) : Checked GameState := do
  if !(← isGrounded s) then return { s with lockTimerMs := 0, lockResetCount := 0 }
  else if s.lockResetCount < lockResetLimit then
    return { s with lockTimerMs := 0, lockResetCount := ← addUInt8 s.lockResetCount 1 }
  else return s

def tryMove (s : GameState) (dx dy : Int8) : Checked (GameState × Bool) := do
  match s.active with
  | none => return (s, false)
  | some active =>
    let valid ← active.shape.allM fun m => do
      isValid s.board (← addInt8 (← addInt8 active.x m.1) dx) (← addInt8 (← addInt8 active.y m.2) dy)
    if valid then
      let moved ← handleLockReset { s with
        active := some { active with x := ← addInt8 active.x dx, y := ← addInt8 active.y dy } }
      return (if dx ≠ 0 then { moved with lastActionWasRotate := false } else moved, true)
    else return (s, false)

def tryRotatePiece (s : GameState) (clockwise : Bool) : Checked (GameState × Bool) := do
  match s.active with
  | none => return (s, false)
  | some active =>
    if active.kind = .O then return (s, false)
    else
      match ← tryRotate active.kind active.rotation active.x active.y clockwise s.board with
      | some (_, rotation, dx, dy) =>
        let rotated ← handleLockReset { s with
          active := some { active with
            rotation, x := ← addInt8 active.x dx, y := ← addInt8 active.y dy } }
        return ({ rotated with lastActionWasRotate := true }, true)
      | none => return (s, false)

def filledCorners (s : GameState) (piece : Tetromino) (corners : List (Int8 × Int8)) : Checked ℕ :=
  countM (fun c => do
    return !(← isValid s.board (← addInt8 piece.x c.1) (← addInt8 piece.y c.2))) corners

def tSpinKind (s : GameState) (piece : Tetromino) : Checked TSpinKind := do
  if !s.lastActionWasRotate then return .None
  else if (← filledCorners s piece [(0, 0), (2, 0), (0, 2), (2, 2)]) ≥ 3 then
    if (← filledCorners s piece (GameState.frontCorners piece.rotation)) = 2 then return .Full
    else return .Mini
  else return .None

def applyLineClear (s : GameState) (linesCleared : ℕ) (tspin : TSpinKind) :
    Checked (GameState × UInt32) := do
  if linesCleared = 0 then return s.applyLineClear 0 tspin
  else
    let comboAfterClear := satSucc s.combo
    let result ← calculateScore linesCleared s.level tspin comboAfterClear s.backToBack
    let lines := satAdd s.lines (UInt32.ofNat linesCleared)
    return ({ s with
      combo := comboAfterClear, lines, level := ← divUInt32 lines 10,
      backToBack := result.qualifiesForB2b, score := satAdd s.score result.total,
      lineClearTimerMs := lineClearPauseMs, landingFlashMs := CoreTypes.landingFlashMs },
      result.lineClearScore)

def lockTspin (s : GameState) (active : Tetromino) (lockSuccess : Bool) : Checked TSpinKind :=
  if lockSuccess && active.kind = .T then tSpinKind s active else return .None

def settleLock (s : GameState) (active : Tetromino) : Checked GameState := do
  let locked ← lockCells s.board active.shape active.x active.y active.kind
  let s := { s with
    landingFlashMs := CoreTypes.landingFlashMs, board := locked.1, active := none }
  let tspin ← lockTspin s active locked.2
  let cleared ← clearFullRows s.board
  let linesCleared := cleared.2.length
  let s := { s with
    board := cleared.1,
    boardId := if locked.2 || linesCleared > 0 then s.boardId + 1 else s.boardId }
  let r ← applyLineClear s linesCleared tspin
  return { r.1 with lastEvent := some {
    locked := true, linesCleared := UInt32.ofNat linesCleared, lineClearScore := r.2,
    tspin := GameState.reportedTspin linesCleared tspin, combo := r.1.combo,
    backToBack := r.1.backToBack } }

def lockPiece (s : GameState) : Checked GameState := do
  match s.active with
  | none => return s
  | some active =>
    let s ← settleLock s active
    if s.gameOver then return s else return (← spawnPiece s).1

/-- One turn of the loop of `hard_drop`, which counts in `u32` and converts to `i8`. -/
def dropTurn (board : Board) (active : Tetromino) (distance : UInt32) : Checked (UInt32 ⊕ UInt32) := do
  let canDrop ← active.shape.allM fun m => do
    isValid board (← addInt8 active.x m.1)
      (← addInt8 (← addInt8 (← addInt8 active.y m.2) (← castInt8 distance)) 1)
  if canDrop then return .inl (← addUInt32 distance 1) else return .inr distance

def dropDistance (board : Board) (active : Tetromino) : Checked UInt32 :=
  loop (dropTurn board active) (boardHeight + 1) 0

def dropActive (s : GameState) (active : Tetromino) (distance : UInt32) : Checked GameState := do
  if distance > 0 then
    return { s with active := some { active with y := ← addInt8 active.y (← castInt8 distance) } }
  else return s

def hardDrop (s : GameState) : Checked (GameState × UInt32) := do
  match s.active with
  | none => return (s, 0)
  | some active =>
    let distance ← dropDistance s.board active
    return (← lockPiece (← dropActive s active distance), calculateDropScore distance true)

def applyHold (s : GameState) : Checked (GameState × Bool) := do
  if !s.canHold then return (s, false)
  else
    match s.active with
    | none => return (s, false)
    | some active =>
      match s.hold with
      | some holdKind =>
        let piece := Tetromino.new holdKind
        let s := { s with
          active := some piece, hold := some active.kind, activeId := s.activeId + 1,
          stepInPiece := 0 }
        if ← pieceIsValid piece s.board then return (s.finishHold, true)
        else return ({ s with gameOver := true, active := none }, false)
      | none =>
        let r ← spawnPiece { s with hold := some active.kind }
        return (r.1.finishHold, true)

/-- One turn of the loop of `ghost_y`, which counts in `i8`. -/
def ghostTurn (board : Board) (active : Tetromino) (distance : Int8) : Checked (Int8 ⊕ Int8) := do
  let canDrop ← active.shape.allM fun m => do
    isValid board (← addInt8 active.x m.1)
      (← addInt8 (← addInt8 (← addInt8 active.y m.2) distance) 1)
  if canDrop then return .inl (← addInt8 distance 1) else return .inr distance

def ghostY (s : GameState) : Checked (Option Int8) := do
  match s.active with
  | none => return none
  | some active =>
    let distance ← loop (ghostTurn s.board active) (boardHeight + 1) 0
    return some (← addInt8 active.y distance)

/-- One turn of the `while` loop of gravity, which takes one interval off the timer. -/
def gravityTurn (dropInterval : UInt32) (r : GameState × Bool) :
    Checked ((GameState × Bool) ⊕ (GameState × Bool)) := do
  if r.1.dropTimerMs ≥ dropInterval then
    let timer ← subUInt32 r.1.dropTimerMs dropInterval
    let moved ← tryMove { r.1 with dropTimerMs := timer } 0 1
    return .inl (moved.1, r.2 || moved.2)
  else return .inr r

def tickGravity (s : GameState) (elapsedMs : UInt32) : Checked (GameState × Bool) := do
  let dropInterval ← dropIntervalMs s
  let timer := satAdd s.dropTimerMs elapsedMs
  loop (gravityTurn dropInterval) (timer.toNat + 1) ({ s with dropTimerMs := timer }, false)

def tickLockDelay (s : GameState) (elapsedMs : UInt32) (changed : Bool) :
    Checked (GameState × Bool) := do
  if ← isGrounded s then
    let timer := satAdd s.lockTimerMs elapsedMs
    if timer ≥ lockDelayMs then
      return (← lockPiece { s with lockTimerMs := 0, dropTimerMs := 0 }, true)
    else return ({ s with lockTimerMs := timer }, changed)
  else return ({ s with lockTimerMs := 0, lockResetCount := 0 }, changed)

def tick (s : GameState) (elapsedMs : UInt32) (softDrop : Bool) : Checked (GameState × Bool) := do
  if s.paused || s.gameOver || !s.started then return (s, false)
  else
    let s := (s.tickCounters elapsedMs).tickLineClear elapsedMs
    if s.lineClearTimerMs > 0 || s.active.isNone then return (s, false)
    else
      let r ← tickGravity (s.tickSoftDrop elapsedMs softDrop) elapsedMs
      tickLockDelay r.1 elapsedMs r.2

def restartWithSeed (s : GameState) (seed : UInt32) : Checked (GameState × Bool) := do
  let fresh ← newGame seed
  return (← start { fresh with episodeId := s.episodeId + 1 }, true)

def softDropStep (s : GameState) : Checked (GameState × Bool) := do
  let r ← tryMove s 0 1
  let score := if r.2 then satAdd r.1.score (calculateDropScore 1 false) else r.1.score
  return ({ r.1 with
    score, isSoftDropping := true, softDropTimerMs := softDropGraceMs,
    lastActionWasRotate := false }, r.2)

def hardDropStep (s : GameState) : Checked (GameState × Bool) := do
  let r ← hardDrop { s with lastActionWasRotate := false }
  return ({ r.1 with score := satAdd r.1.score r.2 }, true)

def applyAction (s : GameState) (action : GameAction) : Checked (GameState × Bool) :=
  if s.gameOver && action ≠ .Restart then return (s, false)
  else if s.paused && action ≠ .Pause && action ≠ .Restart then return (s, false)
  else
    match action with
    | .MoveLeft => tryMove s (-1) 0
    | .MoveRight => tryMove s 1 0
    | .SoftDrop => softDropStep s
    | .HardDrop => hardDropStep s
    | .RotateCw => tryRotatePiece s true
    | .RotateCcw => tryRotatePiece s false
    | .Hold => applyHold s
    | .Pause => return s.togglePause
    | .Restart => restartWithSeed s s.pieceQueue.rngState

def snapshot (s : GameState) : Checked GameSnapshot := do
  let board ← writeU8Grid s.board GameSnapshot.default.board
  let out := { GameSnapshot.default with board, boardId := s.boardId, boardHash := hashGrid board }
  return { snapshotMetaInto s out with ghostY := ← ghostY s }

end TuiTetris.CoreChecked
