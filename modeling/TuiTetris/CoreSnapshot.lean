import TuiTetris.CoreGameState

set_option autoImplicit false

/-!
# Snapshots of the game state

The board part and the rest are written separately, as in the source: a caller
that keeps a snapshot may refresh the rest alone.
-/
namespace TuiTetris.CoreSnapshot
open CoreTypes CoreBoard CoreGameState

/-- FNV-1a over a sequence of bytes, 64 bits. Irreducible, so that no unification runs it. -/
@[irreducible] def hashBytes (hash : UInt64) (bytes : List UInt8) : UInt64 :=
  bytes.foldl (fun h b => (h ^^^ b.toUInt64) * 0x100000001b3) hash

def offsetBasis : UInt64 := 0xcbf29ce484222325

structure ActiveSnapshot where
  kind : PieceKind
  rotation : Rotation
  x : Int8
  y : Int8
  deriving DecidableEq, Repr

def ActiveSnapshot.ofTetromino (value : Tetromino) : ActiveSnapshot :=
  ⟨value.kind, value.rotation, value.x, value.y⟩

structure TimersSnapshot where
  dropMs : UInt32
  lockMs : UInt32
  lineClearMs : UInt32
  deriving DecidableEq, Repr

structure GameSnapshot where
  board : Vector (Vector UInt8 10) 20
  boardId : UInt32
  boardHash : UInt64
  active : Option ActiveSnapshot
  ghostY : Option Int8
  hold : Option PieceKind
  nextQueue : Vector PieceKind 5
  canHold : Bool
  paused : Bool
  gameOver : Bool
  episodeId : UInt32
  seed : UInt32
  pieceId : UInt32
  stepInPiece : UInt32
  score : UInt32
  level : UInt32
  lines : UInt32
  timers : TimersSnapshot
  deriving DecidableEq

namespace GameSnapshot

def default : GameSnapshot :=
  { board := Vector.replicate 20 (Vector.replicate 10 0), boardId := 0, boardHash := 0,
    active := none, ghostY := none, hold := none, nextQueue := Vector.replicate 5 .I,
    canHold := true, paused := false, gameOver := false, episodeId := 0, seed := 0, pieceId := 0,
    stepInPiece := 0, score := 0, level := 0, lines := 0, timers := ⟨0, 0, 0⟩ }

def playable (s : GameSnapshot) : Bool := !s.gameOver && !s.paused

end GameSnapshot

def hashGrid (board : Vector (Vector UInt8 10) 20) : UInt64 :=
  hashBytes offsetBasis (board.toList.flatMap Vector.toList)

/-- `snapshot_board_into`: the board, its id and its hash. -/
def snapshotBoardInto (s : GameState) (out : GameSnapshot) : GameSnapshot :=
  { out with
    board := s.board.writeU8Grid, boardId := s.boardId, boardHash := hashGrid s.board.writeU8Grid }

/-- `snapshot_meta_into`: everything but the board, its id and its hash. -/
def snapshotMetaInto (s : GameState) (out : GameSnapshot) : GameSnapshot :=
  { out with
    active := s.active.map ActiveSnapshot.ofTetromino, ghostY := s.ghostY, hold := s.hold,
    nextQueue := s.nextQueue, canHold := s.canHold, paused := s.paused, gameOver := s.gameOver,
    episodeId := s.episodeId, seed := s.pieceQueue.seed, pieceId := s.pieceId,
    stepInPiece := s.stepInPiece, score := s.score, level := s.level, lines := s.lines,
    timers := ⟨s.dropTimerMs, s.lockTimerMs, s.lineClearTimerMs⟩ }

def snapshotInto (s : GameState) (out : GameSnapshot) : GameSnapshot :=
  snapshotMetaInto s (snapshotBoardInto s out)

def snapshot (s : GameState) : GameSnapshot := snapshotInto s .default

structure Shows (out : GameSnapshot) (s : GameState) : Prop where
  board : out.board = s.board.writeU8Grid
  boardHash : out.boardHash = hashGrid s.board.writeU8Grid

theorem snapshotBoardInto_shows (s : GameState) (out : GameSnapshot) :
    Shows (snapshotBoardInto s out) s := ⟨rfl, rfl⟩

theorem snapshotMetaInto_shows {s u : GameState} {out : GameSnapshot} (h : Shows out s) :
    Shows (snapshotMetaInto u out) s := ⟨h.board, h.boardHash⟩

theorem snapshotMetaInto_eq {s : GameState} {out : GameSnapshot} (h : Shows out s)
    (hid : out.boardId = s.boardId) : snapshotMetaInto s out = snapshot s := by
  unfold snapshot snapshotInto snapshotMetaInto snapshotBoardInto
  rw [h.board, h.boardHash, hid]

theorem snapshotInto_eq (s : GameState) (out : GameSnapshot) : snapshotInto s out = snapshot s :=
  snapshotMetaInto_eq (snapshotBoardInto_shows s out) rfl

end TuiTetris.CoreSnapshot
