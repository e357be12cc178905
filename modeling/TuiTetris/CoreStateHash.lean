import TuiTetris.CoreSnapshot

set_option autoImplicit false

/-!
# Stable hash of a snapshot and the transient step event
-/
namespace TuiTetris.CoreStateHash
open CoreTypes CoreSnapshot

/-- `u64::to_le_bytes`. -/
def leBytes64 (v : UInt64) : List UInt8 :=
  [v.toUInt8, (v >>> 8).toUInt8, (v >>> 16).toUInt8, (v >>> 24).toUInt8,
    (v >>> 32).toUInt8, (v >>> 40).toUInt8, (v >>> 48).toUInt8, (v >>> 56).toUInt8]

/-- `u32::to_le_bytes`. -/
def leBytes32 (v : UInt32) : List UInt8 :=
  [v.toUInt8, (v >>> 8).toUInt8, (v >>> 16).toUInt8, (v >>> 24).toUInt8]

def flag (b : Bool) : UInt8 := if b then 1 else 0

def piece : PieceKind → UInt8
  | .I => 1
  | .O => 2
  | .T => 3
  | .S => 4
  | .Z => 5
  | .J => 6
  | .L => 7

def rotation : Rotation → UInt8
  | .North => 0
  | .East => 1
  | .South => 2
  | .West => 3

def tspinCode : TSpinKind → UInt8
  | .None => 0
  | .Mini => 1
  | .Full => 2

def activeBytes : Option ActiveSnapshot → List UInt8
  | none => [0]
  | some a => [1, piece a.kind, rotation a.rotation, a.x.toUInt8, a.y.toUInt8]

def holdBytes : Option PieceKind → List UInt8
  | none => [0]
  | some k => [1, piece k]

def tspinBytes : Option TSpinKind → List UInt8
  | none => [0]
  | some t => [1, tspinCode t]

def eventBytes : Option CoreLastEvent → List UInt8
  | none => [0]
  | some e => [1, flag e.locked] ++ leBytes32 e.linesCleared ++ leBytes32 e.lineClearScore ++
      tspinBytes e.tspin ++ leBytes32 e.combo.toUInt32 ++ [flag e.backToBack]

def snapshotBytes (s : GameSnapshot) : List UInt8 :=
  leBytes64 s.boardHash ++ leBytes32 s.boardId ++ activeBytes s.active ++ holdBytes s.hold ++
    [flag s.canHold] ++ s.nextQueue.toList.map piece ++ [flag s.paused, flag s.gameOver] ++
    [s.episodeId, s.pieceId, s.stepInPiece, s.seed, s.score, s.level, s.lines,
      s.timers.dropMs, s.timers.lockMs, s.timers.lineClearMs].flatMap leBytes32

def stableStateHash (s : GameSnapshot) (event : Option CoreLastEvent) : UInt64 :=
  hashBytes offsetBasis (snapshotBytes s ++ eventBytes event)

end TuiTetris.CoreStateHash
