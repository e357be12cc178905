import TuiTetris.CoreSnapshot
import TuiTetris.LibArrayVec
import TuiTetris.SessionPlace

set_option autoImplicit false

/-!
# The messages of the game loop

The wire forms of pieces, rotations and events, and the messages built from
them. Time stamps are left out.
-/
namespace TuiTetris.AdapterProtocol
open CoreTypes CoreSnapshot LibArrayVec SessionPlace

inductive ErrorCode where
  | HandshakeRequired | ProtocolMismatch | NotController | ControllerActive | InvalidCommand
  | InvalidPlace | HoldUnavailable | SnapshotRequired | Backpressure
  deriving DecidableEq, Repr

structure StateHash where
  value : UInt64
  deriving DecidableEq, Repr

/-- `status` is always ok. -/
structure AckMessage where
  seq : UInt64
  correlationSeq : UInt64
  appliedStep : Option UInt64
  stateHash : Option StateHash
  deriving DecidableEq, Repr

structure ErrorMessage where
  seq : UInt64
  code : ErrorCode
  message : String
  retryAfterMs : Option UInt64
  deriving DecidableEq, Repr

def createAppliedAck (seq correlationSeq appliedStep : UInt64) (stateHash : StateHash) : AckMessage :=
  { seq, correlationSeq, appliedStep := some appliedStep, stateHash := some stateHash }

def createError (seq : UInt64) (code : ErrorCode) (message : String) : ErrorMessage :=
  { seq, code, message, retryAfterMs := none }

def mapPlaceErrorCode : PlaceError → ErrorCode
  | .HoldUnavailable => .HoldUnavailable
  | _ => .InvalidPlace

inductive PieceKindLower where
  | I | O | T | S | Z | J | L
  deriving DecidableEq, Repr

def PieceKindLower.ofKind : PieceKind → PieceKindLower
  | .I => .I
  | .O => .O
  | .T => .T
  | .S => .S
  | .Z => .Z
  | .J => .J
  | .L => .L

inductive RotationLower where
  | North | East | South | West
  deriving DecidableEq, Repr

def RotationLower.ofRotation : Rotation → RotationLower
  | .North => .North
  | .East => .East
  | .South => .South
  | .West => .West

inductive TSpinLower where
  | Mini | Full
  deriving DecidableEq, Repr

def TSpinLower.ofKind : TSpinKind → Option TSpinLower
  | .Mini => some .Mini
  | .Full => some .Full
  | .None => none

def TSpinLower.toKind : TSpinLower → TSpinKind
  | .Mini => .Mini
  | .Full => .Full

structure TransitionEvent where
  locked : Bool
  linesCleared : UInt32
  lineClearScore : UInt32
  tspin : Option TSpinLower
  combo : Int32
  backToBack : Bool
  deriving DecidableEq, Repr

namespace TransitionEvent

def ofCore (value : CoreLastEvent) : TransitionEvent :=
  { locked := value.locked, linesCleared := value.linesCleared,
    lineClearScore := value.lineClearScore, tspin := value.tspin.bind TSpinLower.ofKind,
    combo := value.combo, backToBack := value.backToBack }

/-- The conversion back, inside `build_observation`. -/
def toCore (event : TransitionEvent) : CoreLastEvent :=
  { locked := event.locked, linesCleared := event.linesCleared,
    lineClearScore := event.lineClearScore, tspin := event.tspin.map TSpinLower.toKind,
    combo := event.combo, backToBack := event.backToBack }

theorem ofCore_toCore (event : TransitionEvent) : ofCore event.toCore = event := by
  obtain ⟨locked, lines, score, tspin, combo, b2b⟩ := event
  rcases tspin with _ | t
  · rfl
  · cases t <;> rfl

/-- An event that does not name the absent T-spin survives the wire. -/
theorem toCore_ofCore {value : CoreLastEvent} (h : value.tspin ≠ some .None) :
    (ofCore value).toCore = value := by
  obtain ⟨locked, lines, score, tspin, combo, b2b⟩ := value
  rcases tspin with _ | t
  · rfl
  · cases t with
    | None => exact absurd rfl h
    | Mini => rfl
    | Full => rfl

end TransitionEvent

structure BoardSnapshot where
  width : UInt8
  height : UInt8
  cells : Vector (Vector UInt8 10) 20
  deriving DecidableEq

structure ActivePieceSnapshot where
  kind : PieceKindLower
  rotation : RotationLower
  x : Int8
  y : Int8
  deriving DecidableEq, Repr

def ActivePieceSnapshot.ofActive (piece : ActiveSnapshot) : ActivePieceSnapshot :=
  ⟨.ofKind piece.kind, .ofRotation piece.rotation, piece.x, piece.y⟩

structure ObservationMessage where
  seq : UInt64
  logicalStep : UInt64
  playable : Bool
  paused : Bool
  gameOver : Bool
  episodeId : UInt32
  seed : UInt32
  pieceId : UInt32
  stepInPiece : UInt32
  board : BoardSnapshot
  boardId : UInt32
  active : Option ActivePieceSnapshot
  ghostY : Option Int8
  next : PieceKindLower
  nextQueue : Vector PieceKindLower 5
  hold : Option PieceKindLower
  canHold : Bool
  events : ArrayVec TransitionEvent 4
  stateHash : StateHash
  score : UInt32
  level : UInt32
  lines : UInt32
  timers : TimersSnapshot
  deriving DecidableEq

end TuiTetris.AdapterProtocol
