import TuiTetris.CoreGameState

set_option autoImplicit false

/-!
# The composite place command

`applyPlaceInPlace` leaves the candidate as the source's early exits leave it;
`applyPlace` commits the candidate only when all steps went through.
-/
namespace TuiTetris.SessionPlace
open CoreTypes CorePieces CoreGameState

inductive PlaceError where
  | HoldUnavailable | RotationBlocked | XOutOfBounds | XBlocked | NotPlayable | NoActive
  deriving DecidableEq, Repr

def PlaceError.code : PlaceError → String
  | .HoldUnavailable => "hold_unavailable"
  | _ => "invalid_place"

def PlaceError.message : PlaceError → String
  | .HoldUnavailable => "hold requested when unavailable"
  | .RotationBlocked => "could not rotate to target rotation"
  | .XOutOfBounds => "target x would place piece out of bounds"
  | .XBlocked => "could not move to target x due to collision"
  | .NotPlayable => "game is not playable"
  | .NoActive => "no active piece"

def repeatAction (action : GameAction) : ℕ → GameState → GameState × Bool
  | 0, s => (s, true)
  | n + 1, s =>
    let r := s.applyAction action
    if r.2 then repeatAction action n r.1 else (r.1, false)

def rotToI : Rotation → Int
  | .North => 0
  | .East => 1
  | .South => 2
  | .West => 3

/-- Direction (`true` for clockwise) and number of quarter turns, the shorter plan first. -/
def rotationPlans (cur tgt : Rotation) : List (Bool × ℕ) :=
  let cw := ((rotToI tgt - rotToI cur) % 4).toNat
  let ccw := ((rotToI cur - rotToI tgt) % 4).toNat
  if ccw < cw then [(false, ccw), (true, cw)] else [(true, cw), (false, ccw)]

/-- Every plan starts from the saved state; `last` is what the plan before left behind. -/
def tryPlans (saved : GameState) : List (Bool × ℕ) → GameState → GameState × Bool
  | [], last => (last, false)
  | (isCw, steps) :: plans, _ =>
    let r := repeatAction (if isCw then .RotateCw else .RotateCcw) steps saved
    if r.2 then r else tryPlans saved plans r.1

def minDx (shape : PieceShape) : Int8 := shape.foldl (fun d m => min d m.1) 127

def maxDx (shape : PieceShape) : Int8 := shape.foldl (fun d m => max d m.1) (-128)

def walkTo (s : GameState) (dx : Int8) : GameState × Bool :=
  if dx > 0 then repeatAction .MoveRight dx.toNatClampNeg s
  else if dx < 0 then repeatAction .MoveLeft (-dx).toNatClampNeg s
  else (s, true)

/-- The last part of the command: check the column, walk there and drop. -/
def walkAndDrop (s : GameState) (active : Tetromino) (targetX : Int8) :
    GameState × Except PlaceError Unit :=
  if targetX + minDx active.shape < 0 ∨ targetX + maxDx active.shape ≥ 10 then
    (s, .error .XOutOfBounds)
  else
    let walked := walkTo s (targetX - active.x)
    if !walked.2 then (walked.1, .error .XBlocked)
    else
      let dropped := walked.1.applyAction .HardDrop
      if !dropped.2 then
        (dropped.1, .error (if dropped.1.active.isNone then .NoActive else .NotPlayable))
      else (dropped.1, .ok ())

def rotateWalkDrop (s : GameState) (targetX : Int8) (targetRot : Rotation) :
    GameState × Except PlaceError Unit :=
  match s.active with
  | none => (s, .error .NoActive)
  | some active0 =>
    let rotated := tryPlans s (rotationPlans active0.rotation targetRot) s
    if !rotated.2 then (rotated.1, .error .RotationBlocked)
    else
      match rotated.1.active with
      | none => (rotated.1, .error .NoActive)
      | some active =>
        if active.rotation ≠ targetRot then (rotated.1, .error .RotationBlocked)
        else walkAndDrop rotated.1 active targetX

def applyPlaceInPlace (s : GameState) (targetX : Int8) (targetRot : Rotation) (useHold : Bool) :
    GameState × Except PlaceError Unit :=
  if s.paused || s.gameOver then (s, .error .NotPlayable)
  else if useHold then
    let held := s.applyAction .Hold
    if !held.2 then (held.1, .error .HoldUnavailable) else rotateWalkDrop held.1 targetX targetRot
  else rotateWalkDrop s targetX targetRot

/-- The candidate is committed only on success. -/
def applyPlace (s : GameState) (targetX : Int8) (targetRot : Rotation) (useHold : Bool) :
    GameState × Except PlaceError Unit :=
  let candidate := applyPlaceInPlace s targetX targetRot useHold
  match candidate.2 with
  | .ok () => (candidate.1, .ok ())
  | .error error => (s, .error error)

end TuiTetris.SessionPlace
