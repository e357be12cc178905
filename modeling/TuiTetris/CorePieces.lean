import TuiTetris.CoreTypes

set_option autoImplicit false

/-!
# Tetromino shapes and the rotation system
-/
namespace TuiTetris.CorePieces
open CoreTypes

abbrev MinoOffset := Int8 × Int8

abbrev PieceShape := List MinoOffset

def getIShape : Rotation → PieceShape
  | .North => [(0, 1), (1, 1), (2, 1), (3, 1)]
  | .East => [(2, 0), (2, 1), (2, 2), (2, 3)]
  | .South => [(0, 2), (1, 2), (2, 2), (3, 2)]
  | .West => [(1, 0), (1, 1), (1, 2), (1, 3)]

def getOShape (_rotation : Rotation) : PieceShape := [(1, 0), (2, 0), (1, 1), (2, 1)]

def getTShape : Rotation → PieceShape
  | .North => [(1, 0), (0, 1), (1, 1), (2, 1)]
  | .East => [(1, 0), (1, 1), (2, 1), (1, 2)]
  | .South => [(0, 1), (1, 1), (2, 1), (1, 2)]
  | .West => [(1, 0), (0, 1), (1, 1), (1, 2)]

def getSShape : Rotation → PieceShape
  | .North => [(1, 0), (2, 0), (0, 1), (1, 1)]
  | .East => [(1, 0), (1, 1), (2, 1), (2, 2)]
  | .South => [(1, 1), (2, 1), (0, 2), (1, 2)]
  | .West => [(0, 0), (0, 1), (1, 1), (1, 2)]

def getZShape : Rotation → PieceShape
  | .North => [(0, 0), (1, 0), (1, 1), (2, 1)]
  | .East => [(2, 0), (1, 1), (2, 1), (1, 2)]
  | .South => [(0, 1), (1, 1), (1, 2), (2, 2)]
  | .West => [(1, 0), (0, 1), (1, 1), (0, 2)]

def getJShape : Rotation → PieceShape
  | .North => [(0, 0), (0, 1), (1, 1), (2, 1)]
  | .East => [(1, 0), (2, 0), (1, 1), (1, 2)]
  | .South => [(0, 1), (1, 1), (2, 1), (2, 2)]
  | .West => [(1, 0), (1, 1), (0, 2), (1, 2)]

def getLShape : Rotation → PieceShape
  | .North => [(2, 0), (0, 1), (1, 1), (2, 1)]
  | .East => [(1, 0), (1, 1), (1, 2), (2, 2)]
  | .South => [(0, 1), (1, 1), (2, 1), (0, 2)]
  | .West => [(0, 0), (1, 0), (1, 1), (1, 2)]

def getShape (kind : PieceKind) (rotation : Rotation) : PieceShape :=
  match kind with
  | .I => getIShape rotation
  | .O => getOShape rotation
  | .T => getTShape rotation
  | .S => getSShape rotation
  | .Z => getZShape rotation
  | .J => getJShape rotation
  | .L => getLShape rotation

abbrev KickTable := Vector (List (Int8 × Int8)) 8

def oKicks : KickTable := Vector.replicate 8 [(0, 0), (0, 0), (0, 0), (0, 0), (0, 0)]

def jlstzKicks : KickTable := #v[
  [(0, 0), (-1, 0), (-1, 1), (0, -2), (-1, -2)],
  [(0, 0), (1, 0), (1, 1), (0, -2), (1, -2)],
  [(0, 0), (1, 0), (1, -1), (0, 2), (1, 2)],
  [(0, 0), (1, 0), (1, -1), (0, 2), (1, 2)],
  [(0, 0), (-1, 0), (-1, 1), (0, -2), (-1, -2)],
  [(0, 0), (1, 0), (1, 1), (0, -2), (1, -2)],
  [(0, 0), (-1, 0), (-1, -1), (0, 2), (-1, 2)],
  [(0, 0), (-1, 0), (-1, -1), (0, 2), (-1, 2)]]

def iKicks : KickTable := #v[
  [(0, 0), (-2, 0), (1, 0), (-2, -1), (1, 2)],
  [(0, 0), (-1, 0), (2, 0), (-1, 2), (2, -1)],
  [(0, 0), (2, 0), (-1, 0), (2, 1), (-1, -2)],
  [(0, 0), (-1, 0), (2, 0), (-1, 2), (2, -1)],
  [(0, 0), (1, 0), (-2, 0), (1, -2), (-2, 1)],
  [(0, 0), (2, 0), (-1, 0), (2, 1), (-1, -2)],
  [(0, 0), (-2, 0), (1, 0), (-2, -1), (1, 2)],
  [(0, 0), (1, 0), (-2, 0), (1, -2), (-2, 1)]]

def getKickTable : PieceKind → KickTable
  | .O => oKicks
  | .I => iKicks
  | _ => jlstzKicks

def getKickIndex : Rotation → Bool → Fin 8
  | .North, true => 0
  | .North, false => 1
  | .East, false => 2
  | .East, true => 3
  | .South, false => 4
  | .South, true => 5
  | .West, false => 6
  | .West, true => 7

def shapeFits (isValid : Int8 → Int8 → Bool) (shape : PieceShape) (x y : Int8) : Bool :=
  shape.all fun m => isValid (x + m.1) (y + m.2)

def tryRotate (kind : PieceKind) (rotation : Rotation) (x y : Int8) (clockwise : Bool)
    (isValid : Int8 → Int8 → Bool) : Option (PieceShape × Rotation × (Int8 × Int8)) :=
  let newRotation := if clockwise then rotation.rotateCw else rotation.rotateCcw
  let newShape := getShape kind newRotation
  let kicks := (getKickTable kind)[getKickIndex rotation clockwise]
  (kicks.find? fun k => shapeFits isValid newShape (x + k.1) (y + k.2)).map
    fun k => (newShape, newRotation, k)

theorem getShape_length (kind : PieceKind) (rotation : Rotation) :
    (getShape kind rotation).length = 4 := by
  cases kind <;> cases rotation <;> rfl

theorem getShape_nodup (kind : PieceKind) (rotation : Rotation) :
    (getShape kind rotation).Nodup := by
  cases kind <;> cases rotation <;> decide

theorem getShape_offsets (kind : PieceKind) (rotation : Rotation) (m : MinoOffset)
    (h : m ∈ getShape kind rotation) :
    0 ≤ m.1.toInt ∧ m.1.toInt ≤ 3 ∧ 0 ≤ m.2.toInt ∧ m.2.toInt ≤ 3 := by
  have hall : (getShape kind rotation).all (fun m =>
      0 ≤ m.1.toInt ∧ m.1.toInt ≤ 3 ∧ 0 ≤ m.2.toInt ∧ m.2.toInt ≤ 3) = true := by
    cases kind <;> cases rotation <;> decide
  exact of_decide_eq_true (List.all_eq_true.mp hall m h)

theorem tryRotate_fits {kind : PieceKind} {rotation : Rotation} {x y : Int8} {clockwise : Bool}
    {isValid : Int8 → Int8 → Bool} {r : PieceShape × Rotation × (Int8 × Int8)}
    (h : tryRotate kind rotation x y clockwise isValid = some r) :
    r.1 = getShape kind r.2.1 ∧
      r.2.1 = (if clockwise then rotation.rotateCw else rotation.rotateCcw) ∧
      shapeFits isValid r.1 (x + r.2.2.1) (y + r.2.2.2) = true := by
  unfold tryRotate at h
  obtain ⟨k, hk, rfl⟩ := Option.map_eq_some_iff.mp h
  have fits := List.find?_some hk
  exact ⟨rfl, rfl, fits⟩

end TuiTetris.CorePieces
