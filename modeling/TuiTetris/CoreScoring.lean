import TuiTetris.CoreTypes

set_option autoImplicit false

/-!
# Scoring
-/
namespace TuiTetris.CoreScoring
open CoreTypes

structure ScoreResult where
  lineClearScore : UInt32
  comboBonus : UInt32
  total : UInt32
  qualifiesForB2b : Bool
  b2bApplied : Bool
  deriving DecidableEq, Repr

def calculateLineScore (lines : ℕ) (level : UInt32) : UInt32 :=
  if lines = 0 ∨ lines > 4 then 0 else satMul ((lineScores[lines]?).getD 0) (satAdd level 1)

def calculateTspinScore (tspin : TSpinKind) (lines : ℕ) (level : UInt32) : UInt32 :=
  let levelMultiplier := satAdd level 1
  match tspin, lines with
  | .Full, 0 => satMul 400 levelMultiplier
  | .Full, 1 => satMul 800 levelMultiplier
  | .Full, 2 => satMul 1200 levelMultiplier
  | .Full, 3 => satMul 1600 levelMultiplier
  | .Mini, 0 => satMul 100 levelMultiplier
  | .Mini, 1 => satMul 200 levelMultiplier
  | .Mini, 2 => satMul 400 levelMultiplier
  | _, _ => 0

def calculateComboBonus (comboIndex : Int32) : UInt32 :=
  if comboIndex ≤ 0 then 0 else satMul comboBase comboIndex.toUInt32

def qualifiesForB2b (tspin : TSpinKind) (lines : ℕ) : Bool :=
  match tspin with
  | .Full => 1 ≤ lines && lines ≤ 4
  | .None => lines == 4
  | .Mini => false

def applyB2bMultiplier (points : UInt32) : UInt32 := satMul points b2bNumerator / b2bDenominator

def calculateScore (lines : ℕ) (level : UInt32) (tspin : TSpinKind) (comboIndex : Int32)
    (previousB2b : Bool) : ScoreResult :=
  let qualifiesB2b := qualifiesForB2b tspin lines
  let basePoints := match tspin with
    | .Full | .Mini => calculateTspinScore tspin lines level
    | .None => calculateLineScore lines level
  let b2bApplied := qualifiesB2b && previousB2b
  let lineClearScore := if b2bApplied then applyB2bMultiplier basePoints else basePoints
  let comboBonus := calculateComboBonus comboIndex
  { lineClearScore, comboBonus, total := satAdd lineClearScore comboBonus,
    qualifiesForB2b := qualifiesB2b, b2bApplied }

def calculateDropScore (cells : UInt32) (isHardDrop : Bool) : UInt32 :=
  if isHardDrop then satMul cells 2 else cells

def getDropIntervalMs (level : UInt32) : UInt32 :=
  (([1000, 800, 650, 500, 400, 320, 250, 200, 160] : List UInt32)[level.toNat]?).getD 120

end TuiTetris.CoreScoring
