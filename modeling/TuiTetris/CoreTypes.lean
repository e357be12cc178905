import Mathlib.Algebra.Group.Nat.Defs

set_option autoImplicit false

/-!
# Shared types and constants of the game core

The fixed-width integers of the source keep their widths: `UInt32` counters and
timers, `Int8` coordinates, `Int32` combo index. Lean's operations on them wrap,
as the source's do in a release build; the saturating ones are written out.
-/
namespace TuiTetris.CoreTypes

def boardWidth : ℕ := 10
def boardHeight : ℕ := 20
def tickMs : UInt32 := 16
def softDropMultiplier : UInt32 := 10
def softDropGraceMs : UInt32 := 150
def lockDelayMs : UInt32 := 450
def lockResetLimit : UInt8 := 15
def lineClearPauseMs : UInt32 := 180
def landingFlashMs : UInt32 := 120

/-- `u32::saturating_add`. -/
def satAdd (a b : UInt32) : UInt32 :=
  if a.toNat + b.toNat < 2 ^ 32 then a + b else 4294967295

theorem satAdd_toNat (a b : UInt32) :
    (satAdd a b).toNat = min (a.toNat + b.toNat) 4294967295 := by
  have ha := a.toNat_lt
  have hb := b.toNat_lt
  unfold satAdd
  split
  · next h =>
    rw [UInt32.toNat_add, Nat.mod_eq_of_lt h]
    omega
  · change 4294967295 = _
    omega

theorem satAdd_zero (a : UInt32) : satAdd a 0 = a := by
  have ha := a.toNat_lt
  have h0 : (0 : UInt32).toNat = 0 := rfl
  apply UInt32.toNat_inj.mp
  rw [satAdd_toNat, h0]
  omega

/-- `u32::saturating_sub`. -/
def satSub (a b : UInt32) : UInt32 := if b ≤ a then a - b else 0

/-- `u32::saturating_mul`. -/
def satMul (a b : UInt32) : UInt32 :=
  if a.toNat * b.toNat < 2 ^ 32 then a * b else 4294967295

theorem satMul_toNat (a b : UInt32) :
    (satMul a b).toNat = min (a.toNat * b.toNat) 4294967295 := by
  unfold satMul
  split
  · next h =>
    rw [UInt32.toNat_mul, Nat.mod_eq_of_lt h]
    omega
  · change 4294967295 = _
    omega

/-- `i32::saturating_add(1)`. -/
def satSucc (a : Int32) : Int32 := if a = 2147483647 then a else a + 1

inductive PieceKind where
  | I | O | T | S | Z | J | L
  deriving DecidableEq, Repr

inductive Rotation where
  | North | East | South | West
  deriving DecidableEq, Repr

def Rotation.rotateCw : Rotation → Rotation
  | .North => .East
  | .East => .South
  | .South => .West
  | .West => .North

def Rotation.rotateCcw : Rotation → Rotation
  | .North => .West
  | .West => .South
  | .South => .East
  | .East => .North

inductive GameAction where
  | MoveLeft | MoveRight | SoftDrop | HardDrop | RotateCw | RotateCcw | Hold | Pause | Restart
  deriving DecidableEq, Repr

inductive TSpinKind where
  | None | Mini | Full
  deriving DecidableEq, Repr

structure CoreLastEvent where
  locked : Bool
  linesCleared : UInt32
  lineClearScore : UInt32
  tspin : Option TSpinKind
  combo : Int32
  backToBack : Bool
  deriving DecidableEq, Repr

/-- `none` is an empty cell. -/
abbrev Cell := Option PieceKind

def lineScores : List UInt32 := [0, 40, 100, 300, 1200]
def comboBase : UInt32 := 50
def b2bNumerator : UInt32 := 3
def b2bDenominator : UInt32 := 2

end TuiTetris.CoreTypes
