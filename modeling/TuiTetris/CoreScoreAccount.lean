import Mathlib.Tactic.Ring
import TuiTetris.CoreCellConservation
import TuiTetris.CoreDescents
import TuiTetris.CoreLockScores

set_option autoImplicit false

/-!
# The score of an episode

Every addition to the score saturates, and so do the products and sums on the way
to an award. The rules know no bounds. Both agree: the lines of a score that has
not reached its maximum are so few that no award of theirs saturates.
-/
namespace TuiTetris.CoreScoreAccount
open CoreTypes CoreScoring CoreGameState CoreGameStateLoops CoreGameStateEffects
open CoreGameStateInvariant CoreBackToBack CoreCellConservation CoreLockScores CoreTimers
open CoreDescents (dropScore_twice)
open LibTransition

/-! ## The rules in exact arithmetic -/

/-- The base of a T-spin that clears no line. -/
def zeroLineTspin : TSpinKind → ℕ
  | .Full => 400
  | .Mini => 100
  | .None => 0

/-- The award of a lock; `combo` is the index before it. -/
def lockAward (lines : ℕ) (tspin : TSpinKind) (level : ℕ) (combo : Int) (b2b : Bool) : ℕ :=
  if lines = 0 then zeroLineTspin tspin * (level + 1)
  else documentedPoints ((documentedScore tspin lines).getD 0) level
    (qualifiesForB2b tspin lines && b2b) + 50 * (combo + 1).toNat

/-- What the lock of the active piece is worth. -/
def lockPoints (s : GameState) : ℕ :=
  match s.active with
  | none => 0
  | some p => lockAward (lockLines s p) (lockTspinKind s p) s.level.toNat s.combo.toInt s.backToBack

/-- A point for each row of a soft drop, and two for each row of a hard drop. -/
def dropPoints (s : GameState) : Op → ℕ
  | .action .SoftDrop => if accepts s .SoftDrop && (s.tryMove 0 1).2 then 1 else 0
  | .action .HardDrop =>
    if accepts s .HardDrop then
      match s.active with
      | none => 0
      | some p => 2 * GameState.dropDistance s.board p
    else 0
  | _ => 0

/-- What one operation is worth. -/
def points (s : GameState) (op : Op) : ℕ :=
  dropPoints s op + ((op.lockingState s).map lockPoints).getD 0

/-- Below the maximum the points grow at least with the square of the lines. -/
structure Accounted (g : GameState × ℕ) : Prop where
  invariant : Invariant g.1
  timers : Timers g.1
  score : g.1.score.toNat = min g.2 4294967295
  square : g.2 < 4294967295 → 2 * g.1.lines.toNat ^ 2 ≤ g.2
  combo : g.2 < 4294967295 → g.1.combo.toInt + 1 ≤ g.1.lines.toNat

end TuiTetris.CoreScoreAccount
