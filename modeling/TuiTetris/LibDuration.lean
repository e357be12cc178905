import Mathlib.Algebra.GroupWithZero.Nat
import Mathlib.Data.Nat.Basic

set_option autoImplicit false

/-!
# Durations

A duration is a whole number of nanoseconds, less than `2 ^ 64` seconds. Sums that
pass the limit stop at it, differences below zero at zero; a product that passes it
has no value.
-/
namespace TuiTetris.LibDuration

def nanosLimit : ℕ := 2 ^ 64 * 10 ^ 9

structure Duration where
  asNanos : ℕ
  lt_limit : asNanos < nanosLimit
  deriving DecidableEq

namespace Duration

def zero : Duration := ⟨0, by decide⟩

def asMillis (d : Duration) : ℕ := d.asNanos / 10 ^ 6

def saturatingAdd (a b : Duration) : Duration :=
  if h : a.asNanos + b.asNanos < nanosLimit then ⟨a.asNanos + b.asNanos, h⟩
  else ⟨nanosLimit - 1, by decide⟩

def saturatingSub (a b : Duration) : Duration :=
  ⟨a.asNanos - b.asNanos, Nat.lt_of_le_of_lt (Nat.sub_le _ _) a.lt_limit⟩

def checkedMul (d : Duration) (n : ℕ) : Option Duration :=
  if h : d.asNanos * n < nanosLimit then some ⟨d.asNanos * n, h⟩ else none

variable {a b : Duration}

theorem saturatingAdd_asNanos (h : a.asNanos + b.asNanos < nanosLimit) :
    (a.saturatingAdd b).asNanos = a.asNanos + b.asNanos := by
  unfold saturatingAdd
  rw [dif_pos h]

/-- A product that stays within a duration has a value. -/
theorem checkedMul_within {n : ℕ} (h : a.asNanos * n ≤ b.asNanos) :
    ∃ d : Duration, a.checkedMul n = some d ∧ d.asNanos = a.asNanos * n :=
  ⟨_, dif_pos (Nat.lt_of_le_of_lt h b.lt_limit), rfl⟩

end Duration

end TuiTetris.LibDuration
