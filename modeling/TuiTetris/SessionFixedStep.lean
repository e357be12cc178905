import TuiTetris.LibChecked
import TuiTetris.LibDuration

set_option autoImplicit false

/-!
# The fixed-step clock

Elapsed time goes into a backlog, and whole ticks come out of it in bursts of
bounded size. The product of the tick and the burst is the one operation that can
overflow.
-/
namespace TuiTetris.SessionFixedStep
open LibChecked LibDuration

structure FixedStepClock where
  tick : Duration
  maxStepsPerAdvance : UInt32
  backlog : Duration
  tick_pos : 0 < tick.asNanos
  maxSteps_pos : 0 < maxStepsPerAdvance.toNat

/-- What a call of `advance` returns, and the clock it leaves. -/
structure Advance where
  due : UInt32
  clock : FixedStepClock

namespace FixedStepClock

/-- `none` where an assertion fails. -/
def new (tick : Duration) (maxStepsPerAdvance : UInt32) : Option FixedStepClock :=
  if h : 0 < tick.asNanos ∧ 0 < maxStepsPerAdvance.toNat then
    some ⟨tick, maxStepsPerAdvance, .zero, h.1, h.2⟩
  else none

/-- The quotient is cut to the limit before it is narrowed to 32 bits. -/
def stepsDue (c : FixedStepClock) (backlog : Duration) : UInt32 :=
  UInt32.ofNat (min (backlog.asNanos / c.tick.asNanos) c.maxStepsPerAdvance.toNat)

def advance (c : FixedStepClock) (elapsed : Duration) : Checked Advance :=
  let backlog := c.backlog.saturatingAdd elapsed
  let due := c.stepsDue backlog
  match c.tick.checkedMul due.toNat with
  | none => .error .overflow
  | some spent => .ok ⟨due, { c with backlog := backlog.saturatingSub spent }⟩

def untilNextStep (c : FixedStepClock) : Duration := c.tick.saturatingSub c.backlog

/-- Calls of `advance` in a row. -/
def advances : FixedStepClock → List Duration → Checked (List Advance)
  | _, [] => return []
  | c, elapsed :: rest => do
    let called ← c.advance elapsed
    return called :: (← called.clock.advances rest)

end FixedStepClock

/-- The time of all calls together, in nanoseconds. -/
def totalNanos (times : List Duration) : ℕ := (times.map Duration.asNanos).sum

def totalSteps (calls : List Advance) : ℕ := (calls.map fun call => call.due.toNat).sum

/-- The call keeps the settings, respects the limit, and leaves less than a tick unless it stops at
the limit. -/
structure Bounded (c : FixedStepClock) (called : Advance) : Prop where
  tick : called.clock.tick = c.tick
  maxSteps : called.clock.maxStepsPerAdvance = c.maxStepsPerAdvance
  due_le : called.due ≤ c.maxStepsPerAdvance
  caught_up : called.due < c.maxStepsPerAdvance → called.clock.backlog.asNanos < c.tick.asNanos

theorem stepsDue_toNat (c : FixedStepClock) (backlog : Duration) : (c.stepsDue backlog).toNat =
    min (backlog.asNanos / c.tick.asNanos) c.maxStepsPerAdvance.toNat := by
  have hmax := c.maxStepsPerAdvance.toNat_lt
  unfold FixedStepClock.stepsDue
  rw [UInt32.toNat_ofNat', Nat.mod_eq_of_lt]
  omega

/-- The steps that are due fit in the backlog. -/
theorem stepsDue_le (c : FixedStepClock) (backlog : Duration) :
    c.tick.asNanos * (c.stepsDue backlog).toNat ≤ backlog.asNanos := by
  rw [stepsDue_toNat]
  calc c.tick.asNanos * min (backlog.asNanos / c.tick.asNanos) c.maxStepsPerAdvance.toNat
      ≤ c.tick.asNanos * (backlog.asNanos / c.tick.asNanos) :=
        Nat.mul_le_mul_left _ (Nat.min_le_left _ _)
    _ ≤ backlog.asNanos := Nat.mul_div_le _ _

/-- Below the limit they leave less than a tick. -/
theorem stepsDue_rest {c : FixedStepClock} {backlog : Duration}
    (h : c.stepsDue backlog < c.maxStepsPerAdvance) :
    backlog.asNanos - c.tick.asNanos * (c.stepsDue backlog).toNat < c.tick.asNanos := by
  have hdiv := Nat.div_add_mod backlog.asNanos c.tick.asNanos
  have hmod := Nat.mod_lt backlog.asNanos c.tick_pos
  rw [UInt32.lt_iff_toNat_lt, stepsDue_toNat] at h
  have hall : (c.stepsDue backlog).toNat = backlog.asNanos / c.tick.asNanos := by
    rw [stepsDue_toNat]
    omega
  rw [hall]
  omega

/-- One call moves whole ticks from the backlog to the steps. -/
theorem advance_spec (c : FixedStepClock) (elapsed : Duration) : ∃ called,
    c.advance elapsed = .ok called ∧ Bounded c called ∧
      called.due.toNat * c.tick.asNanos + called.clock.backlog.asNanos =
        (c.backlog.saturatingAdd elapsed).asNanos := by
  unfold FixedStepClock.advance
  generalize c.backlog.saturatingAdd elapsed = backlog
  have hle := stepsDue_le c backlog
  obtain ⟨spent, hmul, hnanos⟩ := Duration.checkedMul_within hle
  simp only [hmul]
  refine ⟨_, rfl, ⟨rfl, rfl, ?_, fun hlt => ?_⟩, ?_⟩
  · change c.stepsDue backlog ≤ c.maxStepsPerAdvance
    rw [UInt32.le_iff_toNat_le, stepsDue_toNat]
    exact Nat.min_le_right _ _
  · change backlog.asNanos - spent.asNanos < c.tick.asNanos
    rw [hnanos]
    exact stepsDue_rest hlt
  · change (c.stepsDue backlog).toNat * c.tick.asNanos + (backlog.asNanos - spent.asNanos) = _
    rw [hnanos, Nat.mul_comm]
    omega

/-- Who waits until the next step gets one. -/
theorem untilNextStep_due (c : FixedStepClock) :
    0 < (c.stepsDue (c.backlog.saturatingAdd c.untilNextStep)).toNat := by
  have hwait : c.untilNextStep.asNanos = c.tick.asNanos - c.backlog.asNanos := rfl
  have htick := c.tick.lt_limit
  have hbacklog := c.backlog.lt_limit
  have hmax := c.maxSteps_pos
  have hsum := Duration.saturatingAdd_asNanos (a := c.backlog) (b := c.untilNextStep) (by omega)
  have hone : 0 < (c.backlog.saturatingAdd c.untilNextStep).asNanos / c.tick.asNanos :=
    Nat.div_pos (by omega) c.tick_pos
  rw [stepsDue_toNat]
  omega

/-- Steps and backlog account for all the time, call after call, as long as the time fits in a
duration. -/
theorem advances_spec (c : FixedStepClock) (times : List Duration) : ∃ calls,
    c.advances times = .ok calls ∧ calls.length = times.length ∧
      ∀ (k : ℕ) (called : Advance), calls[k]? = some called → Bounded c called ∧
        (c.backlog.asNanos + totalNanos (times.take (k + 1)) < nanosLimit →
          totalSteps (calls.take (k + 1)) * c.tick.asNanos + called.clock.backlog.asNanos =
            c.backlog.asNanos + totalNanos (times.take (k + 1))) := by
  induction times generalizing c with
  | nil => exact ⟨[], rfl, rfl, fun k called h => by cases h⟩
  | cons elapsed times ih =>
    obtain ⟨first, hfirst, hbound, hmoved⟩ := advance_spec c elapsed
    obtain ⟨calls, hcalls, hlen, hrest⟩ := ih first.clock
    refine ⟨first :: calls, ?_, by rw [List.length_cons, hlen, List.length_cons], ?_⟩
    · simp only [FixedStepClock.advances, hfirst, hcalls, ok_bind, pure_ok]
    · intro k called hk
      simp only [List.take_succ_cons, totalNanos, totalSteps, List.map_cons, List.sum_cons] at hrest ⊢
      cases k with
      | zero =>
        cases hk
        refine ⟨hbound, fun hfit => ?_⟩
        simp only [List.take_zero, List.map_nil, List.sum_nil, Nat.add_zero] at hfit ⊢
        rw [hmoved, Duration.saturatingAdd_asNanos hfit]
      | succ k =>
        obtain ⟨hcalled, hconserved⟩ := hrest k called hk
        refine ⟨⟨hcalled.tick.trans hbound.tick, hcalled.maxSteps.trans hbound.maxSteps,
          hbound.maxSteps ▸ hcalled.due_le, hbound.tick ▸ hbound.maxSteps ▸ hcalled.caught_up⟩,
          fun hfit => ?_⟩
        rw [Duration.saturatingAdd_asNanos (by omega)] at hmoved
        have hsplit := hconserved (by omega)
        rw [hbound.tick] at hsplit
        rw [Nat.add_mul]
        omega

/-- After each call: the burst is within the limit, one below it leaves less than a tick, and the
steps returned so far and the backlog make up the time elapsed so far. -/
def Accounted (tick : Duration) (maxSteps : UInt32) (times : List Duration) (calls : List Advance) :
    Prop :=
  ∀ (k : ℕ) (called : Advance), calls[k]? = some called →
    called.due ≤ maxSteps ∧
    (called.due < maxSteps → called.clock.backlog.asNanos < tick.asNanos) ∧
    (totalNanos (times.take (k + 1)) < nanosLimit →
      totalSteps (calls.take (k + 1)) * tick.asNanos + called.clock.backlog.asNanos =
        totalNanos (times.take (k + 1)))

/-- The calls on a new clock return, and none of them loses time. -/
theorem backlog_conserved {tick : Duration} {maxSteps : UInt32} {clock : FixedStepClock}
    (h : FixedStepClock.new tick maxSteps = some clock) (times : List Duration) : ∃ calls,
    clock.advances times = .ok calls ∧ calls.length = times.length ∧
      Accounted tick maxSteps times calls := by
  unfold FixedStepClock.new at h
  split at h
  · cases h
    obtain ⟨calls, hcalls, hlen, hspec⟩ := advances_spec ⟨tick, maxSteps, .zero, _, _⟩ times
    refine ⟨calls, hcalls, hlen, fun k called hk => ?_⟩
    obtain ⟨hbound, hconserved⟩ := hspec k called hk
    have hzero : Duration.zero.asNanos = 0 := rfl
    rw [hzero, Nat.zero_add] at hconserved
    exact ⟨hbound.due_le, hbound.caught_up, hconserved⟩
  · cases h

/-- Ticks of 16 ms in bursts of eight. -/
def burstClock : FixedStepClock :=
  ⟨⟨16000000, by decide⟩, 8, .zero, by decide, by decide⟩

/-- Twenty ticks at once, then two calls that only catch up. -/
def stall : List Duration := [⟨320000000, by decide⟩, .zero, .zero]

theorem backlog_conserved_stall : ∃ calls, burstClock.advances stall = .ok calls ∧
    calls.length = stall.length ∧ Accounted burstClock.tick 8 stall calls :=
  backlog_conserved rfl stall

end TuiTetris.SessionFixedStep
