import Mathlib.Order.MinMax
import TuiTetris.CoreDescents

set_option autoImplicit false

/-!
# Rows of gravity in a tick

The drop timer keeps what earlier ticks have left in it. A soft drop makes the
interval ten times shorter, and the rest of a long interval is then worth many
short ones.
-/
namespace TuiTetris.CoreGravity
open CoreTypes CoreBoard CoreScoring CoreGameState CoreGameStateLoops CoreGameStateEffects
open CoreGameStateInvariant CoreTimers CoreDescents LibTransition

/-! ## The loop -/

theorem intervals_step {t interval : ℕ} (hi : 0 < interval) (h : interval ≤ t) (d : ℕ) :
    min ((t - interval) / interval) d + 1 = min (t / interval) (d + 1) := by
  have hdiv : t / interval = (t - interval) / interval + 1 := Nat.div_eq_sub_div hi h
  omega

/-- The loop lowers the piece once for each interval in the timer, as far as it can fall. -/
theorem gravityLoop_lowers {interval : UInt32} (hi : 0 < interval.toNat) {fuel d : ℕ}
    {s : GameState} {p : Tetromino} (hp : s.active = some p)
    (hroom : ∀ e < d, canDrop s.board p e = true) (hstop : canDrop s.board p d = false)
    (hf : s.dropTimerMs.toNat ≤ fuel) (changed : Bool) :
    (GameState.gravityLoop interval fuel s changed).1.active =
      some (lowered p (min (s.dropTimerMs.toNat / interval.toNat) d)) := by
  induction fuel generalizing s p d changed with
  | zero =>
    have h0 : s.dropTimerMs.toNat = 0 := by omega
    rw [h0, Nat.zero_div, Nat.zero_min, lowered_zero]
    exact hp
  | succ fuel ih =>
    unfold GameState.gravityLoop
    split
    · next h =>
      have hle : interval.toNat ≤ s.dropTimerMs.toNat := UInt32.le_iff_toNat_le.mp h
      have hsub : (s.dropTimerMs - interval).toNat = s.dropTimerMs.toNat - interval.toNat :=
        UInt32.toNat_sub_of_le _ _ h
      let s₁ : GameState := { s with dropTimerMs := s.dropTimerMs - interval }
      have htimer : (s₁.tryMove 0 1).1.dropTimerMs.toNat = s.dropTimerMs.toNat - interval.toNat := by
        rw [tryMove_dropTimer]
        exact hsub
      have hboard : (s₁.tryMove 0 1).1.board = s.board := (glides_tryMove s₁ 0 1).board
      cases d with
      | zero =>
        have hmove : s₁.tryMove 0 1 = (s₁, false) := tryMove_blocked hp hstop
        have hfuel : s₁.dropTimerMs.toNat ≤ fuel := Nat.le_trans (Nat.le_of_eq hsub) (by omega)
        have hrest := ih (s := s₁) hp hroom hstop hfuel (changed || false)
        rw [Nat.min_zero] at hrest ⊢
        change (GameState.gravityLoop interval fuel (s₁.tryMove 0 1).1 _).1.active = _
        rw [hmove]
        exact hrest
      | succ d =>
        obtain ⟨-, hactive⟩ := tryMove_lowered (s := s₁) hp (hroom 0 (Nat.succ_pos d))
        have hrest := ih (s := (s₁.tryMove 0 1).1) (d := d) hactive
          (fun e he => by
            rw [hboard, canDrop_lowered, Nat.add_comm]
            exact hroom _ (Nat.succ_lt_succ he))
          (by rw [hboard, canDrop_lowered, Nat.add_comm, hstop]) (by omega)
          (changed || (s₁.tryMove 0 1).2)
        rw [htimer, lowered_succ, intervals_step hi hle] at hrest
        exact hrest
    · next h =>
      have hlt : s.dropTimerMs.toNat < interval.toNat := UInt32.lt_iff_toNat_lt.mp (UInt32.not_le.mp h)
      rw [Nat.div_eq_of_lt hlt, Nat.zero_min, lowered_zero]
      exact hp

/-! ## One tick -/

/-- The interval in force when the tick comes to gravity. -/
def gravityInterval (s : GameState) (elapsedMs : UInt32) (softDrop : Bool) : UInt32 :=
  (((s.tickCounters elapsedMs).tickLineClear elapsedMs).tickSoftDrop elapsedMs softDrop).dropIntervalMs

/-- Rows by which gravity moves the active piece in the tick. -/
def gravityRows (s : GameState) (elapsedMs : UInt32) (softDrop : Bool) : ℕ :=
  match s.active, (fallenState s elapsedMs softDrop).bind GameState.active with
  | some p, some q => (q.y.toInt - p.y.toInt).toNat
  | _, _ => 0

def softDropIntervalMs (s : GameState) : UInt32 := getDropIntervalMs s.level / softDropMultiplier

/-- One row for each interval in the elapsed time and one for the rest in the timer; a fixed step
that is no longer than a soft-drop interval has one row. -/
def allowedRows (s : GameState) (elapsedMs : UInt32) (softDrop : Bool) : ℕ :=
  if elapsedMs = tickMs ∧ tickMs ≤ softDropIntervalMs s then 1
  else elapsedMs.toNat / (gravityInterval s elapsedMs softDrop).toNat + 1

/-- Where gravity runs, the piece is near its landing row or the timer holds few intervals. -/
def Paced (s : GameState) (elapsedMs : UInt32) (softDrop : Bool) : Prop :=
  ∀ p, s.active = some p → (fallenState s elapsedMs softDrop).isSome = true →
    GameState.dropDistance s.board p ≤ allowedRows s elapsedMs softDrop ∨
      (satAdd s.dropTimerMs elapsedMs).toNat <
        (allowedRows s elapsedMs softDrop + 1) * (gravityInterval s elapsedMs softDrop).toNat

theorem tickSoftDrop_kept (s : GameState) (elapsedMs : UInt32) (softDrop : Bool) :
    (s.tickSoftDrop elapsedMs softDrop).board = s.board ∧
      (s.tickSoftDrop elapsedMs softDrop).active = s.active ∧
      (s.tickSoftDrop elapsedMs softDrop).dropTimerMs = s.dropTimerMs := by
  unfold GameState.tickSoftDrop
  cases softDrop with
  | false =>
    simp only [Bool.false_eq_true, if_false]
    split <;> exact ⟨rfl, rfl, rfl⟩
  | true =>
    simp only [if_true]
    split <;> exact ⟨rfl, rfl, rfl⟩

/-- The state that gravity leaves has the piece lowered by the intervals in the timer. -/
theorem fallenState_lowered {s u : GameState} {p : Tetromino} {elapsedMs : UInt32} {softDrop : Bool}
    (hp : s.active = some p) (h : fallenState s elapsedMs softDrop = some u) :
    u.active = some (lowered p (min ((satAdd s.dropTimerMs elapsedMs).toNat /
      (gravityInterval s elapsedMs softDrop).toNat) (GameState.dropDistance s.board p))) := by
  unfold fallenState at h
  split at h
  · cases h
  · simp only at h
    split at h
    · cases h
    · cases h
      obtain ⟨-, hroom, hstop⟩ := dropDistance_spec s.board p
      let v := ((s.tickCounters elapsedMs).tickLineClear elapsedMs).tickSoftDrop elapsedMs softDrop
      have hkept : v.board = s.board ∧ v.active = s.active ∧ v.dropTimerMs = s.dropTimerMs :=
        tickSoftDrop_kept _ elapsedMs softDrop
      obtain ⟨hboard, hactive, htimer⟩ := hkept
      rw [← hboard] at hroom hstop
      have hloop := gravityLoop_lowers (dropIntervalMs_pos v)
        (s := { v with dropTimerMs := satAdd v.dropTimerMs elapsedMs }) (hactive.trans hp) hroom hstop
        (Nat.le_refl _) false
      rw [← htimer, ← hboard]
      exact hloop

theorem gravityRows_eq {s u : GameState} {p : Tetromino} {elapsedMs : UInt32} {softDrop : Bool}
    (hi : Invariant s) (hp : s.active = some p) (h : fallenState s elapsedMs softDrop = some u) :
    gravityRows s elapsedMs softDrop = min ((satAdd s.dropTimerMs elapsedMs).toNat /
      (gravityInterval s elapsedMs softDrop).toNat) (GameState.dropDistance s.board p) := by
  have hle := (dropDistance_spec s.board p).1
  have hy := lowered_y (hi.valid p hp)
    (Nat.le_trans (Nat.min_le_right ((satAdd s.dropTimerMs elapsedMs).toNat /
      (gravityInterval s elapsedMs softDrop).toNat) _) hle)
  simp only [gravityRows, hp, h, Option.bind_some, fallenState_lowered hp h, hy]
  rw [Int.add_comm, Int.add_sub_cancel, Int.toNat_natCast]

theorem gravityRows_idle {s : GameState} {elapsedMs : UInt32} {softDrop : Bool}
    (h : fallenState s elapsedMs softDrop = none) : gravityRows s elapsedMs softDrop = 0 := by
  unfold gravityRows
  rw [h]
  cases s.active <;> rfl

theorem gravityInterval_pos (s : GameState) (elapsedMs : UInt32) (softDrop : Bool) :
    0 < (gravityInterval s elapsedMs softDrop).toNat := dropIntervalMs_pos _

theorem rows_le_iff {s : GameState} (hi : Invariant s) (elapsedMs : UInt32) (softDrop : Bool) :
    gravityRows s elapsedMs softDrop ≤ allowedRows s elapsedMs softDrop ↔
      Paced s elapsedMs softDrop := by
  have hpos := gravityInterval_pos s elapsedMs softDrop
  unfold Paced
  cases hf : fallenState s elapsedMs softDrop with
  | none =>
    rw [gravityRows_idle hf]
    simp
  | some u =>
    obtain ⟨hglide, -, ha⟩ := glides_fallenState hf
    obtain ⟨p, hp⟩ : ∃ p, s.active = some p := by
      have hk := congrArg Option.isSome hglide.kind
      rw [Option.isSome_map, Option.isSome_map] at hk
      exact Option.isSome_iff_exists.mp (hk.symm.trans ha)
    rw [gravityRows_eq hi hp hf, min_le_iff, ← Nat.lt_succ_iff, Nat.div_lt_iff_lt_mul hpos]
    simp [hp, or_comm]

/-- A tick has no more rows of gravity than the elapsed time has intervals, and one; a fixed step
at most as long as a soft-drop interval has one. -/
def GravityBounded (s : GameState) (elapsedMs : UInt32) (softDrop : Bool) : Prop :=
  gravityRows s elapsedMs softDrop ≤
      elapsedMs.toNat / (gravityInterval s elapsedMs softDrop).toNat + 1 ∧
    (elapsedMs = tickMs → tickMs ≤ softDropIntervalMs s → gravityRows s elapsedMs softDrop ≤ 1)

theorem bounded_iff (s : GameState) (elapsedMs : UInt32) (softDrop : Bool) :
    GravityBounded s elapsedMs softDrop ↔
      gravityRows s elapsedMs softDrop ≤ allowedRows s elapsedMs softDrop := by
  unfold GravityBounded allowedRows
  split
  · next h =>
    constructor
    · exact fun hb => hb.2 h.1 h.2
    · exact fun hb => ⟨Nat.le_trans hb (Nat.le_add_left 1 _), fun _ _ => hb⟩
  · next h => exact and_iff_left fun he hs => absurd ⟨he, hs⟩ h

theorem softDropIntervalMs_le (s : GameState) (elapsedMs : UInt32) (softDrop : Bool) :
    (softDropIntervalMs s).toNat ≤ (gravityInterval s elapsedMs softDrop).toNat := by
  have hlevel : (((s.tickCounters elapsedMs).tickLineClear elapsedMs).tickSoftDrop elapsedMs
      softDrop).level = s.level := (glides_tickSoftDrop _ elapsedMs softDrop).level
  unfold gravityInterval GameState.dropIntervalMs softDropIntervalMs
  rw [hlevel]
  simp only
  split
  · exact Nat.le_refl _
  · rw [UInt32.toNat_div]
    exact Nat.div_le_self _ _

/-- Only a timer that carries more than the interval now in force breaks the bound. -/
theorem paced_of_timer {s : GameState} {elapsedMs : UInt32} {softDrop : Bool}
    (h : s.dropTimerMs < gravityInterval s elapsedMs softDrop) : Paced s elapsedMs softDrop := by
  refine fun p _ _ => .inr ?_
  have hlt := UInt32.lt_iff_toNat_lt.mp h
  have hsat := satAdd_toNat s.dropTimerMs elapsedMs
  have hsoft := softDropIntervalMs_le s elapsedMs softDrop
  unfold allowedRows
  generalize (gravityInterval s elapsedMs softDrop).toNat = interval at hlt hsoft ⊢
  split
  · next hstep =>
    have h16 : tickMs.toNat = 16 := rfl
    have hle := UInt32.le_iff_toNat_le.mp hstep.2
    rw [hstep.1] at hsat ⊢
    omega
  · have hdiv := Nat.div_add_mod elapsedMs.toNat interval
    have hmod := Nat.mod_lt elapsedMs.toNat (Nat.zero_lt_of_lt hlt)
    rw [Nat.mul_comm] at hdiv
    simp only [Nat.add_mul, Nat.one_mul]
    omega

/-- In every reachable state. -/
theorem gravity_bounded_iff (seed : UInt32) (ops : List Op) (elapsedMs : UInt32) (softDrop : Bool) :
    let s := run Op.apply (GameState.new seed).start ops
    GravityBounded s elapsedMs softDrop ↔ Paced s elapsedMs softDrop := by
  intro s
  rw [bounded_iff]
  exact rows_le_iff (invariant_run (invariant_start seed) ops) elapsedMs softDrop

/-- Almost a second at level 0, and a soft drop. -/
def lateSoftDrop : List Op := List.replicate 62 (.tick 16 false) ++ [.action .SoftDrop]

theorem lateSoftDrop_falls : ¬∀ (seed : UInt32) (ops : List Op) (elapsedMs : UInt32) (softDrop : Bool),
    GravityBounded (run Op.apply (GameState.new seed).start ops) elapsedMs softDrop := by
  intro h
  have hrows : gravityRows (run Op.apply (GameState.new 1).start lateSoftDrop) 16 false = 10 := by
    decide +kernel
  have hstep : tickMs ≤ softDropIntervalMs (run Op.apply (GameState.new 1).start lateSoftDrop) := by
    decide +kernel
  have hb := (h 1 lateSoftDrop 16 false).2 rfl hstep
  omega

end TuiTetris.CoreGravity
