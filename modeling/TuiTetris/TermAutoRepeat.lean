import TuiTetris.LibMeter
import TuiTetris.TermInputHandler

set_option autoImplicit false

/-!
# Repeats of a held key

The accumulators are meters: what they release depends on the time that has gone
in, not on the calls it was cut into. The delay is paid once, in the call that
crosses it.
-/
namespace TuiTetris.TermAutoRepeat
open CoreTypes LibArrayVec LibDuration LibTransition LibMeter TermInputHandler
open TermInputHandler.InputHandler

/-! ## One call -/

/-- The loop takes whole intervals out of the accumulator and offers an action for each. -/
theorem repeatLoop_spec {rate : UInt32} (hr : 0 < rate.toNat) (action : GameAction) {fuel : ℕ}
    {accumulator : UInt32} (hf : accumulator.toNat ≤ fuel) (actions : Actions) :
    (repeatLoop rate action fuel accumulator actions).1.toNat = accumulator.toNat % rate.toNat ∧
      (repeatLoop rate action fuel accumulator actions).2.toList = (actions.toList ++
        List.replicate (accumulator.toNat / rate.toNat) action).take 32 := by
  induction fuel generalizing accumulator actions with
  | zero =>
    have h0 : accumulator.toNat = 0 := by omega
    rw [h0, Nat.zero_mod, Nat.zero_div, List.replicate_zero, List.append_nil]
    exact ⟨h0, actions.take_toList.symm⟩
  | succ fuel ih =>
    unfold repeatLoop
    split
    · next h =>
      have hsub := UInt32.toNat_sub_of_le _ _ h
      have hle := UInt32.le_iff_toNat_le.mp h
      have hfuel : (accumulator - rate).toNat ≤ fuel := by omega
      have hrest := ih hfuel (actions.push action)
      rw [hsub, ← Nat.mod_eq_sub_mod hle, ArrayVec.push_toList_take, take_append_take] at hrest
      rw [Nat.div_eq_sub_div hr hle, List.replicate_succ]
      simpa only [List.append_assoc, List.singleton_append] using hrest
    · next h =>
      have hlt := UInt32.lt_iff_toNat_lt.mp (UInt32.not_le.mp h)
      rw [Nat.mod_eq_of_lt hlt, Nat.div_eq_of_lt hlt, List.replicate_zero, List.append_nil]
      exact ⟨rfl, actions.take_toList.symm⟩

/-- The actions account for what the loop takes, and what is left is less than an interval. -/
theorem repeatLoop_metered {rate : UInt32} (hr : 0 < rate.toNat) (action : GameAction)
    (accumulator : UInt32) (actions : Actions) :
    accumulator.toNat / rate.toNat * rate.toNat +
        (repeatLoop rate action accumulator.toNat accumulator actions).1.toNat =
      accumulator.toNat ∧
    (repeatLoop rate action accumulator.toNat accumulator actions).1.toNat < rate.toNat := by
  rw [(repeatLoop_spec hr action (Nat.le_refl _) actions).1]
  exact ⟨Nat.div_add_mod' _ _, Nat.mod_lt _ hr⟩

theorem toNat_add {a b : UInt32} (h : a.toNat + b.toNat < 2 ^ 32) :
    (a + b).toNat = a.toNat + b.toNat := by
  rw [UInt32.toNat_add, Nat.mod_eq_of_lt h]

/-- The moves that a call offers for a key held on one side. -/
def horizontalRepeats (h : InputHandler) (elapsedMs : UInt32) : ℕ :=
  if h.horizontal ≠ .None ∧ h.horizontalDasTimer + elapsedMs ≥ h.dasDelay then
    (h.horizontalDue elapsedMs).toNat / h.arrRate.toNat
  else 0

def downRepeats (h : InputHandler) (elapsedMs : UInt32) : ℕ :=
  if h.downHeld then (h.downDue elapsedMs).toNat / softDropArrMs.toNat else 0

/-- All actions that a call offers to its vector. -/
def demand (h : InputHandler) (now : Instant) (elapsedMs : UInt32) : ℕ :=
  horizontalRepeats (h.autoRelease now) elapsedMs + downRepeats (h.autoRelease now) elapsedMs

def sideAction : HorizontalDirection → GameAction
  | .Right => .MoveRight
  | _ => .MoveLeft

/-- The settings and the down key are not touched. -/
structure SameDown (h u : InputHandler) : Prop where
  downHeld : u.downHeld = h.downHeld
  downDasTimer : u.downDasTimer = h.downDasTimer
  downArrAccumulator : u.downArrAccumulator = h.downArrAccumulator

structure SameHorizontal (h u : InputHandler) : Prop where
  horizontal : u.horizontal = h.horizontal
  horizontalDasTimer : u.horizontalDasTimer = h.horizontalDasTimer
  horizontalArrAccumulator : u.horizontalArrAccumulator = h.horizontalArrAccumulator
  dasDelay : u.dasDelay = h.dasDelay
  arrRate : u.arrRate = h.arrRate

theorem updateHorizontal_eq {h : InputHandler} (hd : h.horizontal ≠ .None) (elapsedMs : UInt32)
    (actions : Actions) : h.updateHorizontal elapsedMs actions =
      h.repeatHorizontal (sideAction h.horizontal) elapsedMs actions := by
  unfold updateHorizontal
  cases hs : h.horizontal with
  | Left => rfl
  | Right => rfl
  | None => exact absurd hs hd

theorem updateHorizontal_sameDown (h : InputHandler) (elapsedMs : UInt32) (actions : Actions) :
    SameDown h (h.updateHorizontal elapsedMs actions).1 := by
  by_cases hd : h.horizontal = .None
  · unfold updateHorizontal
    rw [hd]
    exact ⟨rfl, rfl, rfl⟩
  · rw [updateHorizontal_eq hd]
    unfold repeatHorizontal
    simp only
    split <;> exact ⟨rfl, rfl, rfl⟩

theorem updateDown_sameHorizontal (h : InputHandler) (elapsedMs : UInt32) (actions : Actions) :
    SameHorizontal h (h.updateDown elapsedMs actions).1 := by
  unfold updateDown
  split <;> exact ⟨rfl, rfl, rfl, rfl, rfl⟩

theorem updateHorizontal_actions (h : InputHandler) (elapsedMs : UInt32) (actions : Actions) :
    (h.updateHorizontal elapsedMs actions).2.toList = (actions.toList ++
      List.replicate (horizontalRepeats h elapsedMs) (sideAction h.horizontal)).take 32 := by
  unfold horizontalRepeats
  by_cases hd : h.horizontal = .None
  · rw [if_neg fun hc => hc.1 hd, List.replicate_zero, List.append_nil, actions.take_toList]
    unfold updateHorizontal
    rw [hd]
  · rw [updateHorizontal_eq hd]
    unfold repeatHorizontal
    simp only
    split
    · next hdue =>
      rw [if_pos ⟨hd, hdue⟩]
      exact (repeatLoop_spec h.arrRate_pos _ (Nat.le_refl _) actions).2
    · next hdue =>
      rw [if_neg fun hc => hdue hc.2, List.replicate_zero, List.append_nil, actions.take_toList]

theorem updateDown_actions (h : InputHandler) (elapsedMs : UInt32) (actions : Actions) :
    (h.updateDown elapsedMs actions).2.toList =
      (actions.toList ++ List.replicate (downRepeats h elapsedMs) GameAction.SoftDrop).take 32 := by
  have hrate : 0 < softDropArrMs.toNat := by decide
  unfold updateDown downRepeats
  split
  · exact (repeatLoop_spec hrate _ (Nat.le_refl _) actions).2
  · rw [List.replicate_zero, List.append_nil, actions.take_toList]

/-- A call emits what it offers, cut at the capacity of the vector. -/
theorem update_actions (h : InputHandler) (now : Instant) (elapsedMs : UInt32) :
    (h.update now elapsedMs).2.toList =
      (List.replicate (horizontalRepeats (h.autoRelease now) elapsedMs)
          (sideAction (h.autoRelease now).horizontal) ++
        List.replicate (downRepeats (h.autoRelease now) elapsedMs) GameAction.SoftDrop).take 32 := by
  unfold update
  simp only
  generalize h.autoRelease now = u
  have hsame := updateHorizontal_sameDown u elapsedMs .empty
  have hdown : downRepeats (u.updateHorizontal elapsedMs .empty).1 elapsedMs =
      downRepeats u elapsedMs := by
    unfold downRepeats downDue
    rw [hsame.downHeld, hsame.downArrAccumulator]
  rw [updateDown_actions, hdown, updateHorizontal_actions, take_append_take, ArrayVec.empty_toList,
    List.nil_append]

def isMove : GameAction → Bool
  | .MoveLeft | .MoveRight => true
  | _ => false

def isSoftDrop : GameAction → Bool
  | .SoftDrop => true
  | _ => false

theorem autoRelease_alive {h : InputHandler} {now : Instant} (ht : h.timedOut now = false) :
    h.autoRelease now = h := by
  unfold autoRelease
  rw [ht, if_neg (by decide)]

/-- Within the capacity no offered action is lost. -/
theorem update_counts {h : InputHandler} {now : Instant} {elapsedMs : UInt32}
    (ht : h.timedOut now = false) (hcap : demand h now elapsedMs ≤ 32) :
    (h.update now elapsedMs).2.toList.countP isMove = horizontalRepeats h elapsedMs ∧
      (h.update now elapsedMs).2.toList.countP isSoftDrop = downRepeats h elapsedMs := by
  unfold demand at hcap
  rw [autoRelease_alive ht] at hcap
  have hmove : ∀ d, isMove (sideAction d) = true ∧ isSoftDrop (sideAction d) = false := by
    intro d
    cases d <;> exact ⟨rfl, rfl⟩
  have hdrop : isMove .SoftDrop = false ∧ isSoftDrop .SoftDrop = true := ⟨rfl, rfl⟩
  rw [update_actions, autoRelease_alive ht, List.take_of_length_le]
  · simp [List.countP_append, List.countP_replicate, hmove, hdrop]
  · rw [List.length_append, List.length_replicate, List.length_replicate]
    exact hcap

/-! ## A key held on one side -/

/-- The time that a held key has collected beyond the delay. -/
def overDelay (h : InputHandler) : ℕ := h.horizontalDasTimer.toNat - h.dasDelay.toNat

/-- The key is held with less than one interval in the accumulator, all of it from after the
delay. -/
structure HeldSide (direction : HorizontalDirection) (das rate : UInt32) (h : InputHandler) :
    Prop where
  horizontal : h.horizontal = direction
  dasDelay : h.dasDelay = das
  arrRate : h.arrRate = rate
  below : h.horizontalArrAccumulator.toNat < rate.toNat
  after : h.horizontalArrAccumulator.toNat ≤ overDelay h

theorem horizontalDue_toNat {h : InputHandler} {elapsedMs : UInt32}
    (hfit : h.horizontalDasTimer.toNat + elapsedMs.toNat < 2 ^ 32)
    (hafter : h.horizontalArrAccumulator.toNat ≤ overDelay h)
    (hdue : h.horizontalDasTimer + elapsedMs ≥ h.dasDelay) :
    (h.horizontalDue elapsedMs).toNat + overDelay h = h.horizontalArrAccumulator.toNat +
      (h.horizontalDasTimer.toNat + elapsedMs.toNat - h.dasDelay.toNat) := by
  have htimer := toNat_add hfit
  have hle := UInt32.le_iff_toNat_le.mp hdue
  unfold overDelay at hafter ⊢
  unfold horizontalDue
  simp only
  split
  · next hcross =>
    have hlt := UInt32.lt_iff_toNat_lt.mp hcross
    have hsub := UInt32.toNat_sub_of_le _ _ hdue
    rw [toNat_add (by omega)]
    omega
  · next hlater =>
    have hge := UInt32.le_iff_toNat_le.mp (UInt32.not_lt.mp hlater)
    rw [toNat_add (by omega)]
    omega

/-- The timer has taken the time, and the accumulator is a meter of the time beyond the delay. -/
structure Metered (h : InputHandler) (elapsedMs : UInt32) (u : InputHandler) : Prop where
  timer : u.horizontalDasTimer.toNat = h.horizontalDasTimer.toNat + elapsedMs.toNat
  meter : horizontalRepeats h elapsedMs * h.arrRate.toNat + u.horizontalArrAccumulator.toNat =
    h.horizontalArrAccumulator.toNat + (overDelay u - overDelay h)

theorem repeatHorizontal_spec {direction : HorizontalDirection} {das rate : UInt32}
    {h : InputHandler} {elapsedMs : UInt32} (hd : direction ≠ .None)
    (hheld : HeldSide direction das rate h)
    (hfit : h.horizontalDasTimer.toNat + elapsedMs.toNat < 2 ^ 32) (action : GameAction)
    (actions : Actions) :
    HeldSide direction das rate (h.repeatHorizontal action elapsedMs actions).1 ∧
      Metered h elapsedMs (h.repeatHorizontal action elapsedMs actions).1 := by
  obtain ⟨hhor, hdas, hrate, hbelow, hafter⟩ := hheld
  have hside : h.horizontal ≠ .None := hhor ▸ hd
  have htimer := toNat_add hfit
  unfold repeatHorizontal
  simp only
  split
  · next hdue =>
    have hacc := horizontalDue_toNat hfit hafter hdue
    obtain ⟨hmeter, hless⟩ :=
      repeatLoop_metered h.arrRate_pos action (h.horizontalDue elapsedMs) actions
    have hcount : horizontalRepeats h elapsedMs =
      (h.horizontalDue elapsedMs).toNat / h.arrRate.toNat := if_pos ⟨hside, hdue⟩
    refine ⟨⟨hhor, hdas, hrate, hrate ▸ hless, ?_⟩, ⟨htimer, ?_⟩⟩
    · unfold overDelay at hacc hafter ⊢
      simp only [htimer]
      omega
    · unfold overDelay at hacc hafter ⊢
      simp only [hcount, htimer]
      omega
  · next hdue =>
    have hlt := UInt32.lt_iff_toNat_lt.mp (UInt32.not_le.mp hdue)
    have hcount : horizontalRepeats h elapsedMs = 0 := if_neg fun hc => hdue hc.2
    refine ⟨⟨hhor, hdas, hrate, hbelow, ?_⟩, ⟨htimer, ?_⟩⟩
    · unfold overDelay at hafter ⊢
      simp only [htimer]
      omega
    · unfold overDelay at hafter ⊢
      simp only [hcount, htimer]
      omega

/-- One call in which the key stays held. -/
theorem update_heldSide {direction : HorizontalDirection} {das rate : UInt32} {h : InputHandler}
    {now : Instant} {elapsedMs : UInt32} (hd : direction ≠ .None)
    (hheld : HeldSide direction das rate h) (ht : h.timedOut now = false)
    (hfit : h.horizontalDasTimer.toNat + elapsedMs.toNat < 2 ^ 32) :
    HeldSide direction das rate (h.update now elapsedMs).1 ∧
      Metered h elapsedMs (h.update now elapsedMs).1 := by
  have hside : h.horizontal ≠ .None := hheld.horizontal ▸ hd
  unfold update
  rw [autoRelease_alive ht, updateHorizontal_eq hside]
  obtain ⟨hheld', hmetered⟩ :=
    repeatHorizontal_spec hd hheld hfit (sideAction h.horizontal) .empty
  simp only
  generalize h.repeatHorizontal (sideAction h.horizontal) elapsedMs .empty = moved at hheld' hmetered ⊢
  have hsame := updateDown_sameHorizontal moved.1 elapsedMs moved.2
  have hover : overDelay (moved.1.updateDown elapsedMs moved.2).1 = overDelay moved.1 := by
    unfold overDelay
    rw [hsame.horizontalDasTimer, hsame.dasDelay]
  refine ⟨⟨hsame.horizontal.trans hheld'.horizontal, hsame.dasDelay.trans hheld'.dasDelay,
    hsame.arrRate.trans hheld'.arrRate, ?_, ?_⟩, ⟨?_, ?_⟩⟩
  · rw [hsame.horizontalArrAccumulator]
    exact hheld'.below
  · rw [hsame.horizontalArrAccumulator, hover]
    exact hheld'.after
  · rw [hsame.horizontalDasTimer]
    exact hmetered.timer
  · rw [hsame.horizontalArrAccumulator, hover]
    exact hmetered.meter

/-! ## A held down key -/

/-- The down key is held with less than one interval in the accumulator. -/
structure HeldDown (h : InputHandler) : Prop where
  downHeld : h.downHeld = true
  below : h.downArrAccumulator.toNat < softDropArrMs.toNat
  after : h.downArrAccumulator.toNat ≤ h.downDasTimer.toNat

theorem update_heldDown {h : InputHandler} {now : Instant} {elapsedMs : UInt32}
    (hheld : HeldDown h) (ht : h.timedOut now = false)
    (hfit : h.downDasTimer.toNat + elapsedMs.toNat < 2 ^ 32) :
    HeldDown (h.update now elapsedMs).1 ∧
      downRepeats h elapsedMs * softDropArrMs.toNat +
          (h.update now elapsedMs).1.downArrAccumulator.toNat =
        h.downArrAccumulator.toNat + elapsedMs.toNat := by
  have hsame := updateHorizontal_sameDown h elapsedMs .empty
  have hrate : 0 < softDropArrMs.toNat := by decide
  have hafter := hheld.after
  have hdue : (h.downDue elapsedMs).toNat = h.downArrAccumulator.toNat + elapsedMs.toNat := by
    unfold downDue
    exact toNat_add (by omega)
  have hcount : downRepeats h elapsedMs = (h.downDue elapsedMs).toNat / softDropArrMs.toNat :=
    if_pos hheld.downHeld
  unfold update
  rw [autoRelease_alive ht]
  simp only
  generalize h.updateHorizontal elapsedMs .empty = moved at hsame ⊢
  have hmoved : moved.1.downDue elapsedMs = h.downDue elapsedMs := by
    unfold downDue
    rw [hsame.downArrAccumulator]
  obtain ⟨hmeter, hless⟩ := repeatLoop_metered hrate .SoftDrop (h.downDue elapsedMs) moved.2
  have htimer := toNat_add hfit
  unfold updateDown
  rw [if_pos (hsame.downHeld.trans hheld.downHeld), hmoved, hsame.downDasTimer]
  refine ⟨⟨hsame.downHeld.trans hheld.downHeld, hless, ?_⟩, ?_⟩
  · simp only [htimer]
    omega
  · rw [hcount, ← hdue]
    exact hmeter

/-! ## Keys between the calls -/

inductive InputEvent where
  | keyPress (now : Instant) (code : KeyCode)
  | keyRepeat (now : Instant) (code : KeyCode)
  | keyRelease (code : KeyCode)
  | update (now : Instant) (elapsedMs : UInt32)
  | reset (now : Instant)

namespace InputEvent

def apply (h : InputHandler) : InputEvent → InputHandler
  | .keyPress now code => (h.handleKeyPress now code).1
  | .keyRepeat now code => h.handleKeyRepeat now code
  | .keyRelease code => h.handleKeyRelease code
  | .update now elapsedMs => (h.update now elapsedMs).1
  | .reset now => h.reset now

/-- The actions that `update` returns; a press has its action apart. -/
def actions (h : InputHandler) : InputEvent → List GameAction
  | .update now elapsedMs => (h.update now elapsedMs).2.toList
  | _ => []

def elapsed : InputEvent → ℕ
  | .update _ elapsedMs => elapsedMs.toNat
  | _ => 0

end InputEvent

theorem SameHorizontal.refl (h : InputHandler) : SameHorizontal h h := ⟨rfl, rfl, rfl, rfl, rfl⟩

theorem handleKeyRepeat_same (h : InputHandler) (now : Instant) (code : KeyCode) :
    SameHorizontal h (h.handleKeyRepeat now code) ∧ SameDown h (h.handleKeyRepeat now code) := by
  unfold handleKeyRepeat
  cases isMovementKey code with
  | true =>
    simp only [if_true]
    split <;> exact ⟨⟨rfl, rfl, rfl, rfl, rfl⟩, ⟨rfl, rfl, rfl⟩⟩
  | false =>
    simp only [Bool.false_eq_true, if_false]
    split
    · split <;> exact ⟨⟨rfl, rfl, rfl, rfl, rfl⟩, ⟨rfl, rfl, rfl⟩⟩
    · exact ⟨⟨rfl, rfl, rfl, rfl, rfl⟩, ⟨rfl, rfl, rfl⟩⟩

/-- A press of a key already held. -/
theorem repeatedPress_same (h : InputHandler) (now : Instant) (code : KeyCode) :
    SameHorizontal h ({ h with lastKeyTime := now }.handleKeyRepeat now code) ∧
      SameDown h ({ h with lastKeyTime := now }.handleKeyRepeat now code) := by
  obtain ⟨hside, hdown⟩ := handleKeyRepeat_same { h with lastKeyTime := now } now code
  exact ⟨⟨hside.1, hside.2, hside.3, hside.4, hside.5⟩, ⟨hdown.1, hdown.2, hdown.3⟩⟩

/-- A press is one of the key of a side, of the down key, or of no key of interest. -/
theorem handleKeyPress_cases (h : InputHandler) (now : Instant) (code : KeyCode) :
    (∃ direction, direction ≠ .None ∧ h.handleKeyPress now code =
        h.pressHorizontal now code direction (sideAction direction)) ∨
      h.handleKeyPress now code = h.pressDown now code ∨ h.handleKeyPress now code = (h, none) := by
  unfold handleKeyPress
  split
  all_goals first
    | exact .inl ⟨.Left, by decide, rfl⟩
    | exact .inl ⟨.Right, by decide, rfl⟩
    | exact .inr (.inl rfl)
    | exact .inr (.inr rfl)

theorem handleKeyRelease_cases (h : InputHandler) (code : KeyCode) :
    (∃ direction, direction ≠ .None ∧ h.handleKeyRelease code =
        if h.horizontal = direction then h.dropHorizontal else h) ∨
      h.handleKeyRelease code = h.dropDown ∨ h.handleKeyRelease code = h := by
  unfold handleKeyRelease
  split
  all_goals first
    | exact .inl ⟨.Left, by decide, rfl⟩
    | exact .inl ⟨.Right, by decide, rfl⟩
    | exact .inr (.inl rfl)
    | exact .inr (.inr rfl)

theorem press_sameHorizontal {h : InputHandler} {now : Instant} {code : KeyCode}
    (hkeep : (h.handleKeyPress now code).1.horizontal = h.horizontal) :
    SameHorizontal h (h.handleKeyPress now code).1 := by
  have hrepeat := (repeatedPress_same h now code).1
  rcases handleKeyPress_cases h now code with ⟨direction, -, hpress⟩ | hpress | hpress
  · rw [hpress] at hkeep ⊢
    unfold pressHorizontal at hkeep ⊢
    simp only at hkeep ⊢
    split at hkeep
    · next hsame =>
      rw [if_pos hsame]
      exact hrepeat
    · next hother => exact absurd hkeep.symm hother
  · rw [hpress]
    unfold pressDown
    simp only
    split
    · exact hrepeat
    · exact ⟨rfl, rfl, rfl, rfl, rfl⟩
  · rw [hpress]
    exact .refl h

theorem press_sameDown {h : InputHandler} {now : Instant} {code : KeyCode}
    (hheld : h.downHeld = true) : SameDown h (h.handleKeyPress now code).1 := by
  have hrepeat := (repeatedPress_same h now code).2
  rcases handleKeyPress_cases h now code with ⟨direction, -, hpress⟩ | hpress | hpress
  · rw [hpress]
    unfold pressHorizontal
    simp only
    split
    · exact hrepeat
    · exact ⟨rfl, rfl, rfl⟩
  · rw [hpress]
    unfold pressDown
    simp only
    rw [if_pos hheld]
    exact hrepeat
  · rw [hpress]
    exact ⟨rfl, rfl, rfl⟩

/-- A release that leaves the side held is one of another key. -/
theorem release_sameHorizontal {h : InputHandler} {code : KeyCode} (hd : h.horizontal ≠ .None)
    (hkeep : (h.handleKeyRelease code).horizontal = h.horizontal) :
    SameHorizontal h (h.handleKeyRelease code) := by
  rcases handleKeyRelease_cases h code with ⟨direction, -, hrelease⟩ | hrelease | hrelease
  · rw [hrelease] at hkeep ⊢
    split at hkeep
    · exact absurd hkeep.symm hd
    · next hother =>
      rw [if_neg hother]
      exact .refl h
  · rw [hrelease]
    exact ⟨rfl, rfl, rfl, rfl, rfl⟩
  · rw [hrelease]
    exact .refl h

theorem release_sameDown {h : InputHandler} {code : KeyCode}
    (hkeep : (h.handleKeyRelease code).downHeld = true) : SameDown h (h.handleKeyRelease code) := by
  rcases handleKeyRelease_cases h code with ⟨direction, -, hrelease⟩ | hrelease | hrelease
  · rw [hrelease]
    split <;> exact ⟨rfl, rfl, rfl⟩
  · rw [hrelease] at hkeep
    cases hkeep
  · rw [hrelease]
    exact ⟨rfl, rfl, rfl⟩

/-- The call finds the keys alive, its actions fit in the vector and the timer takes the time. -/
def Smooth (h : InputHandler) (now : Instant) (elapsedMs timer : UInt32) : Prop :=
  h.timedOut now = false ∧ demand h now elapsedMs ≤ 32 ∧ timer.toNat + elapsedMs.toNat < 2 ^ 32

/-- The key of the side is neither released nor replaced by the other one. -/
def KeepsSide (h : InputHandler) : InputEvent → Prop
  | .update now elapsedMs => Smooth h now elapsedMs h.horizontalDasTimer
  | event => (event.apply h).horizontal = h.horizontal

def KeepsDown (h : InputHandler) : InputEvent → Prop
  | .update now elapsedMs => Smooth h now elapsedMs h.downDasTimer
  | event => (event.apply h).downHeld = true

/-- Moves and soft drops that the calls of `update` emit. -/
def moves (h : InputHandler) (events : List InputEvent) : ℕ :=
  total InputEvent.apply (fun h event => (event.actions h).countP isMove) h events

def softDrops (h : InputHandler) (events : List InputEvent) : ℕ :=
  total InputEvent.apply (fun h event => (event.actions h).countP isSoftDrop) h events

def elapsedTotal (events : List InputEvent) : ℕ := (events.map InputEvent.elapsed).sum

theorem SameHorizontal.heldSide {direction : HorizontalDirection} {das rate : UInt32}
    {h u : InputHandler} (hs : SameHorizontal h u) (hh : HeldSide direction das rate h) :
    HeldSide direction das rate u ∧ u.horizontalDasTimer = h.horizontalDasTimer ∧
      u.horizontalArrAccumulator = h.horizontalArrAccumulator ∧ overDelay u = overDelay h := by
  have hover : overDelay u = overDelay h := by
    unfold overDelay
    rw [hs.horizontalDasTimer, hs.dasDelay]
  refine ⟨⟨hs.horizontal.trans hh.horizontal, hs.dasDelay.trans hh.dasDelay,
    hs.arrRate.trans hh.arrRate, ?_, ?_⟩, hs.horizontalDasTimer, hs.horizontalArrAccumulator, hover⟩
  · rw [hs.horizontalArrAccumulator]
    exact hh.below
  · rw [hs.horizontalArrAccumulator, hover]
    exact hh.after

theorem step_side {direction : HorizontalDirection} {das rate : UInt32} {h : InputHandler}
    {event : InputEvent} (hd : direction ≠ .None) (hh : HeldSide direction das rate h)
    (hk : KeepsSide h event) :
    HeldSide direction das rate (event.apply h) ∧
      (event.apply h).horizontalDasTimer.toNat = h.horizontalDasTimer.toNat + event.elapsed ∧
      (event.actions h).countP isMove * rate.toNat +
          (event.apply h).horizontalArrAccumulator.toNat =
        h.horizontalArrAccumulator.toNat + (overDelay (event.apply h) - overDelay h) := by
  have hkey : ∀ u, SameHorizontal h u → HeldSide direction das rate u ∧
      u.horizontalDasTimer.toNat = h.horizontalDasTimer.toNat + 0 ∧
      0 * rate.toNat + u.horizontalArrAccumulator.toNat =
        h.horizontalArrAccumulator.toNat + (overDelay u - overDelay h) := by
    intro u hs
    obtain ⟨hheld, htimer, hacc, hover⟩ := hs.heldSide hh
    refine ⟨hheld, congrArg UInt32.toNat htimer, ?_⟩
    rw [hacc, hover]
    omega
  cases event with
  | keyPress now code => exact hkey _ (press_sameHorizontal hk)
  | keyRepeat now code => exact hkey _ (handleKeyRepeat_same h now code).1
  | keyRelease code => exact hkey _ (release_sameHorizontal (hh.horizontal ▸ hd) hk)
  | update now elapsedMs =>
    obtain ⟨halive, hcap, hfit⟩ := hk
    obtain ⟨hheld, hmetered⟩ := update_heldSide hd hh halive hfit
    have hmeter := hmetered.meter
    rw [← (update_counts halive hcap).1, hh.arrRate] at hmeter
    exact ⟨hheld, hmetered.timer, hmeter⟩
  | reset now =>
    have hnone : HorizontalDirection.None = h.horizontal := hk
    exact absurd (hnone.trans hh.horizontal).symm hd

theorem step_down {h : InputHandler} {event : InputEvent} (hh : HeldDown h)
    (hk : KeepsDown h event) :
    HeldDown (event.apply h) ∧
      (event.actions h).countP isSoftDrop * softDropArrMs.toNat +
          (event.apply h).downArrAccumulator.toNat =
        h.downArrAccumulator.toNat + event.elapsed := by
  have hkey : ∀ u, SameDown h u → HeldDown u ∧
      0 * softDropArrMs.toNat + u.downArrAccumulator.toNat = h.downArrAccumulator.toNat + 0 := by
    intro u hs
    refine ⟨⟨hs.downHeld.trans hh.downHeld, ?_, ?_⟩, ?_⟩
    · rw [hs.downArrAccumulator]
      exact hh.below
    · rw [hs.downArrAccumulator, hs.downDasTimer]
      exact hh.after
    · rw [hs.downArrAccumulator]
      omega
  cases event with
  | keyPress now code => exact hkey _ (press_sameDown hh.downHeld)
  | keyRepeat now code => exact hkey _ (handleKeyRepeat_same h now code).2
  | keyRelease code => exact hkey _ (release_sameDown hk)
  | update now elapsedMs =>
    obtain ⟨halive, hcap, hfit⟩ := hk
    obtain ⟨hheld, hmeter⟩ := update_heldDown hh halive hfit
    rw [← (update_counts halive hcap).2] at hmeter
    exact ⟨hheld, hmeter⟩
  | reset now => cases hk

/-! ## Runs -/

/-- While the key is held the moves follow from the time alone. -/
theorem moves_heldSide {direction : HorizontalDirection} {das rate : UInt32} {h : InputHandler}
    (hd : direction ≠ .None) (hh : HeldSide direction das rate h)
    (htimer : h.horizontalDasTimer = 0) (hacc : h.horizontalArrAccumulator = 0)
    {events : List InputEvent} (hk : Along InputEvent.apply KeepsSide h events) :
    moves h events = (elapsedTotal events - das.toNat) / rate.toNat := by
  obtain ⟨halong, hend⟩ := Along.with_invariant (HeldSide direction das rate)
    (fun _ _ hu hku => (step_side hd hu hku).1) hh hk
  have htime := collected (fun u => u.horizontalDasTimer.toNat) (fun _ event => event.elapsed)
    (fun _ _ hu => (step_side hd hu.1 hu.2).2.1) halong
  have hrise := total_rises overDelay (fun u event hu => by
    have hstep := step_side hd hu.1 hu.2
    unfold overDelay
    rw [hstep.1.dasDelay, hu.1.dasDelay, hstep.2.1]
    omega) halong
  have hunits := conserved (fun u => u.horizontalArrAccumulator.toNat)
    (fun u event => overDelay (event.apply u) - overDelay u)
    (fun u event => (event.actions u).countP isMove) rate.toNat
    (fun _ _ hu => (step_side hd hu.1 hu.2).2.2) halong
  have hzero : (0 : UInt32).toNat = 0 := rfl
  rw [total_labels, htimer, hzero, Nat.zero_add] at htime
  have hstart : overDelay h = 0 := by
    unfold overDelay
    rw [htimer, hzero, Nat.zero_sub]
  have hover : overDelay (run InputEvent.apply h events) = elapsedTotal events - das.toNat := by
    unfold overDelay elapsedTotal
    rw [hend.dasDelay]
    exact congrArg (· - das.toNat) htime
  rw [hstart, Nat.zero_add] at hrise
  rw [hrise, hacc, hzero, Nat.zero_add] at hunits
  exact units_eq (hunits.trans hover) hend.below

theorem softDrops_heldDown {h : InputHandler} (hh : HeldDown h) (hacc : h.downArrAccumulator = 0)
    {events : List InputEvent} (hk : Along InputEvent.apply KeepsDown h events) :
    softDrops h events = elapsedTotal events / softDropArrMs.toNat := by
  obtain ⟨halong, hend⟩ := Along.with_invariant HeldDown
    (fun _ _ hu hku => (step_down hu hku).1) hh hk
  -- a variable, since unification would compute with the numeral
  obtain ⟨rate, hrate⟩ : ∃ rate, softDropArrMs.toNat = rate := ⟨_, rfl⟩
  have hstep : ∀ u event, HeldDown u ∧ KeepsDown u event →
      (event.actions u).countP isSoftDrop * rate + (event.apply u).downArrAccumulator.toNat =
        u.downArrAccumulator.toNat + event.elapsed := by
    intro u event hu
    rw [← hrate]
    exact (step_down hu.1 hu.2).2
  have hunits := conserved (fun u => u.downArrAccumulator.toNat) (fun _ event => event.elapsed)
    (fun u event => (event.actions u).countP isSoftDrop) rate hstep halong
  have hzero : (0 : UInt32).toNat = 0 := rfl
  rw [total_labels, hacc, hzero, Nat.zero_add] at hunits
  rw [hrate]
  exact units_eq hunits (Nat.lt_of_lt_of_eq hend.below hrate)

/-- A press that moves the piece starts the delay anew. -/
theorem press_heldSide {h : InputHandler} {now : Instant} {code : KeyCode} {action : GameAction}
    (hpress : (h.handleKeyPress now code).2 = some action) (hmove : isMove action = true) :
    ∃ direction, direction ≠ .None ∧
      HeldSide direction h.dasDelay h.arrRate (h.handleKeyPress now code).1 ∧
      (h.handleKeyPress now code).1.horizontalDasTimer = 0 ∧
      (h.handleKeyPress now code).1.horizontalArrAccumulator = 0 := by
  rcases handleKeyPress_cases h now code with ⟨direction, hd, hcase⟩ | hcase | hcase
  · rw [hcase] at hpress ⊢
    unfold pressHorizontal at hpress ⊢
    simp only at hpress ⊢
    split at hpress
    · cases hpress
    · next hother =>
      rw [if_neg hother]
      exact ⟨direction, hd, ⟨rfl, rfl, rfl, h.arrRate_pos, Nat.zero_le _⟩, rfl, rfl⟩
  · rw [hcase] at hpress
    unfold pressDown at hpress
    simp only at hpress
    split at hpress
    · cases hpress
    · cases hpress
      cases hmove
  · rw [hcase] at hpress
    cases hpress

theorem press_heldDown {h : InputHandler} {now : Instant} {code : KeyCode}
    (hpress : (h.handleKeyPress now code).2 = some .SoftDrop) :
    HeldDown (h.handleKeyPress now code).1 ∧
      (h.handleKeyPress now code).1.downArrAccumulator = 0 := by
  have hrate : 0 < softDropArrMs.toNat := by decide
  rcases handleKeyPress_cases h now code with ⟨direction, hd, hcase⟩ | hcase | hcase
  · rw [hcase] at hpress
    unfold pressHorizontal at hpress
    simp only at hpress
    split at hpress
    · cases hpress
    · cases direction <;> cases hpress
  · rw [hcase] at hpress ⊢
    unfold pressDown at hpress ⊢
    simp only at hpress ⊢
    split at hpress
    · cases hpress
    · next hup =>
      rw [if_neg hup]
      exact ⟨⟨rfl, hrate, Nat.le_refl _⟩, rfl⟩
  · rw [hcase] at hpress
    cases hpress

/-- The repeats that follow a press depend on the total time alone. -/
def RepeatsByTime (h : InputHandler) (action : GameAction) (u : InputHandler)
    (events : List InputEvent) : Prop :=
  (isMove action = true → Along InputEvent.apply KeepsSide u events → moves u events =
    if elapsedTotal events < h.dasDelay.toNat then 0
    else (elapsedTotal events - h.dasDelay.toNat) / h.arrRate.toNat) ∧
  (action = .SoftDrop → Along InputEvent.apply KeepsDown u events →
    softDrops u events = elapsedTotal events / softDropArrMs.toNat)

theorem repeats_by_time {h : InputHandler} {now : Instant} {code : KeyCode} {action : GameAction}
    (hpress : (h.handleKeyPress now code).2 = some action) (events : List InputEvent) :
    RepeatsByTime h action (h.handleKeyPress now code).1 events := by
  refine ⟨fun hmove hk => ?_, fun hdrop hk => ?_⟩
  · obtain ⟨direction, hd, hheld, htimer, hacc⟩ := press_heldSide hpress hmove
    rw [moves_heldSide hd hheld htimer hacc hk]
    split
    · next hlt => rw [Nat.sub_eq_zero_of_le (Nat.le_of_lt hlt), Nat.zero_div]
    · rfl
  · subst hdrop
    obtain ⟨hheld, hacc⟩ := press_heldDown hpress
    exact softDrops_heldDown hheld hacc hk

def atMillis (n : Fin 1000) : Instant := ⟨n * 1000000, by unfold nanosLimit; omega⟩

/-- A delay of 100 ms and an interval of 25 ms. -/
def settled : InputHandler := withConfig .zero 100 25

/-- Up to the delay, onto it, and two intervals in one call. -/
def frames : List InputEvent :=
  [.update (atMillis 99) 99, .update (atMillis 100) 1, .keyRepeat (atMillis 120) .Left,
    .update (atMillis 150) 50]

theorem repeats_by_time_frames :
    RepeatsByTime settled .MoveLeft (settled.handleKeyPress .zero .Left).1 frames ∧
      moves (settled.handleKeyPress .zero .Left).1 frames = 2 := by
  have hrepeats : RepeatsByTime settled .MoveLeft (settled.handleKeyPress .zero .Left).1 frames :=
    repeats_by_time rfl frames
  refine ⟨hrepeats, hrepeats.1 rfl ?_⟩
  simp only [frames, Along, KeepsSide, Smooth]
  decide +kernel

end TuiTetris.TermAutoRepeat
