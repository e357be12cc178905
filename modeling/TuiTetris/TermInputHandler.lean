import TuiTetris.CoreTypes
import TuiTetris.LibArrayVec
import TuiTetris.LibDuration

set_option autoImplicit false

/-!
# Delayed auto-shift and auto-repeat

The handler turns held keys into repeated actions. Many terminals report no key
releases, so a key without any sign of life counts as released after a while. Where
the source reads the time, the instant is an argument; instants are durations since
a common start.
-/
namespace TuiTetris.TermInputHandler
open CoreTypes LibArrayVec LibDuration

/-- The codes that the handler tells apart; `other` stands for the rest. -/
inductive KeyCode where
  | Left | Right | Down
  | Char (c : Char)
  | other
  deriving DecidableEq, Repr

inductive HorizontalDirection where
  | Left | Right | None
  deriving DecidableEq, Repr

abbrev Instant := Duration

abbrev Actions := ArrayVec GameAction 32

def defaultDasMs : UInt32 := 150
def defaultArrMs : UInt32 := 50
def softDropArrMs : UInt32 := 50
def defaultKeyReleaseTimeoutMs : UInt32 := 150
def minRepeatDrivenReleaseTimeoutMs : UInt32 := 80
def maxRepeatDrivenReleaseTimeoutMs : UInt32 := 300

/-- `now.saturating_duration_since(earlier).as_millis() as u32`. -/
def millisSince (now earlier : Instant) : UInt32 := UInt32.ofNat (now.saturatingSub earlier).asMillis

def clamp (value low high : UInt32) : UInt32 :=
  if value < low then low else if value > high then high else value

structure InputHandler where
  horizontal : HorizontalDirection
  downHeld : Bool
  lastKeyTime : Instant
  horizontalDasTimer : UInt32
  downDasTimer : UInt32
  horizontalArrAccumulator : UInt32
  downArrAccumulator : UInt32
  dasDelay : UInt32
  arrRate : UInt32
  keyReleaseTimeoutMs : UInt32
  sawRepeatEvent : Bool
  lastRepeatTime : Option Instant
  repeatReleaseTimeoutMs : UInt32
  repeatReleaseTimeoutMinMs : UInt32
  repeatReleaseTimeoutMaxMs : UInt32
  arrRate_pos : 0 < arrRate.toNat
  timeouts_le : repeatReleaseTimeoutMinMs ≤ repeatReleaseTimeoutMaxMs

namespace InputHandler

theorem max_one_pos (n : UInt32) : 0 < (max n 1).toNat := by
  rw [UInt32.toNat_max]
  exact Nat.lt_of_lt_of_le Nat.one_pos (Nat.le_max_right _ _)

def withConfig (now : Instant) (dasDelay arrRate : UInt32) : InputHandler :=
  { horizontal := .None, downHeld := false, lastKeyTime := now, horizontalDasTimer := 0,
    downDasTimer := 0, horizontalArrAccumulator := 0, downArrAccumulator := 0, dasDelay,
    arrRate := max arrRate 1, keyReleaseTimeoutMs := defaultKeyReleaseTimeoutMs,
    sawRepeatEvent := false, lastRepeatTime := none,
    repeatReleaseTimeoutMs := minRepeatDrivenReleaseTimeoutMs,
    repeatReleaseTimeoutMinMs := minRepeatDrivenReleaseTimeoutMs,
    repeatReleaseTimeoutMaxMs := maxRepeatDrivenReleaseTimeoutMs,
    arrRate_pos := max_one_pos arrRate, timeouts_le := by decide }

def new (now : Instant) : InputHandler := withConfig now defaultDasMs defaultArrMs

def withKeyReleaseTimeoutMs (h : InputHandler) (timeoutMs : UInt32) : InputHandler :=
  { h with keyReleaseTimeoutMs := timeoutMs }

def ordered (a b : UInt32) : UInt32 × UInt32 := if a ≤ b then (a, b) else (b, a)

theorem ordered_le (a b : UInt32) : (ordered a b).1 ≤ (ordered a b).2 := by
  unfold ordered
  split
  · next h => exact h
  · next h => exact UInt32.le_of_lt (UInt32.not_le.mp h)

/-- The bounds may come in either order. -/
def withRepeatReleaseTimeoutBoundsMs (h : InputHandler) (minMs maxMs : UInt32) : InputHandler :=
  let bounds := ordered (max minMs 1) (max maxMs 1)
  { h with
    repeatReleaseTimeoutMinMs := bounds.1, repeatReleaseTimeoutMaxMs := bounds.2,
    repeatReleaseTimeoutMs := clamp h.repeatReleaseTimeoutMs bounds.1 bounds.2,
    timeouts_le := ordered_le _ _ }

/-- Movement keys of `handle_key_repeat`. -/
def isMovementKey : KeyCode → Bool
  | .Left | .Right | .Down => true
  | .Char c => c ∈ ['a', 'A', 'd', 'D', 's', 'S', 'h', 'H', 'l', 'L', 'j', 'J']
  | .other => false

/-- The second part runs for every code once a repeat has been seen. -/
def handleKeyRepeat (h : InputHandler) (now : Instant) (code : KeyCode) : InputHandler :=
  let h := if isMovementKey code then { h with lastKeyTime := now, sawRepeatEvent := true } else h
  if h.sawRepeatEvent then
    match h.lastRepeatTime with
    | some prev =>
      let target := satMul (millisSince now prev) 2
      { h with
        repeatReleaseTimeoutMs :=
          clamp target h.repeatReleaseTimeoutMinMs h.repeatReleaseTimeoutMaxMs
        lastRepeatTime := some now }
    | none => { h with lastRepeatTime := some now }
  else h

/-- A press of the key of one side; of a key already held it is a repeat. -/
def pressHorizontal (h : InputHandler) (now : Instant) (code : KeyCode)
    (direction : HorizontalDirection) (action : GameAction) : InputHandler × Option GameAction :=
  let h := { h with lastKeyTime := now }
  if h.horizontal = direction then (h.handleKeyRepeat now code, none)
  else
    ({ h with horizontal := direction, horizontalDasTimer := 0, horizontalArrAccumulator := 0 },
      some action)

def pressDown (h : InputHandler) (now : Instant) (code : KeyCode) :
    InputHandler × Option GameAction :=
  let h := { h with lastKeyTime := now }
  if h.downHeld then (h.handleKeyRepeat now code, none)
  else ({ h with downHeld := true, downDasTimer := 0, downArrAccumulator := 0 }, some .SoftDrop)

def handleKeyPress (h : InputHandler) (now : Instant) (code : KeyCode) :
    InputHandler × Option GameAction :=
  match code with
  | .Left | .Char 'a' | .Char 'A' | .Char 'h' | .Char 'H' =>
    h.pressHorizontal now code .Left .MoveLeft
  | .Right | .Char 'd' | .Char 'D' | .Char 'l' | .Char 'L' =>
    h.pressHorizontal now code .Right .MoveRight
  | .Down | .Char 's' | .Char 'S' | .Char 'j' | .Char 'J' => h.pressDown now code
  | _ => (h, none)

def dropHorizontal (h : InputHandler) : InputHandler :=
  { h with horizontal := .None, horizontalDasTimer := 0, horizontalArrAccumulator := 0 }

def dropDown (h : InputHandler) : InputHandler :=
  { h with downHeld := false, downDasTimer := 0, downArrAccumulator := 0 }

def handleKeyRelease (h : InputHandler) (code : KeyCode) : InputHandler :=
  match code with
  | .Left | .Char 'a' | .Char 'A' | .Char 'h' | .Char 'H' =>
    if h.horizontal = .Left then h.dropHorizontal else h
  | .Right | .Char 'd' | .Char 'D' | .Char 'l' | .Char 'L' =>
    if h.horizontal = .Right then h.dropHorizontal else h
  | .Down | .Char 's' | .Char 'S' | .Char 'j' | .Char 'J' => h.dropDown
  | _ => h

/-- The keys have shown no sign of life for longer than the timeout. -/
def timedOut (h : InputHandler) (now : Instant) : Bool :=
  let timeoutMs :=
    if h.sawRepeatEvent then min h.keyReleaseTimeoutMs h.repeatReleaseTimeoutMs
    else h.keyReleaseTimeoutMs
  millisSince now h.lastKeyTime > timeoutMs

def autoRelease (h : InputHandler) (now : Instant) : InputHandler :=
  if h.timedOut now then
    let h := if h.horizontal ≠ .None then h.dropHorizontal else h
    if h.downHeld then h.dropDown else h
  else h

/-- The `while` loops of `update`: a full vector refuses the action, and the time is used up all
the same. Each turn takes at least a millisecond from the accumulator. -/
def repeatLoop (rate : UInt32) (action : GameAction) : ℕ → UInt32 → Actions → UInt32 × Actions
  | 0, accumulator, actions => (accumulator, actions)
  | fuel + 1, accumulator, actions =>
    if accumulator ≥ rate then
      repeatLoop rate action fuel (accumulator - rate) (actions.push action)
    else (accumulator, actions)

/-- What the accumulator holds before the loop: only the time after the delay counts. -/
def horizontalDue (h : InputHandler) (elapsedMs : UInt32) : UInt32 :=
  let timer := h.horizontalDasTimer + elapsedMs
  let excess := if h.horizontalDasTimer < h.dasDelay then timer - h.dasDelay else elapsedMs
  h.horizontalArrAccumulator + excess

def repeatHorizontal (h : InputHandler) (action : GameAction) (elapsedMs : UInt32)
    (actions : Actions) : InputHandler × Actions :=
  let timer := h.horizontalDasTimer + elapsedMs
  if timer ≥ h.dasDelay then
    let due := h.horizontalDue elapsedMs
    let looped := repeatLoop h.arrRate action due.toNat due actions
    ({ h with horizontalDasTimer := timer, horizontalArrAccumulator := looped.1 }, looped.2)
  else ({ h with horizontalDasTimer := timer }, actions)

def updateHorizontal (h : InputHandler) (elapsedMs : UInt32) (actions : Actions) :
    InputHandler × Actions :=
  match h.horizontal with
  | .Left => h.repeatHorizontal .MoveLeft elapsedMs actions
  | .Right => h.repeatHorizontal .MoveRight elapsedMs actions
  | .None => ({ h with horizontalDasTimer := 0, horizontalArrAccumulator := 0 }, actions)

def downDue (h : InputHandler) (elapsedMs : UInt32) : UInt32 := h.downArrAccumulator + elapsedMs

def updateDown (h : InputHandler) (elapsedMs : UInt32) (actions : Actions) :
    InputHandler × Actions :=
  if h.downHeld then
    let due := h.downDue elapsedMs
    let looped := repeatLoop softDropArrMs .SoftDrop due.toNat due actions
    ({ h with downDasTimer := h.downDasTimer + elapsedMs, downArrAccumulator := looped.1 },
      looped.2)
  else ({ h with downDasTimer := 0, downArrAccumulator := 0 }, actions)

def update (h : InputHandler) (now : Instant) (elapsedMs : UInt32) : InputHandler × Actions :=
  let moved := (h.autoRelease now).updateHorizontal elapsedMs .empty
  moved.1.updateDown elapsedMs moved.2

def reset (h : InputHandler) (now : Instant) : InputHandler :=
  { h with
    horizontal := .None, downHeld := false, lastKeyTime := now, horizontalDasTimer := 0,
    downDasTimer := 0, horizontalArrAccumulator := 0, downArrAccumulator := 0,
    sawRepeatEvent := false, lastRepeatTime := none,
    repeatReleaseTimeoutMs := h.repeatReleaseTimeoutMinMs }

end InputHandler

end TuiTetris.TermInputHandler
