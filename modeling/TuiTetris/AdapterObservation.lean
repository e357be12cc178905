import TuiTetris.AdapterProtocol
import TuiTetris.SessionReplay

set_option autoImplicit false

/-!
# Observations and their cadence
-/
namespace TuiTetris.AdapterObservation
open CoreTypes CoreGameState CoreSnapshot LibArrayVec SessionReplay AdapterProtocol

/-- State identity leaves the logical step out and keeps the events. -/
def buildObservation (seq logicalStep : UInt64) (snap : GameSnapshot)
    (events : ArrayVec TransitionEvent 4) : ObservationMessage :=
  let coreEvents := events.toList.map TransitionEvent.toCore
  let nextQueue := snap.nextQueue.map PieceKindLower.ofKind
  { seq, logicalStep, playable := snap.playable, paused := snap.paused, gameOver := snap.gameOver,
    episodeId := snap.episodeId, seed := snap.seed, pieceId := snap.pieceId,
    stepInPiece := snap.stepInPiece, board := ⟨10, 20, snap.board⟩, boardId := snap.boardId,
    active := snap.active.map ActivePieceSnapshot.ofActive, ghostY := snap.ghostY,
    next := nextQueue.get ⟨0, CoreRng.preview_pos⟩, nextQueue, hold := snap.hold.map PieceKindLower.ofKind,
    canHold := snap.canHold, events, stateHash := ⟨transitionHash snap 0 coreEvents []⟩,
    score := snap.score, level := snap.level, lines := snap.lines, timers := snap.timers }

structure ObservationSchedule where
  frequencyHz : UInt32
  accumulatedFrequencyUnits : UInt32
  seq : UInt64
  lastEpisodeId : UInt32
  lastPieceId : UInt32
  lastActiveId : UInt32
  lastPaused : Bool
  lastGameOver : Bool
  pendingEvents : ArrayVec TransitionEvent 4
  deriving DecidableEq

def updateChanged {α : Type} [DecidableEq α] (previous current : α) : α × Bool :=
  if previous = current then (previous, false) else (current, true)

namespace ObservationSchedule

def new (game : GameState) (frequencyHz : UInt32) : ObservationSchedule :=
  { frequencyHz := max 1 (min frequencyHz 60), accumulatedFrequencyUnits := 0, seq := 0,
    lastEpisodeId := game.episodeId, lastPieceId := game.pieceId, lastActiveId := game.activeId,
    lastPaused := game.paused, lastGameOver := game.gameOver, pendingEvents := .empty }

def captureEvent (o : ObservationSchedule) (event : CoreLastEvent) : ObservationSchedule :=
  let pending := if o.pendingEvents.isFull then o.pendingEvents.dropFirst else o.pendingEvents
  { o with pendingEvents := pending.push (.ofCore event) }

/-- A numbered observation carries the pending events and empties the buffer. -/
def immediate (o : ObservationSchedule) :
    ObservationSchedule × UInt64 × ArrayVec TransitionEvent 4 :=
  ({ o with seq := o.seq + 1, pendingEvents := .empty }, o.seq + 1, o.pendingEvents)

def afterTick (o : ObservationSchedule) (game : GameState) :
    ObservationSchedule × Option (UInt64 × ArrayVec TransitionEvent 4) :=
  let piece := updateChanged o.lastPieceId game.pieceId
  let active := updateChanged o.lastActiveId game.activeId
  let episode := updateChanged o.lastEpisodeId game.episodeId
  let paused := updateChanged o.lastPaused game.paused
  let gameOver := updateChanged o.lastGameOver game.gameOver
  let critical := piece.2 || active.2 || episode.2 || paused.2 || gameOver.2 ||
    !o.pendingEvents.toList.isEmpty
  let units := satAdd o.accumulatedFrequencyUnits (satMul tickMs o.frequencyHz)
  let o := { o with
    lastPieceId := piece.1, lastActiveId := active.1, lastEpisodeId := episode.1,
    lastPaused := paused.1, lastGameOver := gameOver.1, accumulatedFrequencyUnits := units }
  if !critical && units < 1000 then (o, none)
  else
    let o := { o with accumulatedFrequencyUnits := if critical then 0 else units - 1000 }
    let numbered := o.immediate
    (numbered.1, some numbered.2)

/-- Either no observation is due and nothing is pending, or the next number goes out with what
was pending. -/
theorem afterTick_cases (o : ObservationSchedule) (game : GameState) :
    (o.pendingEvents = .empty ∧ (o.afterTick game).2 = none ∧
        (o.afterTick game).1.seq = o.seq ∧ (o.afterTick game).1.pendingEvents = .empty) ∨
      ((o.afterTick game).2 = some (o.seq + 1, o.pendingEvents) ∧
        (o.afterTick game).1.seq = o.seq + 1 ∧ (o.afterTick game).1.pendingEvents = .empty) := by
  simp only [afterTick]
  split
  · next h =>
    simp only [Bool.and_eq_true, Bool.not_eq_true', Bool.or_eq_false_iff, Bool.not_eq_false',
      List.isEmpty_iff] at h
    have hp : o.pendingEvents = .empty := ArrayVec.ext_toList h.1.2
    exact .inl ⟨hp, rfl, rfl, hp⟩
  · exact .inr ⟨rfl, rfl, rfl⟩

end ObservationSchedule

end TuiTetris.AdapterObservation
