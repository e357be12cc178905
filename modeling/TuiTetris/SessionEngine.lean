import TuiTetris.CoreStateHash
import TuiTetris.LibArrayVec
import TuiTetris.SessionPlace

set_option autoImplicit false

/-!
# The session: one transition per logical step
-/
namespace TuiTetris.SessionEngine
open CoreTypes CoreGameState CoreSnapshot LibArrayVec SessionPlace

def maxCommandsPerStep : ℕ := 32
def maxLocalActionsPerStep : ℕ := 64
def maxEventsPerStep : ℕ := 4

inductive GameCommand where
  | Actions (actions : ArrayVec GameAction 32) (restartSeed : Option UInt32)
  | Place (x : Int8) (rotation : Rotation) (useHold : Bool)
  deriving DecidableEq

abbrev CommandOutcome := Except PlaceError Unit

/-- The field `local` of the source is `locals` here. -/
structure StepInput where
  remote : ArrayVec GameCommand maxCommandsPerStep
  locals : ArrayVec GameAction maxLocalActionsPerStep
  deriving DecidableEq

def StepInput.default : StepInput := ⟨.empty, .empty⟩

structure Transition where
  commandOutcomes : List CommandOutcome
  events : List CoreLastEvent
  changed : Bool

structure SnapshotStore where
  snapshot : GameSnapshot
  boardId : Option UInt32
  deriving DecidableEq

namespace SnapshotStore

/-- The board is copied only when its id is not the one seen last. -/
def refresh (store : SnapshotStore) (game : GameState) : SnapshotStore :=
  let store :=
    if store.boardId ≠ some game.boardId then
      { snapshot := snapshotBoardInto game store.snapshot, boardId := some game.boardId }
    else store
  { store with snapshot := snapshotMetaInto game store.snapshot }

def new (game : GameState) : SnapshotStore := refresh ⟨.default, none⟩ game

end SnapshotStore

/-- `action == Restart && let Some(seed) = restart_seed.take()`. -/
def takenSeed (action : GameAction) (restartSeed : Option UInt32) : Option UInt32 :=
  if action = .Restart then restartSeed else none

/-- The loop over the actions of one command; the first restart takes the seed. -/
def applyActions : List GameAction → Option UInt32 → GameState → GameState
  | [], _, game => game
  | action :: actions, restartSeed, game =>
    match takenSeed action restartSeed with
    | some seed => applyActions actions none (game.restartWithSeed seed).1
    | none => applyActions actions restartSeed (game.applyAction action).1

def applyGameCommand (game : GameState) : GameCommand → GameState × CommandOutcome
  | .Actions actions restartSeed => (applyActions actions.toList restartSeed game, .ok ())
  | .Place x rotation useHold => applyPlace game x rotation useHold

def applyRemote : List GameCommand → GameState → GameState × List CommandOutcome
  | [], game => (game, [])
  | command :: commands, game =>
    let r := applyGameCommand game command
    let rest := applyRemote commands r.1
    (rest.1, r.2 :: rest.2)

def applyLocal (actions : List GameAction) (game : GameState) : GameState :=
  actions.foldl (fun game action => (game.applyAction action).1) game

structure SessionRuntime where
  game : GameState
  snapshots : SnapshotStore
  logicalStep : UInt64
  deriving DecidableEq

namespace SessionRuntime

def fromGame (game : GameState) : SessionRuntime := ⟨game, .new game, 0⟩

def new (seed : UInt32) : SessionRuntime := fromGame (GameState.new seed).start

def snapshot (s : SessionRuntime) : GameSnapshot := s.snapshots.snapshot

/-- The game after the commands, the local actions and the tick of one step. -/
def stepGame (s : SessionRuntime) (input : StepInput) : GameState × List CommandOutcome :=
  let remote := applyRemote input.remote.toList s.game
  (((applyLocal input.locals.toList remote.1).tick tickMs false).1, remote.2)

/-- The end of a transition: take the event, count the step, refresh the snapshot. -/
def finishStep (s : SessionRuntime) (game : GameState) : SessionRuntime × List CoreLastEvent :=
  let taken := game.takeLastEvent
  ({ game := taken.1, snapshots := s.snapshots.refresh taken.1, logicalStep := s.logicalStep + 1 },
    taken.2.toList)

def transition (s : SessionRuntime) (input : StepInput) : SessionRuntime × Transition :=
  let stepped := s.stepGame input
  let finished := s.finishStep stepped.1
  (finished.1,
    { commandOutcomes := stepped.2, events := finished.2,
      changed := finished.1.snapshot ≠ s.snapshot || !finished.2.isEmpty })

end SessionRuntime

end TuiTetris.SessionEngine
