import TuiTetris.LibDecimal
import TuiTetris.LibText
import TuiTetris.SessionEngine

set_option autoImplicit false

/-!
# Replay tapes and their text format

Texts are lists of characters; `encode` and `decode` go through UTF-8 bytes. A
line of the format is the list of its tab-separated fields.
-/
namespace TuiTetris.SessionReplay
open CoreTypes CoreSnapshot CoreStateHash LibArrayVec LibDecimal LibText SessionPlace SessionEngine

def replayFormatVersion : UInt16 := 2
def rulesetVersion : Text := "tui-guideline-2026.1".toList

def outcomeCode : CommandOutcome → UInt8
  | .ok () => 0
  | .error .HoldUnavailable => 1
  | .error .RotationBlocked => 2
  | .error .XOutOfBounds => 3
  | .error .XBlocked => 4
  | .error .NotPlayable => 5
  | .error .NoActive => 6

def transitionHash (snapshot : GameSnapshot) (logicalStep : UInt64) (events : List CoreLastEvent)
    (outcomes : List CommandOutcome) : UInt64 :=
  hashBytes (stableStateHash snapshot none)
    (leBytes64 logicalStep ++ leBytes64 (UInt64.ofNat events.length) ++
      events.flatMap (fun event => leBytes64 (stableStateHash snapshot (some event))) ++
      leBytes64 (UInt64.ofNat outcomes.length) ++ outcomes.map outcomeCode)

structure StepRecord where
  step : UInt64
  input : StepInput
  stateHash : UInt64
  deriving DecidableEq

structure ReplayTape where
  seed : UInt32
  records : List StepRecord
  finalSnapshot : GameSnapshot
  deriving DecidableEq

structure ReplayMismatch where
  step : ℕ
  expected : UInt64
  actual : UInt64
  deriving DecidableEq, Repr

def resultHash (result : SessionRuntime × Transition) : UInt64 :=
  transitionHash result.1.snapshot result.1.logicalStep result.2.events result.2.commandOutcomes

/-- The recording loop from the given session and step number. -/
def recordFrom (session : SessionRuntime) (step : ℕ) : List StepInput → List StepRecord × SessionRuntime
  | [] => ([], session)
  | input :: inputs =>
    let result := session.transition input
    let rest := recordFrom result.1 (step + 1) inputs
    (⟨UInt64.ofNat step, input, resultHash result⟩ :: rest.1, rest.2)

namespace ReplayTape

def record (seed : UInt32) (inputs : List StepInput) : ReplayTape :=
  let recorded := recordFrom (.new seed) 0 inputs
  ⟨seed, recorded.1, recorded.2.snapshot⟩

/-- Record the inputs of `records`, then put `records` in the place of the new ones. -/
def rebuild (seed : UInt32) (records : List StepRecord) : ReplayTape :=
  { record seed (records.map StepRecord.input) with records }

/-- `none` where the slice of the source panics. -/
def minimalFailurePrefix (t : ReplayTape) (mismatch : ReplayMismatch) : Option ReplayTape :=
  if mismatch.step < t.records.length then
    some (rebuild t.seed (t.records.take (mismatch.step + 1)))
  else none

end ReplayTape

def actionText : GameAction → Text
  | .MoveLeft => "moveLeft".toList
  | .MoveRight => "moveRight".toList
  | .SoftDrop => "softDrop".toList
  | .HardDrop => "hardDrop".toList
  | .RotateCw => "rotateCw".toList
  | .RotateCcw => "rotateCcw".toList
  | .Hold => "hold".toList
  | .Pause => "pause".toList
  | .Restart => "restart".toList

def allActions : List GameAction :=
  [.MoveLeft, .MoveRight, .SoftDrop, .HardDrop, .RotateCw, .RotateCcw, .Hold, .Pause, .Restart]

/-- `<GameAction as FromStr>::from_str`. -/
def parseAction (s : Text) : Option GameAction :=
  allActions.find? fun action => eqIgnoreAsciiCase s (actionText action)

def rotationText : Rotation → Text
  | .North => "north".toList
  | .East => "east".toList
  | .South => "south".toList
  | .West => "west".toList

/-- `<Rotation as FromStr>::from_str`. -/
def parseRotation (s : Text) : Option Rotation :=
  if eqIgnoreAsciiCase s "north".toList || eqIgnoreAsciiCase s "n".toList then some .North
  else if eqIgnoreAsciiCase s "east".toList || eqIgnoreAsciiCase s "e".toList then some .East
  else if eqIgnoreAsciiCase s "south".toList || eqIgnoreAsciiCase s "s".toList then some .South
  else if eqIgnoreAsciiCase s "west".toList || eqIgnoreAsciiCase s "w".toList then some .West
  else none

def boolText : Bool → Text
  | true => "true".toList
  | false => "false".toList

def seedText : Option UInt32 → Text
  | none => ['-']
  | some seed => decimal seed.toNat

def commandFields : GameCommand → List Text
  | .Actions actions restartSeed =>
    [['R'], ['A'], seedText restartSeed, joinWith ',' (actions.toList.map actionText)]
  | .Place x rot useHold =>
    [['R'], ['P'], decimalInt x.toInt, rotationText rot, boolText useHold]

def recordFields (r : StepRecord) : List (List Text) :=
  [[['S'], decimal r.step.toNat, decimal r.stateHash.toNat]] ++
    r.input.remote.toList.map commandFields ++
    r.input.locals.toList.map (fun action => [['L'], actionText action]) ++ [[['E']]]

def formatText : Text := "TTR".toList ++ decimal replayFormatVersion.toNat

def tapeFields (t : ReplayTape) : List (List Text) :=
  [formatText, rulesetVersion, decimal t.seed.toNat] :: t.records.flatMap recordFields

def encode (t : ReplayTape) : ByteArray :=
  (String.ofList (unlines ((tapeFields t).map (joinWith '\t')))).toUTF8

/-- `notUtf8` stands for the text of `Utf8Error`. -/
inductive ReplayError where
  | notUtf8
  | message (text : String)
  deriving DecidableEq

def fail {α : Type} (text : String) : Except ReplayError α := .error (.message text)

def orFail {α : Type} (text : String) : Option α → Except ReplayError α
  | some a => .ok a
  | none => fail text

def orIntError {α : Type} : Except IntErrorKind α → Except ReplayError α
  | .ok a => .ok a
  | .error kind => fail kind.message

def parseU32 (s : Text) : Except ReplayError UInt32 :=
  (orIntError (parseUnsigned (2 ^ 32 - 1) s)).map UInt32.ofNat

def parseU64 (s : Text) : Except ReplayError UInt64 :=
  (orIntError (parseUnsigned (2 ^ 64 - 1) s)).map UInt64.ofNat

def parseI8 (s : Text) : Except ReplayError Int8 :=
  (orIntError (parseSigned 127 128 s)).map Int8.ofInt

def parseBool (s : Text) : Except ReplayError Bool :=
  if s = "true".toList then .ok true
  else if s = "false".toList then .ok false
  else fail "provided string was not `true` or `false`"

/-- The loop over the comma-separated actions of a command. -/
def parseActions (parsed : ArrayVec GameAction 32) : List Text → Except ReplayError (ArrayVec GameAction 32)
  | [] => .ok parsed
  | action :: actions => do
    let action ← orFail "invalid remote action" (parseAction action)
    let parsed ← orFail "too many remote actions" (parsed.tryPush action)
    parseActions parsed actions

def parseActionList (actions : Text) : Except ReplayError (ArrayVec GameAction 32) :=
  if actions.isEmpty then .ok .empty else parseActions .empty (actions.splitOn ',')

def parseRestartSeed (seed : Text) : Except ReplayError (Option UInt32) :=
  if seed = ['-'] then .ok none else (parseU32 seed).map some

def pushRemote (input : StepInput) (command : GameCommand) : Except ReplayError StepInput := do
  let remote ← orFail "too many commands" (input.remote.tryPush command)
  return { input with remote }

/-- One line between a step record and its end. -/
def decodeCommand (input : StepInput) : List Text → Except ReplayError StepInput
  | [['L'], action] => do
    let action ← orFail "invalid local action" (parseAction action)
    let locals ← orFail "too many local actions" (input.locals.tryPush action)
    return { input with locals }
  | [['R'], ['A'], seed, actions] => do
    let restartSeed ← parseRestartSeed seed
    let actions ← parseActionList actions
    pushRemote input (.Actions actions restartSeed)
  | [['R'], ['P'], x, rot, useHold] => do
    let x ← parseI8 x
    let rot ← orFail "invalid rotation" (parseRotation rot)
    let useHold ← parseBool useHold
    pushRemote input (.Place x rot useHold)
  | _ => fail "invalid command record"

def decodeStep : List Text → Except ReplayError (UInt64 × UInt64)
  | [['S'], step, stateHash] => do
    let step ← parseU64 step
    let stateHash ← parseU64 stateHash
    return (step, stateHash)
  | _ => fail "invalid step record"

/-- Both loops of the decoder: `opened` is the record whose lines are being read. -/
def decodeLines (opened : Option StepRecord) (records : List StepRecord) :
    List Text → Except ReplayError (List StepRecord)
  | [] =>
    match opened with
    | none => .ok records
    | some _ => fail "unterminated step"
  | line :: lines =>
    match opened with
    | none => do
      let header ← decodeStep (line.splitOn '\t')
      decodeLines (some ⟨header.1, .default, header.2⟩) records lines
    | some r =>
      if line = ['E'] then decodeLines none (records ++ [r]) lines
      else do
        let input ← decodeCommand r.input (line.splitOn '\t')
        decodeLines (some { r with input }) records lines

/-- The seed of the header line; the fields are checked from left to right. -/
def decodeHeader : List Text → Except ReplayError UInt32
  | [] => fail "missing replay format"
  | format :: rest =>
    if format ≠ formatText then fail ("unsupported replay format: " ++ String.ofList format)
    else
      match rest with
      | [] => fail "missing replay ruleset"
      | ruleset :: rest =>
        if ruleset ≠ rulesetVersion then fail ("unsupported ruleset: " ++ String.ofList ruleset)
        else
          match rest with
          | [] => fail "missing replay seed"
          | seed :: rest => do
            let seed ← parseU32 seed
            if rest.isEmpty then .ok seed else fail "invalid replay header"

def decodeText (text : Text) : Except ReplayError ReplayTape :=
  match lines text with
  | [] => fail "missing replay header"
  | header :: rest => do
    let seed ← decodeHeader (header.splitOn '\t')
    let records ← decodeLines none [] rest
    return .rebuild seed records

def decode (bytes : ByteArray) : Except ReplayError ReplayTape :=
  match String.fromUTF8? bytes with
  | none => .error .notUtf8
  | some text => decodeText text.toList

/-- The verification loop from the given session and index. -/
def verifyFrom (session : SessionRuntime) (index : ℕ) :
    List StepRecord → Except ReplayMismatch SessionRuntime
  | [] => .ok session
  | r :: records =>
    let result := session.transition r.input
    if resultHash result ≠ r.stateHash then .error ⟨index, r.stateHash, resultHash result⟩
    else verifyFrom result.1 (index + 1) records

def replayAndVerify (t : ReplayTape) : Except ReplayMismatch SessionRuntime :=
  verifyFrom (.new t.seed) 0 t.records

end TuiTetris.SessionReplay
