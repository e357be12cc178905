import TuiTetris.AdapterBroker
import TuiTetris.AdapterGameLoop
import TuiTetris.LibDecimal
import TuiTetris.LibText

set_option autoImplicit false

/-!
# The messages of a connection

What a client sends, as it is after parsing, and what its handler answers. Time
stamps and the tables of capabilities are left out.
-/
namespace TuiTetris.AdapterMessages
open CoreTypes LibArrayVec LibDecimal LibText SessionEngine AdapterBroker AdapterProtocol

/-! ## Inbound -/

/-- `json` is the field of `formats`. -/
structure HelloMessage where
  seq : UInt64
  protocolVersion : Text
  json : Bool
  requested : Hello
  deriving DecidableEq

inductive ActionName where
  | MoveLeft | MoveRight | SoftDrop | HardDrop | RotateCw | RotateCcw | Hold | Pause | Restart
  deriving DecidableEq, Repr

def ActionName.gameAction : ActionName → GameAction
  | .MoveLeft => .MoveLeft
  | .MoveRight => .MoveRight
  | .SoftDrop => .SoftDrop
  | .HardDrop => .HardDrop
  | .RotateCw => .RotateCw
  | .RotateCcw => .RotateCcw
  | .Hold => .Hold
  | .Pause => .Pause
  | .Restart => .Restart

structure PlaceCommand where
  x : Int8
  rotation : Text
  useHold : Bool
  deriving DecidableEq

structure RestartCommand where
  seed : UInt64
  deriving DecidableEq, Repr

structure CommandMessage where
  seq : UInt64
  mode : CommandMode
  actions : Option (ArrayVec ActionName 32)
  place : Option PlaceCommand
  restart : Option RestartCommand
  deriving DecidableEq

inductive ControlAction where
  | Claim | Release
  deriving DecidableEq, Repr

structure ControlMessage where
  seq : UInt64
  action : ControlAction
  deriving DecidableEq, Repr

inductive ParsedMessage where
  | Hello (hello : HelloMessage)
  | Command (command : CommandMessage)
  | Control (control : ControlMessage)
  | Unknown (seq : UInt64)
  deriving DecidableEq

/-- A line that `parse_message` rejects is kept with the text of the error. -/
inductive Line where
  | parsed (message : ParsedMessage)
  | unparsable (text : Text) (error : String)
  deriving DecidableEq

/-! ## Checks on inbound text -/

/-- `str::split_once`. -/
def splitOnce (sep : Char) (text : Text) : Option (Text × Text) :=
  if sep ∈ text then some (text.takeWhile (· ≠ sep), (text.dropWhile (· ≠ sep)).tail) else none

def validIdentifiers (value : Text) (rejectNumericLeadingZero : Bool) : Bool :=
  !value.isEmpty && (value.splitOn '.').all fun identifier =>
    !identifier.isEmpty && identifier.all (fun c => c.isAlphanum || c = '-') &&
      (!rejectNumericLeadingZero || !identifier.all Char.isDigit || identifier.length = 1 ||
        identifier.head? ≠ some '0')

/-- `parse_numeric` for one component. -/
def parseNumeric (value : Text) : Option ℕ :=
  if value.isEmpty || !value.all Char.isDigit || (value.length > 1 && value.head? = some '0') then none
  else (parseUnsigned (2 ^ 64 - 1) value).toOption

def coreVersion (base : Text) : Option Text :=
  match splitOnce '-' base with
  | some (core, prerelease) => if validIdentifiers prerelease true then some core else none
  | none => some base

def isCompatibleProtocolVersion (version : Text) : Bool :=
  let buildParts := version.splitOn '+'
  let validBuild := match buildParts.tail with
    | [] => true
    | [build] => validIdentifiers build false
    | _ => false
  validBuild && match coreVersion (buildParts.headD []) with
    | none => false
    | some core =>
      match core.splitOn '.' with
      | [major, minor, patch] =>
        parseNumeric major = some 3 && (parseNumeric minor).isSome && (parseNumeric patch).isSome
      | _ => false

/-- What follows the first occurrence of a pattern. -/
def afterFirst (pattern : Text) : Text → Option Text
  | [] => if pattern.isEmpty then some [] else none
  | c :: cs =>
    if pattern.isPrefixOf (c :: cs) then some ((c :: cs).drop pattern.length)
    else afterFirst pattern cs

def extractSeqBestEffort (text : Text) : Option UInt64 := do
  let afterKey ← afterFirst ['"', 's', 'e', 'q', '"'] text
  let rest ← afterFirst [':'] afterKey
  let digits := (rest.dropWhile isWhitespace).takeWhile Char.isDigit
  if digits.isEmpty then none
  else (parseUnsigned (2 ^ 64 - 1) digits).toOption.map UInt64.ofNat

/-! ## Outbound -/

def protocolVersion : String := "3.0.0"

inductive AssignedRole where
  | Controller | Observer
  deriving DecidableEq, Repr

structure WelcomeMessage where
  seq : UInt64
  protocolVersion : String
  clientId : ℕ
  role : AssignedRole
  controllerId : Option ℕ
  gameId : String
  deriving DecidableEq, Repr

def createWelcome (seq : UInt64) (protocolVersion : String) (clientId : ℕ) (role : AssignedRole)
    (controllerId : Option ℕ) : WelcomeMessage :=
  { seq, protocolVersion, clientId, role, controllerId, gameId := "tui-tetris" }

def createAck (seq correlationSeq : UInt64) : AckMessage :=
  { seq, correlationSeq, appliedStep := none, stateHash := none }

def createBackpressureError (seq : UInt64) (message : String) (retryAfterMs : UInt64) : ErrorMessage :=
  { seq, code := .Backpressure, message, retryAfterMs := some (max retryAfterMs 1) }

/-- Observations go another way. -/
inductive ClientOutbound where
  | Ack (message : AckMessage)
  | Error (message : ErrorMessage)
  | Welcome (message : WelcomeMessage)
  deriving DecidableEq

/-! ## Commands -/

abbrev Rejection := ErrorCode × String

def mapActions (list : List ActionName) : Except Rejection (ArrayVec GameAction 32) :=
  list.foldlM (fun actions a =>
    match actions.tryPush a.gameAction with
    | some actions => .ok actions
    | none => .error (.InvalidCommand, "Too many actions")) .empty

def mapRestart (sawRestart : Bool) : Option RestartCommand → Except Rejection (Option UInt32)
  | none => .ok none
  | some r =>
    if !sawRestart then
      .error (.InvalidCommand, "restart field requires actions to include restart")
    else if r.seed > 4294967295 then .error (.InvalidCommand, "restart.seed out of range")
    else .ok (some r.seed.toUInt32)

def mapRotation (rotation : Text) : Except Rejection Rotation :=
  if eqIgnoreAsciiCase rotation ['n', 'o', 'r', 't', 'h'] then .ok .North
  else if eqIgnoreAsciiCase rotation ['e', 'a', 's', 't'] then .ok .East
  else if eqIgnoreAsciiCase rotation ['s', 'o', 'u', 't', 'h'] then .ok .South
  else if eqIgnoreAsciiCase rotation ['w', 'e', 's', 't'] then .ok .West
  else .error (.InvalidPlace, "Invalid rotation: " ++ String.ofList rotation)

def mapCommand (command : CommandMessage) : Except Rejection GameCommand :=
  match command.mode with
  | .Action =>
    match command.actions with
    | none => .error (.InvalidCommand, "Missing actions")
    | some list => do
      let actions ← mapActions list.toList
      let restartSeed ← mapRestart (list.toList.contains .Restart) command.restart
      return .Actions actions restartSeed
  | .Place =>
    if command.restart.isSome then
      .error (.InvalidCommand, "restart is only valid in action mode")
    else
      match command.place with
      | none => .error (.InvalidPlace, "Missing place")
      | some place => do
        let rotation ← mapRotation place.rotation
        return .Place place.x rotation place.useHold

end TuiTetris.AdapterMessages
