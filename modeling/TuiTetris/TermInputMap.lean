import TuiTetris.TermInputHandler

set_option autoImplicit false

/-!
# Keys and what they ask for

The key map and the input handler read the same movement keys; the map knows the other
keys as well.
-/
namespace TuiTetris.TermInputMap
open CoreTypes TermInputHandler

/-- `Up` is a code that the handler does not tell from the rest. -/
inductive TerminalCode where
  | Up
  | plain (code : KeyCode)
  deriving DecidableEq, Repr

def TerminalCode.handlerCode : TerminalCode → KeyCode
  | .Up => .other
  | .plain code => code

inductive KeyEventKind where
  | Press | Repeat | Release
  deriving DecidableEq, Repr

structure KeyEvent where
  code : TerminalCode
  control : Bool
  kind : KeyEventKind
  deriving DecidableEq, Repr

inductive TermEvent where
  | Resize
  | Key (key : KeyEvent)
  | other

inductive InputCommand where
  | Action (action : GameAction)
  | Quit
  deriving DecidableEq

def handleKeyEvent (key : KeyEvent) : Option GameAction :=
  match key.code with
  | .plain .Left | .plain (.Char 'h') | .plain (.Char 'H') | .plain (.Char 'a') | .plain (.Char 'A') =>
    some .MoveLeft
  | .plain .Right | .plain (.Char 'l') | .plain (.Char 'L') | .plain (.Char 'd') | .plain (.Char 'D') =>
    some .MoveRight
  | .plain .Down | .plain (.Char 'j') | .plain (.Char 'J') | .plain (.Char 's') | .plain (.Char 'S') =>
    some .SoftDrop
  | .Up | .plain (.Char 'k') | .plain (.Char 'K') | .plain (.Char 'w') | .plain (.Char 'W') =>
    some .RotateCw
  | .plain (.Char 'z') | .plain (.Char 'Z') | .plain (.Char 'y') | .plain (.Char 'Y') => some .RotateCcw
  | .plain (.Char ' ') => some .HardDrop
  | .plain (.Char 'c') | .plain (.Char 'C') => some .Hold
  | .plain (.Char 'p') | .plain (.Char 'P') => some .Pause
  | .plain (.Char 'r') | .plain (.Char 'R') => some .Restart
  | _ => none

def shouldQuit (key : KeyEvent) : Bool :=
  key.code = .plain (.Char 'q') || key.code = .plain (.Char 'Q') ||
    (key.code = .plain (.Char 'c') && key.control)

def mapInputCommand (key : KeyEvent) : Option InputCommand :=
  if shouldQuit key then some .Quit else (handleKeyEvent key).map .Action

def isMovement : GameAction → Bool
  | .MoveLeft | .MoveRight | .SoftDrop => true
  | _ => false

end TuiTetris.TermInputMap
