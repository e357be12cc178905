import TuiTetris.CoreSnapshot
import TuiTetris.TermFrameBuffer

set_option autoImplicit false

/-!
# The view of a game

A snapshot is painted into a framebuffer, one thing after the other: the play area
and its border, the locked cells, the ghost, the active piece, the side panel and
the overlays. Positions are `u16` in the source; they stay in range for the view the
program uses.
-/
namespace TuiTetris.TermGameView
open CoreTypes CorePieces CoreSnapshot TermFrameBuffer
open FrameBuffer (satAdd16)

structure Viewport where
  width : ℕ
  height : ℕ
  deriving DecidableEq, Repr

/-- Of the listen address only the port is shown. -/
structure AdapterStatusView where
  enabled : Bool
  clientCount : ℕ
  controllerId : Option ℕ
  streamingCount : ℕ
  pid : UInt32
  listenPort : Option ℕ
  deriving DecidableEq, Repr

def AdapterStatusView.statusCode (st : AdapterStatusView) : UInt32 :=
  if !st.enabled then 0
  else if st.clientCount = 0 then 1
  else if st.controllerId.isNone then 2
  else if st.streamingCount = 0 then 3
  else 4

structure GameViewModel where
  snapshot : GameSnapshot
  adapter : Option AdapterStatusView

inductive AnchorY where
  | Center | Top
  deriving DecidableEq, Repr

structure GameView where
  cellW : ℕ
  cellH : ℕ
  anchorY : AnchorY
  deriving DecidableEq, Repr

def pieceFromCell : UInt8 → Option PieceKind
  | 1 => some .I
  | 2 => some .O
  | 3 => some .T
  | 4 => some .S
  | 5 => some .Z
  | 6 => some .J
  | 7 => some .L
  | _ => none

def pieceLetter : PieceKind → List Char
  | .I => ['I']
  | .O => ['O']
  | .T => ['T']
  | .S => ['S']
  | .Z => ['Z']
  | .J => ['J']
  | .L => ['L']

/-! ## Styles -/

def backgroundStyle : CellStyle := ⟨⟨80, 80, 90⟩, ⟨30, 30, 40⟩, false, false⟩
def borderStyle : CellStyle := ⟨⟨200, 200, 200⟩, ⟨0, 0, 0⟩, false, false⟩
def ghostStyle : CellStyle := ⟨⟨140, 140, 140⟩, ⟨30, 30, 40⟩, false, true⟩
def emptyStyle : CellStyle := ⟨⟨90, 90, 100⟩, ⟨30, 30, 40⟩, false, true⟩
def labelStyle : CellStyle := ⟨⟨220, 220, 220⟩, ⟨0, 0, 0⟩, true, false⟩
def valueStyle : CellStyle := ⟨⟨200, 200, 200⟩, ⟨0, 0, 0⟩, false, false⟩
def overlayStyle : CellStyle := ⟨⟨255, 255, 255⟩, ⟨0, 0, 0⟩, true, false⟩

def pieceColor : PieceKind → Rgb
  | .I => ⟨80, 220, 220⟩
  | .O => ⟨240, 220, 80⟩
  | .T => ⟨200, 120, 220⟩
  | .S => ⟨100, 220, 120⟩
  | .Z => ⟨220, 80, 80⟩
  | .J => ⟨80, 120, 220⟩
  | .L => ⟨255, 165, 0⟩

def pieceStyle (kind : PieceKind) (bold : Bool) : CellStyle :=
  ⟨pieceColor kind, ⟨30, 30, 40⟩, bold, false⟩

/-! ## Parts of the picture -/

def drawBorder (fb : FrameBuffer) (x y w h : ℕ) (style : CellStyle) : FrameBuffer :=
  if w < 2 ∨ h < 2 then fb
  else
    let fb := fb.putChar x y '┌' style
    let fb := fb.putChar (x + w - 1) y '┐' style
    let fb := fb.putChar x (y + h - 1) '└' style
    let fb := fb.putChar (x + w - 1) (y + h - 1) '┘' style
    let fb := (List.range' 1 (w - 2)).foldl (fun fb dx =>
      (fb.putChar (x + dx) y '─' style).putChar (x + dx) (y + h - 1) '─' style) fb
    (List.range' 1 (h - 2)).foldl (fun fb dy =>
      (fb.putChar x (y + dy) '│' style).putChar (x + w - 1) (y + dy) '│' style) fb

def drawOverlayText (fb : FrameBuffer) (startX startY frameW frameH : ℕ) (text : List Char) :
    FrameBuffer :=
  fb.putStr (satAdd16 startX ((frameW - text.length) / 2)) (satAdd16 startY (frameH / 2)) text
    overlayStyle

namespace GameView

/-- The view of the program: cells of two columns by one row. -/
def default : GameView := ⟨2, 1, .Center⟩

def withAnchorY (view : GameView) (anchorY : AnchorY) : GameView := { view with anchorY }

def fillCellRect (view : GameView) (startX startY : ℕ) (fb : FrameBuffer) (cellX cellY : ℕ)
    (ch : Char) (style : CellStyle) : FrameBuffer :=
  fb.fillRect (startX + 1 + cellX * view.cellW) (startY + 1 + cellY * view.cellH) view.cellW
    view.cellH ch style

def drawEmptyCell (view : GameView) (startX startY : ℕ) (fb : FrameBuffer) (x y : ℕ) : FrameBuffer :=
  view.fillCellRect startX startY fb x y '·' emptyStyle

def drawBoardCell (view : GameView) (startX startY : ℕ) (fb : FrameBuffer) (x y : ℕ)
    (kind : PieceKind) (bold : Bool) : FrameBuffer :=
  view.fillCellRect startX startY fb x y '█' (pieceStyle kind bold)

/-- The locked cells and the dots between them. -/
def drawLocked (view : GameView) (startX startY : ℕ) (board : Vector (Vector UInt8 10) 20)
    (fb : FrameBuffer) : FrameBuffer :=
  (List.finRange 20).foldl (fun fb y => (List.finRange 10).foldl (fun fb x =>
    match pieceFromCell ((board.get y).get x) with
    | some kind => view.drawBoardCell startX startY fb x y kind true
    | none => view.drawEmptyCell startX startY fb x y) fb) fb

def onBoard (x y : Int8) : Bool := 0 ≤ x && x < 10 && 0 ≤ y && y < 20

def drawGhost (view : GameView) (startX startY : ℕ) (snap : GameSnapshot) (fb : FrameBuffer) :
    FrameBuffer :=
  match snap.active, snap.ghostY with
  | some active, some ghostY =>
    (getShape active.kind active.rotation).foldl (fun fb m =>
      if onBoard (active.x + m.1) (ghostY + m.2) then
        view.fillCellRect startX startY fb (active.x + m.1).toInt.toNat (ghostY + m.2).toInt.toNat '░'
          ghostStyle
      else fb) fb
  | _, _ => fb

def drawActive (view : GameView) (startX startY : ℕ) (snap : GameSnapshot) (fb : FrameBuffer) :
    FrameBuffer :=
  match snap.active with
  | some active =>
    (getShape active.kind active.rotation).foldl (fun fb m =>
      if onBoard (active.x + m.1) (active.y + m.2) then
        view.drawBoardCell startX startY fb (active.x + m.1).toInt.toNat
          (active.y + m.2).toInt.toNat active.kind true
      else fb) fb
  | none => fb

end GameView

/-- One entry of the next queue for each row that is left, as long as the rows below are not
reserved; the next row is returned with the picture. -/
def drawNext (panelX panelW height reserved : ℕ) : List (ℕ × PieceKind) → FrameBuffer × ℕ →
    FrameBuffer × ℕ
  | [], r => r
  | (i, kind) :: rest, (fb, y) =>
    if satAdd16 y reserved ≥ height then (fb, y)
    else if y ≥ height then (fb, y)
    else
      let fb := fb.putStr panelX y (pieceLetter kind) valueStyle
      let fb :=
        if panelW ≥ 16 then
          (fb.putChar (panelX + 2) y '#' { valueStyle with dim := true }).putU32 (panelX + 3) y
            (UInt32.ofNat i + 1) { valueStyle with dim := true }
        else fb
      drawNext panelX panelW height reserved rest (fb, satAdd16 y 1)

/-- A number that may be missing. -/
def putKnown (fb : FrameBuffer) (x y : ℕ) : Option ℕ → FrameBuffer
  | some number => fb.putU32 x y (UInt32.ofNat number) valueStyle
  | none => fb.putStr x y ['-'] valueStyle

def drawAdapter (panelX : ℕ) (st : AdapterStatusView) (fb : FrameBuffer) (y : ℕ) : FrameBuffer :=
  let y := satAdd16 y 1
  let fb := fb.putStr panelX y "AI".toList labelStyle
  let y := satAdd16 y 1
  let valueX := panelX + 5
  let fb := fb.putStr panelX y "CONN".toList valueStyle
  let fb := fb.putU32 valueX y (UInt32.ofNat st.clientCount) valueStyle
  let y := satAdd16 y 1
  let fb := fb.putStr panelX y "ST".toList valueStyle
  let fb := fb.putU32 valueX y st.statusCode valueStyle
  let y := satAdd16 y 1
  let fb := fb.putStr panelX y "CTRL".toList valueStyle
  let fb := putKnown fb valueX y st.controllerId
  let y := satAdd16 y 1
  let fb := fb.putStr panelX y "PORT".toList valueStyle
  let fb := putKnown fb valueX y st.listenPort
  let y := satAdd16 y 1
  let fb := fb.putStr panelX y "PID".toList valueStyle
  fb.putU32 valueX y st.pid valueStyle

def drawSidePanel (fb : FrameBuffer) (snap : GameSnapshot) (adapter : Option AdapterStatusView)
    (viewport : Viewport) (startX startY frameW : ℕ) : FrameBuffer :=
  let panelX := satAdd16 (satAdd16 startX frameW) 2
  if panelX ≥ viewport.width then fb
  else
    let panelW := viewport.width - panelX
    if panelW < 12 then fb
    else
      let y := startY
      let fb := fb.putStr panelX y "SCORE".toList labelStyle
      let y := satAdd16 y 1
      let fb := fb.putU32 panelX y snap.score valueStyle
      let y := satAdd16 y 2
      let fb := fb.putStr panelX y "LEVEL".toList labelStyle
      let y := satAdd16 y 1
      let fb := fb.putU32 panelX y snap.level valueStyle
      let y := satAdd16 y 2
      let fb := fb.putStr panelX y "LINES".toList labelStyle
      let y := satAdd16 y 1
      let fb := fb.putU32 panelX y snap.lines valueStyle
      let y := satAdd16 y 2
      let fb := fb.putStr panelX y "HOLD".toList labelStyle
      let y := satAdd16 y 1
      let fb := fb.putStr panelX y ((snap.hold.map pieceLetter).getD ['-']) valueStyle
      let y := satAdd16 y 2
      let reserved := if adapter.isSome then 7 else 0
      let fb := fb.putStr panelX y "NEXT".toList labelStyle
      let y := satAdd16 y 1
      let r := drawNext panelX panelW viewport.height reserved
        ((List.range 5).zip snap.nextQueue.toList) (fb, y)
      match adapter with
      | some st => drawAdapter panelX st r.1 r.2
      | none => r.1

namespace GameView

def renderIntoWithAdapter (view : GameView) (snap : GameSnapshot)
    (adapter : Option AdapterStatusView) (viewport : Viewport) (fb : FrameBuffer) : FrameBuffer :=
  let fb := (fb.resize viewport.width viewport.height).clear ⟨' ', .default⟩
  let boardPxW := boardWidth * view.cellW
  let boardPxH := boardHeight * view.cellH
  let frameW := boardPxW + 2
  let frameH := boardPxH + 2
  let startX := (viewport.width - frameW) / 2
  let startY :=
    match view.anchorY with
    | .Center => (viewport.height - frameH) / 2
    | .Top => 0
  let fb := fb.fillRect (startX + 1) (startY + 1) boardPxW boardPxH ' ' backgroundStyle
  let fb := drawBorder fb startX startY frameW frameH borderStyle
  let fb := view.drawLocked startX startY snap.board fb
  let fb := view.drawGhost startX startY snap fb
  let fb := view.drawActive startX startY snap fb
  let fb := drawSidePanel fb snap adapter viewport startX startY frameW
  if snap.paused then drawOverlayText fb startX startY frameW frameH "PAUSED".toList
  else if snap.gameOver then drawOverlayText fb startX startY frameW frameH "GAME OVER".toList
  else fb

def renderInto (view : GameView) (snap : GameSnapshot) (viewport : Viewport) (fb : FrameBuffer) :
    FrameBuffer :=
  view.renderIntoWithAdapter snap none viewport fb

def render (view : GameView) (snap : GameSnapshot) (viewport : Viewport) : FrameBuffer :=
  view.renderInto snap viewport (.new viewport.width viewport.height)

end GameView

end TuiTetris.TermGameView
