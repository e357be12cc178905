import TuiTetris.TermGameView
import TuiTetris.TermPainting

set_option autoImplicit false

/-!
# The picture of a game

Every part of the view paints a layer, so the whole picture is a function of the
snapshot and nothing of the old frame shows through. In the play area the active
piece lies over its ghost and the ghost over the locked cells.
-/
namespace TuiTetris.TermGameViewPicture
open CoreTypes hiding Cell
open CorePieces CoreSnapshot LibLayers TermFrameBuffer TermPainting TermGameView

variable {w h : ℕ}

/-- `f` paints a layer that is clear to the left of a column. -/
def PaintsFrom (w h column : ℕ) (f : FrameBuffer → FrameBuffer) : Prop :=
  ∃ layer, Paints w h f layer ∧ ∀ i < column, ∀ j, layer i j = none

theorem PaintsFrom.comp {column : ℕ} {f g : FrameBuffer → FrameBuffer} (hf : PaintsFrom w h column f)
    (hg : PaintsFrom w h column g) : PaintsFrom w h column (fun fb => g (f fb)) := by
  obtain ⟨l, hl, hleft⟩ := hf
  obtain ⟨m, hm, hleft'⟩ := hg
  refine ⟨m.atop l, hl.comp hm, fun i hi j => ?_⟩
  rw [Layer.atop_none (hleft' i hi j), hleft i hi j]

theorem paintsFrom_id (column : ℕ) : PaintsFrom w h column (fun fb => fb) :=
  ⟨.clear, paints_id, fun _ _ _ => rfl⟩

theorem paintsFrom_putStr {column x : ℕ} (hx : column ≤ x) (y : ℕ) (s : List Char)
    (style : CellStyle) : PaintsFrom w h column (fun fb => fb.putStr x y s style) :=
  ⟨_, paints_putStr x y s style, fun _ hi _ => Layer.text_left (Nat.lt_of_lt_of_le hi hx)⟩

theorem paintsFrom_putU32 {column x : ℕ} (hx : column ≤ x) (y : ℕ) (v : UInt32)
    (style : CellStyle) : PaintsFrom w h column (fun fb => fb.putU32 x y v style) :=
  ⟨_, paints_putU32 x y v style, fun _ hi _ => Layer.text_left (Nat.lt_of_lt_of_le hi hx)⟩

theorem paintsFrom_putChar {column x : ℕ} (hx : column ≤ x) (y : ℕ) (ch : Char)
    (style : CellStyle) : PaintsFrom w h column (fun fb => fb.putChar x y ch style) :=
  ⟨_, paints_putChar x y ch style, fun _ hi _ => Layer.rect_outside fun ho => by omega⟩

/-! ## The side panel -/

theorem paintsFrom_drawNext {column panelX : ℕ} (hx : column ≤ panelX)
    (panelW height reserved : ℕ) (entries : List (ℕ × PieceKind)) (y : ℕ) :
    (∃ y', ∀ fb, (drawNext panelX panelW height reserved entries (fb, y)).2 = y') ∧
      PaintsFrom w h column fun fb => (drawNext panelX panelW height reserved entries (fb, y)).1 := by
  induction entries generalizing y with
  | nil => exact ⟨⟨y, fun _ => rfl⟩, paintsFrom_id column⟩
  | cons entry rest ih =>
    obtain ⟨i, kind⟩ := entry
    unfold drawNext
    by_cases hr : FrameBuffer.satAdd16 y reserved ≥ height
    · simp only [if_pos hr]
      exact ⟨⟨y, fun _ => rfl⟩, paintsFrom_id column⟩
    · simp only [if_neg hr]
      by_cases hy : y ≥ height
      · simp only [if_pos hy]
        exact ⟨⟨y, fun _ => rfl⟩, paintsFrom_id column⟩
      · simp only [if_neg hy]
        obtain ⟨⟨y', hy'⟩, hrest⟩ := ih (FrameBuffer.satAdd16 y 1)
        refine ⟨⟨y', fun fb => hy' _⟩, ?_⟩
        have hletter := paintsFrom_putStr (w := w) (h := h) hx y (pieceLetter kind) valueStyle
        by_cases hwide : panelW ≥ 16
        · simp only [if_pos hwide]
          have hx₂ : column ≤ panelX + 2 := by omega
          have hx₃ : column ≤ panelX + 3 := by omega
          have hmark := paintsFrom_putChar (w := w) (h := h) hx₂ y '#' { valueStyle with dim := true }
          have hnumber := paintsFrom_putU32 (w := w) (h := h) hx₃ y (UInt32.ofNat i + 1)
            { valueStyle with dim := true }
          exact ((hletter.comp hmark).comp hnumber).comp hrest
        · simp only [if_neg hwide]
          exact hletter.comp hrest

theorem paintsFrom_drawAdapter {column panelX : ℕ} (hx : column ≤ panelX) (st : AdapterStatusView)
    (y : ℕ) : PaintsFrom w h column fun fb => drawAdapter panelX st fb y := by
  have hv : column ≤ panelX + 5 := by omega
  have hs (y : ℕ) (s : List Char) (style : CellStyle) :=
    paintsFrom_putStr (w := w) (h := h) hx y s style
  have hn (y : ℕ) (v : UInt32) := paintsFrom_putU32 (w := w) (h := h) hv y v valueStyle
  have hd (y : ℕ) := paintsFrom_putStr (w := w) (h := h) hv y ['-'] valueStyle
  unfold drawAdapter
  simp only
  have known (y : ℕ) (number : Option ℕ) :
      PaintsFrom w h column fun fb => putKnown fb (panelX + 5) y number := by
    cases number with
    | none => exact hd y
    | some n => exact hn y _
  exact ((((((((((hs _ _ _).comp (hs _ _ _)).comp (hn _ _)).comp (hs _ _ _)).comp (hn _ _)).comp
    (hs _ _ _)).comp (known _ st.controllerId)).comp (hs _ _ _)).comp (known _ st.listenPort)).comp
      (hs _ _ _)).comp (hn _ _)

theorem paintsFrom_drawSidePanel (snap : GameSnapshot) (adapter : Option AdapterStatusView)
    (viewport : Viewport) (startX startY frameW : ℕ) :
    PaintsFrom w h (min (startX + frameW + 2) 65535) fun fb =>
      drawSidePanel fb snap adapter viewport startX startY frameW := by
  have hx : min (startX + frameW + 2) 65535 ≤
      FrameBuffer.satAdd16 (FrameBuffer.satAdd16 startX frameW) 2 := by
    unfold FrameBuffer.satAdd16
    omega
  unfold drawSidePanel
  simp only
  generalize FrameBuffer.satAdd16 (FrameBuffer.satAdd16 startX frameW) 2 = panelX at hx ⊢
  have hs (y : ℕ) (s : List Char) (style : CellStyle) :=
    paintsFrom_putStr (w := w) (h := h) hx y s style
  have hn (y : ℕ) (v : UInt32) := paintsFrom_putU32 (w := w) (h := h) hx y v valueStyle
  split
  · exact paintsFrom_id _
  · split
    · exact paintsFrom_id _
    · obtain ⟨⟨y', hy'⟩, hnext⟩ := paintsFrom_drawNext (w := w) (h := h) hx (viewport.width - panelX)
        viewport.height (if adapter.isSome then 7 else 0) ((List.range 5).zip snap.nextQueue.toList)
        (FrameBuffer.satAdd16 (FrameBuffer.satAdd16 (FrameBuffer.satAdd16 (FrameBuffer.satAdd16
          (FrameBuffer.satAdd16 (FrameBuffer.satAdd16 (FrameBuffer.satAdd16 (FrameBuffer.satAdd16
            (FrameBuffer.satAdd16 startY 1) 2) 1) 2) 1) 2) 1) 2) 1)
      cases adapter with
      | none =>
        exact (((((((((hs _ _ _).comp (hn _ _)).comp (hs _ _ _)).comp (hn _ _)).comp (hs _ _ _)).comp
          (hn _ _)).comp (hs _ _ _)).comp (hs _ _ _)).comp (hs _ _ _)).comp hnext
      | some st =>
        simp only [hy']
        exact ((((((((((hs _ _ _).comp (hn _ _)).comp (hs _ _ _)).comp (hn _ _)).comp (hs _ _ _)).comp
          (hn _ _)).comp (hs _ _ _)).comp (hs _ _ _)).comp (hs _ _ _)).comp hnext).comp
          (paintsFrom_drawAdapter hx st y')

/-! ## The parts in the play area -/

theorem paints_drawBorder (x y bw bh : ℕ) (style : CellStyle) :
    ∃ layer, Paints w h (fun fb => drawBorder fb x y bw bh style) layer := by
  unfold drawBorder
  split
  · exact ⟨_, paints_id⟩
  · have hc (x y : ℕ) (ch : Char) := paints_putChar (w := w) (h := h) x y ch style
    have hacross := Paints.foldl (w := w) (h := h) fun dx (_ : dx ∈ List.range' 1 (bw - 2)) =>
      (hc (x + dx) y '─').comp (hc (x + dx) (y + bh - 1) '─')
    have hdown := Paints.foldl (w := w) (h := h) fun dy (_ : dy ∈ List.range' 1 (bh - 2)) =>
      (hc x (y + dy) '│').comp (hc (x + bw - 1) (y + dy) '│')
    exact ⟨_, (((((hc _ _ _).comp (hc _ _ _)).comp (hc _ _ _)).comp (hc _ _ _)).comp hacross).comp hdown⟩

/-- The rectangle of one cell of the board. -/
def cellRect (view : GameView) (startX startY cellX cellY : ℕ) (cell : Cell) : Layer Cell :=
  .rect (startX + 1 + cellX * view.cellW) (startY + 1 + cellY * view.cellH) view.cellW view.cellH cell

section Parts

variable (hw : w < 65536) (hh : h < 65536) (view : GameView) (startX startY : ℕ)
include hw hh

theorem paints_fillCellRect (x y : ℕ) (ch : Char) (style : CellStyle) :
    Paints w h (fun fb => view.fillCellRect startX startY fb x y ch style)
      (cellRect view startX startY x y ⟨ch, style⟩) := paints_fillRect hw hh _ _ _ _ _ _

/-- What a code of the board looks like. -/
def lockedCell (code : UInt8) : Cell :=
  match pieceFromCell code with
  | some kind => ⟨'█', pieceStyle kind true⟩
  | none => ⟨'·', emptyStyle⟩

def lockedLayer (board : Vector (Vector UInt8 10) 20) : Layer Cell :=
  .stack ((List.finRange 20).map fun y => .stack ((List.finRange 10).map fun x =>
    cellRect view startX startY x.val y.val (lockedCell ((board.get y).get x))))

theorem paints_drawLocked (board : Vector (Vector UInt8 10) 20) :
    Paints w h (view.drawLocked startX startY board) (lockedLayer view startX startY board) := by
  refine Paints.foldl fun y _ => Paints.foldl fun x _ => ?_
  unfold lockedCell
  cases pieceFromCell ((board.get y).get x) with
  | some kind => exact paints_fillCellRect hw hh view startX startY _ _ _ _
  | none => exact paints_fillCellRect hw hh view startX startY _ _ _ _

/-- One cell for each mino that lies on the board. -/
def minoLayer (shape : PieceShape) (x y : Int8) (cell : Cell) : Layer Cell :=
  .stack (shape.map fun m =>
    if GameView.onBoard (x + m.1) (y + m.2) then
      cellRect view startX startY (x + m.1).toInt.toNat (y + m.2).toInt.toNat cell
    else .clear)

theorem paints_minos (shape : PieceShape) (x y : Int8) (ch : Char) (style : CellStyle) :
    Paints w h (fun fb => shape.foldl (fun fb m =>
      if GameView.onBoard (x + m.1) (y + m.2) then
        view.fillCellRect startX startY fb (x + m.1).toInt.toNat (y + m.2).toInt.toNat ch style
      else fb) fb) (minoLayer view startX startY shape x y ⟨ch, style⟩) := by
  refine Paints.foldl fun m _ => ?_
  split
  · exact paints_fillCellRect hw hh view startX startY _ _ _ _
  · exact paints_id

def ghostLayer (snap : GameSnapshot) : Layer Cell :=
  match snap.active, snap.ghostY with
  | some active, some ghostY =>
    minoLayer view startX startY (getShape active.kind active.rotation) active.x ghostY ⟨'░', ghostStyle⟩
  | _, _ => .clear

theorem paints_drawGhost (snap : GameSnapshot) :
    Paints w h (view.drawGhost startX startY snap) (ghostLayer view startX startY snap) := by
  unfold GameView.drawGhost ghostLayer
  cases snap.active with
  | none => exact paints_id
  | some active =>
    cases snap.ghostY with
    | none => exact paints_id
    | some ghostY => exact paints_minos hw hh view startX startY _ _ _ _ _

def activeLayer (snap : GameSnapshot) : Layer Cell :=
  match snap.active with
  | some active =>
    minoLayer view startX startY (getShape active.kind active.rotation) active.x active.y
      ⟨'█', pieceStyle active.kind true⟩
  | none => .clear

theorem paints_drawActive (snap : GameSnapshot) :
    Paints w h (view.drawActive startX startY snap) (activeLayer view startX startY snap) := by
  unfold GameView.drawActive activeLayer
  cases snap.active with
  | none => exact paints_id
  | some active => exact paints_minos hw hh view startX startY _ _ _ _ _

end Parts

/-! ## The whole picture -/

/-- The left column and the top row of the frame. -/
def startX (view : GameView) (viewport : Viewport) : ℕ :=
  (viewport.width - (boardWidth * view.cellW + 2)) / 2

def startY (view : GameView) (viewport : Viewport) : ℕ :=
  match view.anchorY with
  | .Center => (viewport.height - (boardHeight * view.cellH + 2)) / 2
  | .Top => 0

/-- Everything that is painted before the locked cells. -/
def paintFrame (view : GameView) (viewport : Viewport) (fb : FrameBuffer) : FrameBuffer :=
  drawBorder (((fb.clear ⟨' ', .default⟩).fillRect (startX view viewport + 1) (startY view viewport + 1)
    (boardWidth * view.cellW) (boardHeight * view.cellH) ' ' backgroundStyle)) (startX view viewport)
    (startY view viewport) (boardWidth * view.cellW + 2) (boardHeight * view.cellH + 2) borderStyle

def paintOverlay (view : GameView) (viewport : Viewport) (snap : GameSnapshot) (fb : FrameBuffer) :
    FrameBuffer :=
  if snap.paused then drawOverlayText fb (startX view viewport) (startY view viewport)
    (boardWidth * view.cellW + 2) (boardHeight * view.cellH + 2) "PAUSED".toList
  else if snap.gameOver then drawOverlayText fb (startX view viewport) (startY view viewport)
    (boardWidth * view.cellW + 2) (boardHeight * view.cellH + 2) "GAME OVER".toList
  else fb

theorem render_parts (view : GameView) (snap : GameSnapshot) (adapter : Option AdapterStatusView)
    (viewport : Viewport) (fb : FrameBuffer) :
    view.renderIntoWithAdapter snap adapter viewport fb =
      paintOverlay view viewport snap (drawSidePanel
        (view.drawActive (startX view viewport) (startY view viewport) snap
          (view.drawGhost (startX view viewport) (startY view viewport) snap
            (view.drawLocked (startX view viewport) (startY view viewport) snap.board
              (paintFrame view viewport (fb.resize viewport.width viewport.height)))))
        snap adapter viewport (startX view viewport) (startY view viewport)
        (boardWidth * view.cellW + 2)) := rfl

theorem paints_paintFrame (hw : w < 65536) (hh : h < 65536) (view : GameView) (viewport : Viewport) :
    ∃ layer, Paints w h (paintFrame view viewport) layer ∧ ∀ i j, (layer i j).isSome = true := by
  obtain ⟨border, hborder⟩ := paints_drawBorder (w := w) (h := h) (startX view viewport)
    (startY view viewport) (boardWidth * view.cellW + 2) (boardHeight * view.cellH + 2) borderStyle
  have hfill := paints_fillRect hw hh (startX view viewport + 1) (startY view viewport + 1)
    (boardWidth * view.cellW) (boardHeight * view.cellH) ' ' backgroundStyle
  refine ⟨_, ((paints_clear ⟨' ', .default⟩).comp hfill).comp hborder, fun i j => ?_⟩
  simp only [Layer.atop_apply, Option.isSome_or, Option.isSome_some, Bool.or_true]

theorem paints_paintOverlay (view : GameView) (viewport : Viewport) (snap : GameSnapshot) :
    ∃ layer, Paints w h (paintOverlay view viewport snap) layer ∧
      (snap.paused = false → snap.gameOver = false → layer = .clear) := by
  unfold paintOverlay drawOverlayText
  cases hp : snap.paused with
  | true => exact ⟨_, paints_putStr _ _ _ _, fun h => absurd h (by decide)⟩
  | false =>
    cases hg : snap.gameOver with
    | true => exact ⟨_, paints_putStr _ _ _ _, fun _ h => absurd h (by decide)⟩
    | false => exact ⟨_, paints_id, fun _ _ => rfl⟩

/-- The layers of a picture, with the play area between its frame and what lies over it. -/
structure Picture (view : GameView) (snap : GameSnapshot) (viewport : Viewport) where
  frame : Layer Cell
  panel : Layer Cell
  overlay : Layer Cell
  full : ∀ i j, (frame i j).isSome = true
  right : ∀ i < min (startX view viewport + (boardWidth * view.cellW + 2) + 2) 65535, ∀ j,
    panel i j = none
  playing : snap.paused = false → snap.gameOver = false → overlay = .clear

def Picture.layer {view : GameView} {snap : GameSnapshot} {viewport : Viewport}
    (p : Picture view snap viewport) : Layer Cell :=
  p.overlay.atop (p.panel.atop ((activeLayer view (startX view viewport) (startY view viewport) snap).atop
    ((ghostLayer view (startX view viewport) (startY view viewport) snap).atop
      ((lockedLayer view (startX view viewport) (startY view viewport) snap.board).atop p.frame))))

/-- Rendering paints one picture, whatever the framebuffer held. -/
theorem paints_render (view : GameView) (snap : GameSnapshot) (adapter : Option AdapterStatusView)
    {viewport : Viewport} (hw : viewport.width < 65536) (hh : viewport.height < 65536) :
    ∃ p : Picture view snap viewport, ∀ fb,
      (view.renderIntoWithAdapter snap adapter viewport fb).width = viewport.width ∧
      (view.renderIntoWithAdapter snap adapter viewport fb).height = viewport.height ∧
      ∀ i < viewport.width, ∀ j < viewport.height,
        some ((view.renderIntoWithAdapter snap adapter viewport fb).cellAt i j) = p.layer i j := by
  obtain ⟨frame, hframe, hfull⟩ := paints_paintFrame hw hh view viewport
  obtain ⟨panel, hpanel, hright⟩ := paintsFrom_drawSidePanel (w := viewport.width)
    (h := viewport.height) snap adapter viewport (startX view viewport) (startY view viewport)
    (boardWidth * view.cellW + 2)
  obtain ⟨overlay, hoverlay, hplaying⟩ := paints_paintOverlay (w := viewport.width)
    (h := viewport.height) view viewport snap
  let p : Picture view snap viewport := ⟨frame, panel, overlay, hfull, hright, hplaying⟩
  have hparts := ((((hframe.comp (paints_drawLocked hw hh view (startX view viewport)
    (startY view viewport) snap.board)).comp (paints_drawGhost hw hh view (startX view viewport)
      (startY view viewport) snap)).comp (paints_drawActive hw hh view (startX view viewport)
        (startY view viewport) snap)).comp hpanel).comp hoverlay
  refine ⟨p, fun fb => ?_⟩
  obtain ⟨hsw, hsh⟩ := FrameBuffer.resize_size fb viewport.width viewport.height
  obtain ⟨hrw, hrh, hcells⟩ := hparts (fb.resize viewport.width viewport.height) hsw hsh
  rw [render_parts]
  refine ⟨hrw, hrh, fun i hi j hj => ?_⟩
  have hsome : (p.layer i j).isSome = true := by
    simp only [Picture.layer, Layer.atop_apply, Option.isSome_or, p.full i j, Bool.or_true]
  obtain ⟨cell, hcell⟩ := Option.isSome_iff_exists.mp hsome
  rw [hcell]
  refine congrArg some ((hcells i hi j hj).trans ?_)
  change (p.layer i j).getD _ = cell
  rw [hcell]
  rfl

/-- No position passes the range of `u16`. -/
structure Fits (view : GameView) (viewport : Viewport) : Prop where
  width : viewport.width < 65536
  height : viewport.height < 65536
  frameWidth : boardWidth * view.cellW + 2 < 65536
  frameHeight : boardHeight * view.cellH + 2 < 65536

/-- A stretch of `n` places that starts at a multiple of `n`. -/
theorem block_iff {n k c d : ℕ} (hd : d < n) : (k * n ≤ c * n + d ∧ c * n + d < k * n + n) ↔ k = c := by
  constructor
  · rintro ⟨hl, hu⟩
    rcases Nat.lt_trichotomy k c with hlt | heq | hgt
    · have hmul : (k + 1) * n ≤ c * n := Nat.mul_le_mul_right n hlt
      rw [Nat.add_mul, Nat.one_mul] at hmul
      omega
    · exact heq
    · have hmul : (c + 1) * n ≤ k * n := Nat.mul_le_mul_right n hgt
      rw [Nat.add_mul, Nat.one_mul] at hmul
      omega
  · rintro rfl
    omega

/-- The mino of a piece lies on this cell of the board. -/
def pieceCovers (shape : PieceShape) (x y : Int8) (r : Fin 20) (c : Fin 10) : Bool :=
  shape.any fun m => (x + m.1).toInt = c.val ∧ (y + m.2).toInt = r.val

/-- What a cell of the board looks like in play: the active piece over its ghost, and the ghost over
the locked cells. -/
def shownCell (snap : GameSnapshot) (r : Fin 20) (c : Fin 10) : Cell :=
  match snap.active.filter fun a => pieceCovers (getShape a.kind a.rotation) a.x a.y r c with
  | some a => ⟨'█', pieceStyle a.kind true⟩
  | none =>
    if (snap.active.bind fun a => snap.ghostY.map fun y =>
        pieceCovers (getShape a.kind a.rotation) a.x y r c).getD false then ⟨'░', ghostStyle⟩
    else lockedCell ((snap.board.get r).get c)

/-- The terminal column and row of a place in a cell of the board. -/
def column (view : GameView) (viewport : Viewport) (c : Fin 10) (dx : ℕ) : ℕ :=
  startX view viewport + 1 + c.val * view.cellW + dx

def line (view : GameView) (viewport : Viewport) (r : Fin 20) (dy : ℕ) : ℕ :=
  startY view viewport + 1 + r.val * view.cellH + dy

theorem onBoard_iff (x y : Int8) : GameView.onBoard x y = true ↔
    (0 ≤ x.toInt ∧ x.toInt < 10) ∧ 0 ≤ y.toInt ∧ y.toInt < 20 := by
  have h0 : (0 : Int8).toInt = 0 := by decide
  have h10 : (10 : Int8).toInt = 10 := by decide
  have h20 : (20 : Int8).toInt = 20 := by decide
  simp only [GameView.onBoard, Bool.and_eq_true, decide_eq_true_iff, Int8.le_iff_toInt_le,
    Int8.lt_iff_toInt_lt, h0, h10, h20]
  omega

section PlayArea

variable {view : GameView} (viewport : Viewport) {dx dy : ℕ} (hdx : dx < view.cellW)
  (hdy : dy < view.cellH) (r : Fin 20) (c : Fin 10)
include hdx hdy

theorem cellRect_at (cellX cellY : ℕ) (cell : Cell) :
    cellRect view (startX view viewport) (startY view viewport) cellX cellY cell
      (column view viewport c dx) (line view viewport r dy) =
      if cellX = c.val ∧ cellY = r.val then some cell else none := by
  have hx := block_iff (k := cellX) (c := c.val) hdx
  have hy := block_iff (k := cellY) (c := r.val) hdy
  unfold column line cellRect Layer.rect
  refine if_congr ?_ rfl rfl
  rw [← hx, ← hy]
  omega

theorem lockedLayer_at (board : Vector (Vector UInt8 10) 20) :
    lockedLayer view (startX view viewport) (startY view viewport) board
      (column view viewport c dx) (line view viewport r dy) =
      some (lockedCell ((board.get r).get c)) := by
  have hcell (x : Fin 10) (y : Fin 20) := cellRect_at viewport hdx hdy r c
    x.val y.val (lockedCell ((board.get y).get x))
  have hagree (y : Fin 20) (m : Layer Cell) (hm : m ∈ (List.finRange 10).map fun x =>
      cellRect view (startX view viewport) (startY view viewport) x.val y.val
        (lockedCell ((board.get y).get x))) :
      m (column view viewport c dx) (line view viewport r dy) = none ∨
        y = r ∧ m (column view viewport c dx) (line view viewport r dy) =
          some (lockedCell ((board.get r).get c)) := by
    obtain ⟨x, -, rfl⟩ := List.mem_map.mp hm
    rw [hcell]
    split
    · next h =>
      have hx : x = c := Fin.ext h.1
      have hy : y = r := Fin.ext h.2
      subst hx
      subst hy
      exact .inr ⟨rfl, rfl⟩
    · exact .inl rfl
  have hrow : Layer.stack ((List.finRange 10).map fun x =>
      cellRect view (startX view viewport) (startY view viewport) x.val r.val
        (lockedCell ((board.get r).get x))) (column view viewport c dx) (line view viewport r dy) =
      some (lockedCell ((board.get r).get c)) :=
    Layer.stack_some (List.mem_map_of_mem (List.mem_finRange c)) (by rw [hcell, if_pos ⟨rfl, rfl⟩])
      fun m hm => (hagree r m hm).imp_right And.right
  refine Layer.stack_some (List.mem_map_of_mem (List.mem_finRange r)) hrow fun m hm => ?_
  obtain ⟨y, -, rfl⟩ := List.mem_map.mp hm
  cases hs : Layer.stack ((List.finRange 10).map fun x =>
      cellRect view (startX view viewport) (startY view viewport) x.val y.val
        (lockedCell ((board.get y).get x))) (column view viewport c dx) (line view viewport r dy) with
  | none => exact .inl rfl
  | some a =>
    obtain ⟨m, hm, ha⟩ := Layer.stack_mem hs
    rcases hagree y m hm with hn | ⟨-, hn⟩
    · rw [ha] at hn
      cases hn
    · exact .inr (ha.symm.trans hn)

theorem mino_at (x y : Int8) (cell : Cell) :
    (if GameView.onBoard x y then
      cellRect view (startX view viewport) (startY view viewport) x.toInt.toNat y.toInt.toNat cell
    else .clear) (column view viewport c dx) (line view viewport r dy) =
      if x.toInt = c.val ∧ y.toInt = r.val then some cell else none := by
  have hin := onBoard_iff x y
  by_cases hb : GameView.onBoard x y = true
  · rw [if_pos hb, cellRect_at viewport hdx hdy]
    have hrange := hin.mp hb
    refine if_congr ?_ rfl rfl
    omega
  · rw [if_neg hb, if_neg fun h => hb (hin.mpr (by omega))]
    rfl

theorem minoLayer_at (shape : PieceShape) (x y : Int8) (cell : Cell) :
    minoLayer view (startX view viewport) (startY view viewport) shape x y cell
      (column view viewport c dx) (line view viewport r dy) =
      if pieceCovers shape x y r c then some cell else none := by
  have hmino (m : MinoOffset) := mino_at viewport hdx hdy r c (x + m.1)
    (y + m.2) cell
  by_cases hc : pieceCovers shape x y r c = true
  · obtain ⟨m, hm, hcover⟩ := List.any_eq_true.mp hc
    rw [if_pos hc]
    refine Layer.stack_some (List.mem_map_of_mem hm)
      ((hmino m).trans (if_pos (of_decide_eq_true hcover))) fun k hk => ?_
    obtain ⟨n, -, rfl⟩ := List.mem_map.mp hk
    rw [hmino]
    split <;> simp
  · rw [if_neg hc]
    refine Layer.stack_eq_none.mpr fun k hk => ?_
    obtain ⟨n, hn, rfl⟩ := List.mem_map.mp hk
    rw [hmino, if_neg fun h => hc (List.any_eq_true.mpr ⟨n, hn, decide_eq_true h⟩)]

/-- The active piece, its ghost and the locked cells, as they lie over each other. -/
theorem playArea_at (snap : GameSnapshot) (below : Layer Cell) :
    ((activeLayer view (startX view viewport) (startY view viewport) snap).atop
      ((ghostLayer view (startX view viewport) (startY view viewport) snap).atop
        ((lockedLayer view (startX view viewport) (startY view viewport) snap.board).atop below)))
      (column view viewport c dx) (line view viewport r dy) = some (shownCell snap r c) := by
  have hlocked := lockedLayer_at viewport hdx hdy r c snap.board
  have hmino := minoLayer_at viewport hdx hdy r c
  unfold activeLayer ghostLayer shownCell
  cases ha : snap.active with
  | none =>
    rw [Layer.atop_none rfl, Layer.atop_none rfl, Layer.atop_some hlocked]
    rfl
  | some active =>
    cases hc : pieceCovers (getShape active.kind active.rotation) active.x active.y r c with
    | true =>
      rw [Layer.atop_some ((hmino _ _ _ _).trans (if_pos hc))]
      simp [Option.filter, hc]
    | false =>
      rw [Layer.atop_none ((hmino _ _ _ _).trans (if_neg (by rw [hc]; decide)))]
      cases hy : snap.ghostY with
      | none =>
        rw [Layer.atop_none rfl, Layer.atop_some hlocked]
        simp [Option.filter, hc]
      | some ghostY =>
        cases hgc : pieceCovers (getShape active.kind active.rotation) active.x ghostY r c with
        | true =>
          rw [Layer.atop_some ((hmino _ _ _ _).trans (if_pos hgc))]
          simp [Option.filter, hc, hgc]
        | false =>
          rw [Layer.atop_none ((hmino _ _ _ _).trans (if_neg (by rw [hgc]; decide))),
            Layer.atop_some hlocked]
          simp [Option.filter, hc, hgc]

variable {viewport}

/-- The viewport has room for the frame. -/
structure Roomy (view : GameView) (viewport : Viewport) : Prop where
  width : boardWidth * view.cellW + 2 ≤ viewport.width
  height : boardHeight * view.cellH + 2 ≤ viewport.height
  width_lt : viewport.width < 65536
  height_lt : viewport.height < 65536

omit hdy in
theorem column_lt (hroom : Roomy view viewport) :
    column view viewport c dx + 1 < startX view viewport + (boardWidth * view.cellW + 2) ∧
      startX view viewport + (boardWidth * view.cellW + 2) ≤ viewport.width := by
  have hmul : (c.val + 1) * view.cellW ≤ boardWidth * view.cellW :=
    Nat.mul_le_mul_right _ (Nat.succ_le_of_lt c.isLt)
  have hwidth := hroom.width
  rw [Nat.add_mul, Nat.one_mul] at hmul
  unfold column startX
  omega

omit hdx in
theorem line_lt (hroom : Roomy view viewport) : line view viewport r dy < viewport.height := by
  have hmul : (r.val + 1) * view.cellH ≤ boardHeight * view.cellH :=
    Nat.mul_le_mul_right _ (Nat.succ_le_of_lt r.isLt)
  have hheight := hroom.height
  rw [Nat.add_mul, Nat.one_mul] at hmul
  unfold line startY
  cases view.anchorY <;> simp only <;> omega

/-- Where the viewport has room for the frame, every place of every cell of the board shows what it
should while the game is on. -/
theorem board_shown (hroom : Roomy view viewport) (snap : GameSnapshot)
    (adapter : Option AdapterStatusView) (hp : snap.paused = false) (hg : snap.gameOver = false)
    (fb : FrameBuffer) :
    (view.renderIntoWithAdapter snap adapter viewport fb).get (column view viewport c dx)
      (line view viewport r dy) = some (shownCell snap r c) := by
  obtain ⟨p, hpicture⟩ := paints_render view snap adapter hroom.width_lt hroom.height_lt
  obtain ⟨hw, hh, hcells⟩ := hpicture fb
  obtain ⟨hcolumn, hframe⟩ := column_lt hdx c hroom
  have hinside : column view viewport c dx < startX view viewport + (boardWidth * view.cellW + 2) :=
    Nat.lt_of_succ_lt hcolumn
  have hwide : column view viewport c dx < viewport.width := hinside.trans_le hframe
  have hshort : column view viewport c dx < 65535 := hwide.trans_le (Nat.le_of_lt_succ hroom.width_lt)
  have hline := line_lt hdy r hroom
  have hpanel := p.right (column view viewport c dx)
    (Nat.lt_min.mpr ⟨Nat.lt_add_right 2 hinside, hshort⟩) (line view viewport r dy)
  have hcell := hcells (column view viewport c dx) hwide (line view viewport r dy) hline
  rw [Picture.layer, p.playing hp hg, Layer.atop_none rfl, Layer.atop_none hpanel,
    playArea_at viewport hdx hdy r c] at hcell
  rw [← hcell]
  exact FrameBuffer.get_cellAt _ ⟨hw.symm ▸ hwide, hh.symm ▸ hline⟩

end PlayArea

end TuiTetris.TermGameViewPicture
