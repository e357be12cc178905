import TuiTetris.CoreDescents
import TuiTetris.TermGameViewPicture

set_option autoImplicit false

/-!
# What a player sees

The playfield as the rules know it, and the cells that stand for it on the screen. The
picture adds `i8` coordinates; a piece in play lies on the board, so the sums are exact.
-/
namespace TuiTetris.TermPlayfield
open CoreTypes hiding Cell
open CorePieces CoreBoard CoreGameState CoreSnapshot CoreGameStateLoops CoreGameStateEffects
open CoreGameStateInvariant CoreDescents CoreCheckedSafe SessionPlaceCorrect LibTransition
open TermFrameBuffer TermGameView TermGameViewPicture

/-- What is to be seen at a cell of the playfield. -/
inductive Sight where
  | block (kind : PieceKind)
  | ghost
  | empty
  deriving DecidableEq, Repr

/-- The piece has a mino on this cell. -/
def lies (p : Tetromino) (r : Fin 20) (c : Fin 10) : Bool :=
  p.shape.any fun m => p.x.toInt + m.1.toInt = c.val ∧ p.y.toInt + m.2.toInt = r.val

def lockedSight : Option PieceKind → Sight
  | some kind => .block kind
  | none => .empty

/-- The active piece hides its ghost; the ghost marks where a drop ends. -/
def sight (s : GameState) (r : Fin 20) (c : Fin 10) : Sight :=
  match s.active.filter fun p => lies p r c with
  | some p => .block p.kind
  | none =>
    if s.active.any fun p => lies (lowered p (GameState.dropDistance s.board p)) r c then .ghost
    else lockedSight (s.board.cell r c)

def Sight.look : Sight → Cell
  | .block kind => ⟨'█', pieceStyle kind true⟩
  | .ghost => ⟨'░', ghostStyle⟩
  | .empty => ⟨'·', emptyStyle⟩

def Sight.all : List Sight :=
  [.block .I, .block .O, .block .T, .block .S, .block .Z, .block .J, .block .L, .ghost, .empty]

/-- Reads a cell of the screen. -/
def readSight (cell : Cell) : Option Sight := Sight.all.find? fun v => v.look = cell

theorem readSight_look (v : Sight) : readSight v.look = some v := by
  cases v with
  | block kind => cases kind <;> decide
  | ghost => decide
  | empty => decide

/-! ## The picture of a state -/

theorem pieceFromCell_code (kind : Option PieceKind) : pieceFromCell (Board.cellCode kind) = kind := by
  cases kind with
  | none => rfl
  | some kind => cases kind <;> rfl

theorem writeU8Grid_get (b : Board) (r : Fin 20) (c : Fin 10) :
    (b.writeU8Grid.get r).get c = Board.cellCode (b.cell r c) := by
  have hrow : b.writeU8Grid.get r = Vector.ofFn fun x => Board.cellCode b.cells[r.val * 10 + x.val] :=
    Vector.getElem_ofFn r.isLt
  rw [hrow]
  exact Vector.getElem_ofFn c.isLt

theorem pieceCovers_lies {p : Tetromino} {b : Board} (h : p.isValid b = true) (r : Fin 20)
    (c : Fin 10) : pieceCovers p.shape p.x p.y r c = lies p r c := by
  obtain ⟨⟨hx, hx'⟩, hy, hy'⟩ := inRange_valid h
  have hmino (m : MinoOffset) (hm : m ∈ p.shape) : ((p.x + m.1).toInt = c.val ∧
      (p.y + m.2).toInt = r.val) ↔ (p.x.toInt + m.1.toInt = c.val ∧ p.y.toInt + m.2.toInt = r.val) := by
    obtain ⟨h1, h1', h2, h2'⟩ := getShape_offsets p.kind p.rotation m hm
    rw [Int8.toInt_add, Int8.toInt_add, Int.bmod_def, Int.bmod_def]
    omega
  rw [Bool.eq_iff_iff]
  simp only [pieceCovers, lies, List.any_eq_true, decide_eq_true_iff]
  exact exists_congr fun m => and_congr_right (hmino m)

theorem shownCell_sight {s : GameState} (hi : Invariant s) (r : Fin 20) (c : Fin 10) :
    shownCell (snapshot s) r c = (sight s r c).look := by
  have hlocked : lockedCell (((snapshot s).board.get r).get c) =
      (lockedSight (s.board.cell r c)).look := by
    change lockedCell ((s.board.writeU8Grid.get r).get c) = _
    rw [writeU8Grid_get, lockedCell, pieceFromCell_code]
    cases s.board.cell r c <;> rfl
  have hactive : (snapshot s).active = s.active.map ActiveSnapshot.ofTetromino := rfl
  have hghost : (snapshot s).ghostY = s.ghostY := rfl
  unfold shownCell sight
  rw [hactive, hghost, ghostY_eq, hlocked]
  cases ha : s.active with
  | none => rfl
  | some p =>
    have hv := hi.valid p ha
    have hcovers : pieceCovers (getShape p.kind p.rotation) p.x p.y r c = lies p r c :=
      pieceCovers_lies hv r c
    have hdrop : pieceCovers (getShape p.kind p.rotation) p.x
        (p.y + Int8.ofNat (GameState.dropDistance s.board p)) r c =
        lies (lowered p (GameState.dropDistance s.board p)) r c :=
      pieceCovers_lies (landed_valid hv) r c
    simp only [Option.map_some, Option.filter_some, ActiveSnapshot.ofTetromino, Option.bind_some,
      Option.getD_some, Option.any_some, hcovers, hdrop]
    by_cases hp : lies p r c = true
    · rw [if_pos hp, if_pos hp]
      rfl
    · rw [if_neg hp, if_neg hp]
      simp only
      by_cases hg : lies (lowered p (GameState.dropDistance s.board p)) r c = true
      · rw [if_pos hg, if_pos hg]
        rfl
      · rw [if_neg hg, if_neg hg]

theorem playing_shown {s : GameState} (hi : Invariant s) (hpaused : s.paused = false)
    (hover : s.gameOver = false) {view : GameView} {viewport : Viewport} (hroom : Roomy view viewport)
    (adapter : Option AdapterStatusView) (fb : FrameBuffer) (r : Fin 20) (c : Fin 10) {dx dy : ℕ}
    (hdx : dx < view.cellW) (hdy : dy < view.cellH) :
    (view.renderIntoWithAdapter (snapshot s) adapter viewport fb).get (column view viewport c dx)
      (line view viewport r dy) = some (sight s r c).look := by
  rw [board_shown hdx hdy r c hroom (snapshot s) adapter hpaused hover fb, shownCell_sight hi]

/-- The screen of a game in play can be read back: every place of a cell shows what lies there. -/
theorem screen_reads_back (seed : UInt32) (ops : List Op) {view : GameView} {viewport : Viewport}
    (hroom : Roomy view viewport) (adapter : Option AdapterStatusView) (fb : FrameBuffer)
    (hpaused : (run Op.apply (GameState.new seed).start ops).paused = false)
    (hover : (run Op.apply (GameState.new seed).start ops).gameOver = false)
    (r : Fin 20) (c : Fin 10) {dx dy : ℕ} (hdx : dx < view.cellW) (hdy : dy < view.cellH) :
    ((view.renderIntoWithAdapter (snapshot (run Op.apply (GameState.new seed).start ops)) adapter
      viewport fb).get (column view viewport c dx) (line view viewport r dy)).bind readSight =
      some (sight (run Op.apply (GameState.new seed).start ops) r c) := by
  have hi := invariant_run (invariant_start seed) ops
  rw [playing_shown hi hpaused hover hroom adapter fb r c hdx hdy]
  exact readSight_look _

theorem roomy_standard : Roomy .default ⟨80, 24⟩ := by constructor <;> decide

theorem screen_reads_back_first :
    ((GameView.default.renderIntoWithAdapter (snapshot (GameState.new 1).start) none ⟨80, 24⟩
      (.new 0 0)).get (column .default ⟨80, 24⟩ 4 1) (line .default ⟨80, 24⟩ 0 0)).bind readSight =
      some (sight (GameState.new 1).start 0 4) :=
  screen_reads_back 1 [] roomy_standard none (.new 0 0) (by decide +kernel) (by decide +kernel) 0 4
    (by decide) (by decide)

end TuiTetris.TermPlayfield
