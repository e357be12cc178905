import TuiTetris.CorePieces

set_option autoImplicit false

/-!
# The game board

A flat array of cells in row-major order, as in the source. `cell` is the view
by row and column in which the facts below are stated.
-/
namespace TuiTetris.CoreBoard
open CoreTypes CorePieces

theorem inBounds_iff (x y : Int8) : (x < 0 ∨ x ≥ 10 ∨ y < 0 ∨ y ≥ 20) ↔
    ¬(0 ≤ x.toInt ∧ x.toInt < 10 ∧ 0 ≤ y.toInt ∧ y.toInt < 20) := by
  have h0 : (0 : Int8).toInt = 0 := rfl
  have h10 : (10 : Int8).toInt = 10 := rfl
  have h20 : (20 : Int8).toInt = 20 := rfl
  simp only [ge_iff_le, Int8.lt_iff_toInt_lt, Int8.le_iff_toInt_le, h0, h10, h20]
  omega

structure Board where
  cells : Vector Cell 200
  deriving DecidableEq

namespace Board

def new : Board := ⟨Vector.replicate 200 none⟩

def index (x y : Int8) : Option (Fin 200) :=
  if h : x < 0 ∨ x ≥ 10 ∨ y < 0 ∨ y ≥ 20 then none
  else some ⟨y.toNatClampNeg * boardWidth + x.toNatClampNeg, by
    simp only [inBounds_iff, Decidable.not_not] at h
    simp only [boardWidth, Int8.toNatClampNeg]
    omega⟩

def get (b : Board) (x y : Int8) : Option Cell := (index x y).map fun i => b.cells[i]

/-- The flag is `false` for an out-of-bounds position. -/
def set (b : Board) (x y : Int8) (cell : Cell) : Board × Bool :=
  match index x y with
  | some i => (⟨b.cells.set i cell⟩, true)
  | none => (b, false)

def isValid (b : Board) (x y : Int8) : Bool := b.get x y == some none

def isRowFull (b : Board) (y : ℕ) : Bool :=
  if y ≥ boardHeight then false
  else (b.cells.extract (y * boardWidth) (y * boardWidth + boardWidth)).all Option.isSome

/-- `slice.copy_within(0..len, dest)`. -/
def copyWithin (cells : Vector Cell 200) (len dest : ℕ) : Vector Cell 200 :=
  Vector.ofFn fun i =>
    if dest ≤ i.val ∧ i.val < dest + len then cells[i.val - dest] else cells[i]

def clearRow (b : Board) (y : ℕ) : Board :=
  if y ≥ boardHeight then b
  else
    let start := y * boardWidth
    let shifted := copyWithin b.cells start boardWidth
    ⟨Vector.ofFn fun i => if i.val < boardWidth then none else shifted[i]⟩

/-- Rows found full on the board as it stands; the source keeps them in a buffer of four. -/
def fullRows (b : Board) : List ℕ := (List.range boardHeight).filter b.isRowFull

def clearFullRows (b : Board) : Board × List ℕ :=
  (b.fullRows.foldl clearRow b, b.fullRows)

/-- Second pass of `lock_piece`: write the minos one by one. -/
def setCells (x y : Int8) (kind : PieceKind) : Board → PieceShape → Board × Bool
  | b, [] => (b, true)
  | b, m :: ms =>
    let r := b.set (x + m.1) (y + m.2) (some kind)
    if r.2 then setCells x y kind r.1 ms else (r.1, false)

def lockPiece (b : Board) (shape : PieceShape) (x y : Int8) (kind : PieceKind) : Board × Bool :=
  if shapeFits b.isValid shape x y then setCells x y kind b shape else (b, false)

def cellCode : Cell → UInt8
  | none => 0
  | some .I => 1
  | some .O => 2
  | some .T => 3
  | some .S => 4
  | some .Z => 5
  | some .J => 6
  | some .L => 7

def writeU8Grid (b : Board) : Vector (Vector UInt8 10) 20 :=
  Vector.ofFn fun y => Vector.ofFn fun x => cellCode b.cells[y.val * 10 + x.val]

def cell (b : Board) (r : Fin 20) (c : Fin 10) : Cell :=
  b.cells[r.val * 10 + c.val]

end Board

open Board

theorem index_eq_some {x y : Int8} {i : Fin 200} :
    index x y = some i ↔ ∃ (r : Fin 20) (c : Fin 10),
      x.toInt = c.val ∧ y.toInt = r.val ∧ i.val = r.val * 10 + c.val := by
  unfold index
  split
  · next h =>
    rw [inBounds_iff] at h
    constructor
    · intro hn
      cases hn
    · rintro ⟨r, c, hx, hy, -⟩
      omega
  · next h =>
    simp only [inBounds_iff, Decidable.not_not] at h
    simp only [Option.some.injEq, Fin.ext_iff, Int8.toNatClampNeg, boardWidth]
    constructor
    · intro hi
      exact ⟨⟨y.toInt.toNat, by omega⟩, ⟨x.toInt.toNat, by omega⟩,
        by simp only; omega, by simp only; omega, hi.symm⟩
    · rintro ⟨r, c, hx, hy, hi⟩
      omega

theorem index_cell (b : Board) {x y : Int8} {r : Fin 20} {c : Fin 10}
    (hx : x.toInt = c.val) (hy : y.toInt = r.val) : b.get x y = some (b.cell r c) := by
  have h : index x y = some ⟨r.val * 10 + c.val, by omega⟩ :=
    index_eq_some.mpr ⟨r, c, hx, hy, rfl⟩
  simp [Board.get, h, cell]

theorem isValid_iff (b : Board) (x y : Int8) : b.isValid x y = true ↔
    ∃ (r : Fin 20) (c : Fin 10), x.toInt = c.val ∧ y.toInt = r.val ∧ b.cell r c = none := by
  simp only [isValid, beq_iff_eq]
  constructor
  · intro h
    obtain ⟨i, hi, -⟩ := Option.map_eq_some_iff.mp h
    obtain ⟨r, c, hx, hy, -⟩ := index_eq_some.mp hi
    rw [index_cell b hx hy] at h
    exact ⟨r, c, hx, hy, Option.some.inj h⟩
  · rintro ⟨r, c, hx, hy, hc⟩
    rw [index_cell b hx hy, hc]

theorem isValid_range {b : Board} {x y : Int8} (h : b.isValid x y = true) :
    0 ≤ x.toInt ∧ x.toInt < 10 ∧ 0 ≤ y.toInt ∧ y.toInt < 20 := by
  obtain ⟨r, c, hx, hy, -⟩ := (isValid_iff b x y).mp h
  omega

theorem new_cell (r : Fin 20) (c : Fin 10) : Board.new.cell r c = none := by
  simp [Board.new, cell]

theorem new_isValid {x y : Int8} (h : 0 ≤ x.toInt ∧ x.toInt < 10 ∧ 0 ≤ y.toInt ∧ y.toInt < 20) :
    Board.new.isValid x y = true := by
  rw [isValid_iff]
  exact ⟨⟨y.toInt.toNat, by omega⟩, ⟨x.toInt.toNat, by omega⟩,
    by simp only; omega, by simp only; omega, new_cell _ _⟩

theorem set_cell (b : Board) {x y : Int8} {r : Fin 20} {c : Fin 10} (v : Cell)
    (hx : x.toInt = c.val) (hy : y.toInt = r.val) :
    (b.set x y v).2 = true ∧ ∀ r' c', (b.set x y v).1.cell r' c' =
      if r' = r ∧ c' = c then v else b.cell r' c' := by
  have h : index x y = some ⟨r.val * 10 + c.val, by omega⟩ :=
    index_eq_some.mpr ⟨r, c, hx, hy, rfl⟩
  simp only [Board.set, h, cell, true_and]
  intro r' c'
  change (b.cells.set (r.val * 10 + c.val) v)[r'.val * 10 + c'.val] = _
  rw [Vector.getElem_set]
  by_cases he : r' = r ∧ c' = c
  · simp [he]
  · have hne : ¬r.val * 10 + c.val = r'.val * 10 + c'.val := by omega
    simp only [hne, he, if_false]

theorem isRowFull_iff (b : Board) (y : Fin 20) :
    b.isRowFull y.val = true ↔ ∀ c, (b.cell y c).isSome = true := by
  have hy : ¬y.val ≥ boardHeight := by simp only [boardHeight]; omega
  simp only [isRowFull, hy, if_false, Vector.all_eq_true, Vector.getElem_extract, boardWidth]
  constructor
  · intro h c
    exact h c.val (by omega)
  · intro h i hi
    exact h ⟨i, by omega⟩

theorem clearRow_cell (b : Board) (y : ℕ) (hy : y < 20) (r : Fin 20) (c : Fin 10) :
    (b.clearRow y).cell r c =
      if r.val = 0 then none
      else if r.val ≤ y then b.cell ⟨r.val - 1, Nat.lt_of_le_of_lt (Nat.sub_le _ _) r.isLt⟩ c
      else b.cell r c := by
  have hb : ¬y ≥ boardHeight := by simp only [boardHeight]; omega
  have hw : boardWidth = 10 := rfl
  have hp : y * boardWidth = y * 10 := rfl
  simp only [clearRow, hb, if_false, cell, copyWithin, Vector.getElem_ofFn, Fin.getElem_fin]
  by_cases h0 : r.val = 0
  · have htop : r.val * 10 + c.val < boardWidth := by omega
    rw [if_pos htop, if_pos h0]
  · have htop : ¬r.val * 10 + c.val < boardWidth := by omega
    simp only [htop, h0, if_false]
    by_cases hr : r.val ≤ y
    · have hin : boardWidth ≤ r.val * 10 + c.val ∧
          r.val * 10 + c.val < boardWidth + y * boardWidth := by omega
      have hidx : r.val * 10 + c.val - boardWidth = (r.val - 1) * 10 + c.val := by omega
      simp only [hin, hr, and_self, if_true, hidx]
    · have hout : ¬(boardWidth ≤ r.val * 10 + c.val ∧
          r.val * 10 + c.val < boardWidth + y * boardWidth) := by omega
      simp only [hout, hr, if_false]

end TuiTetris.CoreBoard
