import TuiTetris.CoreBoard
import TuiTetris.LibRowStack

set_option autoImplicit false

/-!
# Line clears and locks on the board

`clear_full_rows` computes the full rows first and removes them one at a time;
the row view shows that the board left is the non-full rows in their order.
-/
namespace TuiTetris.CoreBoardRows
open CoreTypes CorePieces CoreBoard LibRowStack

def row (b : Board) (r : Fin 20) : List Cell := List.ofFn fun c => b.cell r c

def rows (b : Board) : List (List Cell) := List.ofFn fun r => row b r

def rowFull (cells : List Cell) : Bool := cells.all Option.isSome

def blankRow : List Cell := List.replicate 10 none

@[simp] theorem rows_length (b : Board) : (rows b).length = 20 := List.length_ofFn

theorem blankRow_open : rowFull blankRow = false := rfl

theorem rows_getElem (b : Board) (y : ℕ) (h : y < (rows b).length) :
    (rows b)[y] = row b ⟨y, by simpa using h⟩ := by
  simp only [rows, List.getElem_ofFn]

theorem rowFull_row (b : Board) (r : Fin 20) : rowFull (row b r) = b.isRowFull r.val := by
  apply Bool.eq_iff_iff.mpr
  rw [isRowFull_iff]
  simp only [rowFull, row, List.all_eq_true, List.mem_ofFn, forall_exists_index,
    forall_apply_eq_imp_iff]

theorem row_clearRow (b : Board) (y : ℕ) (hy : y < 20) (r : Fin 20) :
    row (b.clearRow y) r =
      if r.val = 0 then blankRow
      else if r.val ≤ y then row b ⟨r.val - 1, Nat.lt_of_le_of_lt (Nat.sub_le _ _) r.isLt⟩
      else row b r := by
  have hc := clearRow_cell b y hy r
  split_ifs with h0 hr
  · simp only [row, hc, h0, if_true]
    rfl
  · simp only [row, hc, h0, hr, if_true, if_false]
  · simp only [row, hc, h0, hr, if_false]

theorem rows_clearRow (b : Board) (y : ℕ) (hy : y < 20) :
    rows (b.clearRow y) = dropRow blankRow (rows b) y := by
  apply List.ext_getElem
  · rw [dropRow, List.length_cons, List.length_eraseIdx_of_lt (by simpa using hy)]
    simp
  · intro i hi hi'
    have hi20 : i < 20 := by simpa using hi
    rw [rows_getElem, row_clearRow b y hy]
    cases i with
    | zero => rfl
    | succ i =>
      simp only [dropRow, List.getElem_cons_succ, List.getElem_eraseIdx]
      by_cases h : i < y
      · have hle : i + 1 ≤ y := h
        simp [h, hle, rows_getElem]
      · have hle : ¬i + 1 ≤ y := h
        simp [h, hle, rows_getElem]

theorem fullRows_eq (b : Board) : b.fullRows = markedRows rowFull (rows b) := by
  have hl : (rows b).length = boardHeight := rows_length b
  unfold Board.fullRows markedRows
  rw [hl]
  apply List.filter_congr
  intro y hy
  have hlt : y < 20 := List.mem_range.mp hy
  have hg : (rows b)[y]? = some (row b ⟨y, hlt⟩) := by
    rw [List.getElem?_eq_getElem (by simpa using hlt), rows_getElem]
  simp [marked, hg, rowFull_row]

theorem rows_foldl (ys : List ℕ) (h : ∀ y ∈ ys, y < 20) (b : Board) :
    rows (ys.foldl Board.clearRow b) = ys.foldl (dropRow blankRow) (rows b) := by
  induction ys generalizing b with
  | nil => rfl
  | cons y ys ih =>
    rw [List.foldl_cons, List.foldl_cons, ih (fun z hz => h z (List.mem_cons_of_mem _ hz)),
      rows_clearRow b y (h y List.mem_cons_self)]

theorem fullRows_lt (b : Board) (y : ℕ) (h : y ∈ b.fullRows) : y < 20 :=
  List.mem_range.mp (List.mem_filter.mp h).1

/-- The board after `clear_full_rows`: as many blank rows as were full, then the other rows. -/
theorem clearFullRows_rows (b : Board) :
    rows b.clearFullRows.1 = settled rowFull blankRow (rows b) := by
  rw [Board.clearFullRows, rows_foldl _ (fullRows_lt b), fullRows_eq]
  exact foldl_dropRow rowFull blankRow (rows b)

theorem clearFullRows_count (b : Board) :
    b.clearFullRows.2.length = (rows b).countP rowFull := by
  rw [Board.clearFullRows, fullRows_eq, markedRows_length]

theorem clearFullRows_open (b : Board) (y : ℕ) : b.clearFullRows.1.isRowFull y = false := by
  by_cases hy : y < 20
  · have hmem : row b.clearFullRows.1 ⟨y, hy⟩ ∈ rows b.clearFullRows.1 :=
      List.mem_ofFn.mpr ⟨⟨y, hy⟩, rfl⟩
    rw [clearFullRows_rows] at hmem
    have h := settled_unmarked rowFull blankRow (rows b) blankRow_open _ hmem
    rwa [rowFull_row] at h
  · simp [Board.isRowFull, show y ≥ boardHeight by simpa [boardHeight] using hy]

def covers (shape : PieceShape) (x y : Int8) (r : Fin 20) (c : Fin 10) : Prop :=
  ∃ m ∈ shape, (x + m.1).toInt = c.val ∧ (y + m.2).toInt = r.val

theorem setCells_spec (kind : PieceKind) (x y : Int8) (shape : PieceShape) (b : Board)
    (h : ∀ m ∈ shape, ∃ (r : Fin 20) (c : Fin 10),
      (x + m.1).toInt = c.val ∧ (y + m.2).toInt = r.val) :
    (Board.setCells x y kind b shape).2 = true ∧
    ∀ r c, (covers shape x y r c → (Board.setCells x y kind b shape).1.cell r c = some kind) ∧
      (¬covers shape x y r c → (Board.setCells x y kind b shape).1.cell r c = b.cell r c) := by
  induction shape generalizing b with
  | nil =>
    refine ⟨rfl, fun r c => ⟨?_, fun _ => rfl⟩⟩
    rintro ⟨m, hm, -⟩
    cases hm
  | cons m ms ih =>
    obtain ⟨r₀, c₀, hx, hy⟩ := h m List.mem_cons_self
    obtain ⟨hok, hcell⟩ := set_cell b (some kind) hx hy
    obtain ⟨hok', hrest⟩ := ih (b.set (x + m.1) (y + m.2) (some kind)).1
      (fun n hn => h n (List.mem_cons_of_mem _ hn))
    simp only [Board.setCells, hok, if_true]
    refine ⟨hok', fun r c => ?_⟩
    obtain ⟨hin, hout⟩ := hrest r c
    by_cases hms : covers ms x y r c
    · refine ⟨fun _ => hin hms, fun hn => absurd ?_ hn⟩
      obtain ⟨n, hn, hpos⟩ := hms
      exact ⟨n, List.mem_cons_of_mem _ hn, hpos⟩
    · rw [hout hms, hcell]
      constructor
      · rintro ⟨n, hn, hnx, hny⟩
        rcases List.mem_cons.mp hn with rfl | hn
        · rw [if_pos]
          constructor <;> omega
        · exact absurd ⟨n, hn, hnx, hny⟩ hms
      · intro hn
        rw [if_neg]
        rintro ⟨rfl, rfl⟩
        exact hn ⟨m, List.mem_cons_self, hx, hy⟩

theorem shapeFits_iff (b : Board) (shape : PieceShape) (x y : Int8) :
    shapeFits b.isValid shape x y = true ↔ ∀ m ∈ shape, ∃ (r : Fin 20) (c : Fin 10),
      (x + m.1).toInt = c.val ∧ (y + m.2).toInt = r.val ∧ b.cell r c = none := by
  simp only [shapeFits, List.all_eq_true, isValid_iff]

/-- A lock that fits succeeds, fills exactly the covered cells and keeps the others. -/
theorem lockPiece_fits (b : Board) (shape : PieceShape) (x y : Int8) (kind : PieceKind)
    (h : shapeFits b.isValid shape x y = true) :
    (b.lockPiece shape x y kind).2 = true ∧
    ∀ r c, (covers shape x y r c → b.cell r c = none ∧
        (b.lockPiece shape x y kind).1.cell r c = some kind) ∧
      (¬covers shape x y r c → (b.lockPiece shape x y kind).1.cell r c = b.cell r c) := by
  have hv := (shapeFits_iff b shape x y).mp h
  simp only [Board.lockPiece, h, if_true]
  obtain ⟨hok, hcells⟩ := setCells_spec kind x y shape b fun m hm => by
    obtain ⟨r, c, hx, hy, -⟩ := hv m hm
    exact ⟨r, c, hx, hy⟩
  refine ⟨hok, fun r c => ⟨fun hc => ⟨?_, (hcells r c).1 hc⟩, (hcells r c).2⟩⟩
  obtain ⟨m, hm, hx, hy⟩ := hc
  obtain ⟨r', c', hx', hy', hnone⟩ := hv m hm
  have hr : r' = r := by omega
  have hc : c' = c := by omega
  rwa [hr, hc] at hnone

end TuiTetris.CoreBoardRows
