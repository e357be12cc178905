import Mathlib.Data.List.OfFn
import TuiTetris.CorePieceAccounting

set_option autoImplicit false

/-!
# Cells, lines and board ids

A lock adds four cells and a cleared row takes ten away, so the filled cells of
the board can be computed from the numbers of locks and lines.
-/
namespace TuiTetris.CoreCellConservation
open CoreTypes CorePieces CoreBoard CoreBoardRows CoreRng CoreGameState CoreGameStateEffects
open CoreGameStateInvariant CorePieceAccounting LibRowStack LibTransition

def filledCells (b : Board) : ℕ := b.cells.toList.countP Option.isSome

/-! ## The board -/

theorem set_filled {b : Board} {x y : Int8} (kind : PieceKind) (h : b.isValid x y = true) :
    filledCells (b.set x y (some kind)).1 = filledCells b + 1 := by
  obtain ⟨r, c, hx, hy, hc⟩ := (isValid_iff b x y).mp h
  have hi : Board.index x y = some ⟨r.val * 10 + c.val, by omega⟩ :=
    index_eq_some.mpr ⟨r, c, hx, hy, rfl⟩
  have hlt : r.val * 10 + c.val < b.cells.toList.length := by
    rw [Vector.length_toList]
    omega
  have hnone : b.cells.toList[r.val * 10 + c.val] = none := by
    rw [Vector.getElem_toList]
    exact hc
  simp only [Board.set, hi, filledCells]
  rw [Vector.toList_set, List.countP_set hlt, hnone]
  rfl

theorem set_valid_other {b : Board} {x y x' y' : Int8} (v : Cell) (h : b.isValid x y = true)
    (h' : b.isValid x' y' = true) (hne : (x', y') ≠ (x, y)) :
    (b.set x y v).1.isValid x' y' = true := by
  obtain ⟨r, c, hx, hy, -⟩ := (isValid_iff b x y).mp h
  obtain ⟨r', c', hx', hy', hc'⟩ := (isValid_iff b x' y').mp h'
  refine (isValid_iff _ _ _).mpr ⟨r', c', hx', hy', ?_⟩
  rw [(set_cell b v hx hy).2, if_neg]
  · exact hc'
  · rintro ⟨rfl, rfl⟩
    have hxx : x' = x := Int8.toInt_inj.mp (hx'.trans hx.symm)
    have hyy : y' = y := Int8.toInt_inj.mp (hy'.trans hy.symm)
    exact hne (by rw [hxx, hyy])

theorem setCells_filled (kind : PieceKind) (x y : Int8) (shape : PieceShape) (b : Board)
    (hn : shape.Nodup) (h : ∀ m ∈ shape, b.isValid (x + m.1) (y + m.2) = true) :
    filledCells (Board.setCells x y kind b shape).1 = filledCells b + shape.length := by
  induction shape generalizing b with
  | nil => rfl
  | cons m ms ih =>
    obtain ⟨hm, hms⟩ := List.nodup_cons.mp hn
    have hv := h m List.mem_cons_self
    obtain ⟨r, c, hx, hy, -⟩ := (isValid_iff b _ _).mp hv
    have hrest : ∀ n ∈ ms, (b.set (x + m.1) (y + m.2) (some kind)).1.isValid (x + n.1) (y + n.2) =
        true := by
      intro n hmem
      refine set_valid_other _ hv (h n (List.mem_cons_of_mem _ hmem)) fun he => hm ?_
      have h1 : n.1 = m.1 := by grind
      have h2 : n.2 = m.2 := by grind
      rwa [← Prod.ext h1 h2]
    simp only [Board.setCells, (set_cell b (some kind) hx hy).1, if_true]
    rw [ih _ hms hrest, set_filled kind hv, List.length_cons]
    omega

/-- A lock that fits adds one filled cell for each mino. -/
theorem lockPiece_filled {b : Board} {shape : PieceShape} {x y : Int8} (kind : PieceKind)
    (hn : shape.Nodup) (h : shapeFits b.isValid shape x y = true) :
    filledCells (b.lockPiece shape x y kind).1 = filledCells b + shape.length := by
  simp only [Board.lockPiece, h, if_true]
  exact setCells_filled kind x y shape b hn (List.all_eq_true.mp h)

theorem block_lt {m n : ℕ} (i : Fin m) (j : Fin n) : i.val * n + j.val < m * n := by
  have hi : (i.val + 1) * n ≤ m * n := Nat.mul_le_mul_right n i.isLt
  rw [Nat.add_mul, Nat.one_mul] at hi
  omega

theorem toList_blocks {α : Type} {m n : ℕ} (v : Vector α (m * n)) :
    v.toList = (List.ofFn fun i : Fin m => List.ofFn fun j : Fin n =>
      v.get ⟨i.val * n + j.val, block_lt i j⟩).flatten := by
  have h : v.toList = List.ofFn v.get := by
    apply List.ext_getElem
    · rw [List.length_ofFn, Vector.length_toList]
    · intro i h1 h2
      rw [List.getElem_ofFn, Vector.getElem_toList]
      rfl
  rw [h, List.ofFn_mul]

theorem toList_rows (b : Board) : b.cells.toList = (rows b).flatten :=
  toList_blocks (m := 20) (n := 10) b.cells

theorem filledCells_rows (b : Board) :
    filledCells b = ((rows b).map (List.countP Option.isSome)).sum := by
  rw [filledCells, toList_rows, List.countP_flatten]

theorem full_weight (b : Board) : (((rows b).filter rowFull).map (List.countP Option.isSome)).sum =
    10 * (rows b).countP rowFull := by
  have hten : ∀ r ∈ (rows b).filter rowFull, r.countP Option.isSome = 10 := by
    intro r hr
    obtain ⟨hmem, hfull⟩ := List.mem_filter.mp hr
    obtain ⟨y, rfl⟩ := List.mem_ofFn.mp hmem
    rw [List.countP_eq_length.mpr (List.all_eq_true.mp hfull)]
    exact List.length_ofFn
  rw [List.map_congr_left hten, List.map_const', List.sum_replicate_nat,
    List.countP_eq_length_filter, Nat.mul_comm]

/-- Every row that is counted takes ten filled cells away. -/
theorem clearFullRows_filled (b : Board) :
    filledCells b.clearFullRows.1 + 10 * b.clearFullRows.2.length = filledCells b := by
  have h := settled_sum rowFull blankRow (List.countP Option.isSome) (rows b)
  have hb : blankRow.countP Option.isSome = 0 := rfl
  rw [full_weight, hb, Nat.mul_zero] at h
  rw [clearFullRows_count, filledCells_rows, filledCells_rows, clearFullRows_rows]
  omega

theorem new_filled : filledCells Board.new = 0 := by
  unfold filledCells Board.new
  rw [Vector.toList_replicate, List.countP_replicate]
  rfl

/-! ## Locks -/

theorem spawnPiece_lines (s : GameState) : s.spawnPiece.1.lines = s.lines := by
  cases h : (incoming s).isValid s.board with
  | true =>
    rw [spawnPiece_open s h]
    rfl
  | false => rw [spawnPiece_blocked s h]

theorem recordLock_lines (s : GameState) (n : ℕ) (tspin : TSpinKind) :
    (s.recordLock n tspin).lines = satAdd s.lines (UInt32.ofNat n) := by
  unfold GameState.recordLock GameState.applyLineClear
  split
  · next h =>
    subst h
    exact (satAdd_zero s.lines).symm
  · rfl

theorem applyHold_lines {s : GameState} (p : Tetromino) (hp : s.active = some p)
    (hc : s.canHold = true) : s.applyHold.1.lines = s.lines := by
  cases hh : s.hold with
  | none =>
    rw [applyHold_empty s p hp hc hh]
    exact spawnPiece_lines { s with hold := some p.kind }
  | some k =>
    rw [applyHold_swap s p k hp hc hh]
    split <;> rfl

/-- What a lock of `p` does to the board and its counters. -/
structure LocksCells (s u : GameState) (p : Tetromino) : Prop where
  success : (s.board.lockPiece p.shape p.x p.y p.kind).2 = true
  four : filledCells (s.board.lockPiece p.shape p.x p.y p.kind).1 = filledCells s.board + 4
  board : u.board = (s.board.lockPiece p.shape p.x p.y p.kind).1.clearFullRows.1
  removed : filledCells u.board +
    10 * (s.board.lockPiece p.shape p.x p.y p.kind).1.clearFullRows.2.length =
      filledCells (s.board.lockPiece p.shape p.x p.y p.kind).1
  boardId : u.boardId = s.boardId + 1
  lines : u.lines = satAdd s.lines (UInt32.ofNat
    (s.board.lockPiece p.shape p.x p.y p.kind).1.clearFullRows.2.length)

theorem LocksCells.congr {s s' u u' : GameState} {p : Tetromino} (h : LocksCells s u p)
    (hb : s.board = s'.board) (hi : s.boardId = s'.boardId) (hl : s.lines = s'.lines)
    (hb' : u'.board = u.board) (hi' : u'.boardId = u.boardId) (hl' : u'.lines = u.lines) :
    LocksCells s' u' p := by
  refine ⟨?_, ?_, ?_, ?_, ?_, ?_⟩
  · rw [← hb]
    exact h.success
  · rw [← hb]
    exact h.four
  · rw [hb', ← hb]
    exact h.board
  · rw [hb', ← hb]
    exact h.removed
  · rw [hi', ← hi]
    exact h.boardId
  · rw [hl', ← hb, ← hl]
    exact h.lines

theorem locksCells_lockPiece {s : GameState} {p : Tetromino} (hp : s.active = some p)
    (hg : s.gameOver = false) (hv : p.isValid s.board = true) : LocksCells s s.lockPiece p := by
  have hs := spawns_spawnPiece (s.settleLock p)
  have hb := hs.board.trans (settleLock_board s p)
  rw [lockPiece_eq s p hp hg]
  refine ⟨(lockPiece_fits _ _ _ _ _ hv).1, ?_, hb, ?_, ?_, ?_⟩
  · have hfour : p.shape.length = 4 := getShape_length _ _
    have hn : p.shape.Nodup := getShape_nodup _ _
    rw [lockPiece_filled p.kind hn hv, hfour]
  · rw [hb]
    exact clearFullRows_filled _
  · rw [hs.boardId, settleLock_boardId s p hv]
  · rw [spawnPiece_lines]
    exact recordLock_lines _ _ _

/-- An operation that neither restarts nor locks leaves board and counters alone. -/
theorem untouched_effect {s u : GameState} {op : Op} (hr : op.restarts = false)
    (h : Effect s op [] u) : u.board = s.board ∧ u.boardId = s.boardId ∧ u.lines = s.lines := by
  generalize hm : ([] : List Mark) = marks at h
  cases h with
  | glide h => exact ⟨h.board, h.boardId, h.lines⟩
  | taken ho => exact ⟨rfl, rfl, rfl⟩
  | held p ho ha hp hc =>
    have hl := applyHold_lines p hp hc
    cases hh : s.hold with
    | none =>
      have hw := spawns_spawnPiece { s with hold := some p.kind }
      rw [applyHold_empty s p hp hc hh] at hl ⊢
      exact ⟨hw.board, hw.boardId, hl⟩
    | some k =>
      rw [applyHold_swap s p k hp hc hh] at hl ⊢
      split <;> exact ⟨rfl, rfl, rfl⟩
  | locked p e score h hp hg he => cases hm
  | restarted seed hr' =>
    rw [hr] at hr'
    cases hr'

/-- The operation locks `p`: it calls `lock_piece` with `p` active, and only the score may still
change after that call. -/
structure Locks (s : GameState) (op : Op) (p : Tetromino) : Prop where
  locking : ∃ v score, op.lockingState s = some v ∧ v.active = some p ∧
    op.apply s = { v.lockPiece with score := score }
  mark : ∃ e, op.marks s = [.lock p.kind e]
  cells : LocksCells s (op.apply s) p

/-- The operation does not call `lock_piece`, and leaves board and counters alone. -/
structure Spares (s : GameState) (op : Op) : Prop where
  locking : op.lockingState s = none
  marks : op.marks s = []
  board : (op.apply s).board = s.board
  boardId : (op.apply s).boardId = s.boardId
  lines : (op.apply s).lines = s.lines

theorem locks_of_locking {s v : GameState} {op : Op} (hs : Invariant s)
    (hv : op.lockingState s = some v) : ∃ p, Locks s op p := by
  obtain ⟨p, score, hglide, hp, hg, hu⟩ := lockingState_spec hv
  have hgv := hglide.gameOver.trans hg
  have hk := locksCells_lockPiece hp hgv ((invariant_glides hs hglide).valid p hp)
  obtain ⟨e, -, hm⟩ := lockMark_active hp hgv
  refine ⟨p, ⟨v, score, hv, hp, hu⟩, ⟨e, ?_⟩, ?_⟩
  · rw [marks_locking hv, hm]
    rfl
  · rw [hu]
    exact hk.congr hglide.board hglide.boardId hglide.lines rfl rfl rfl

/-- An operation that is no restart locks one piece or leaves board and counters alone. -/
theorem spares_or_locks {s : GameState} (hs : Invariant s) {op : Op} (hr : op.restarts = false) :
    Spares s op ∨ ∃ p, Locks s op p := by
  cases hl : op.lockingState s with
  | none =>
    have hm := marks_unlocked hr hl
    have he := effect s op
    rw [hm] at he
    obtain ⟨hb, hid, hlines⟩ := untouched_effect hr he
    exact .inl ⟨hl, hm, hb, hid, hlines⟩
  | some v => exact .inr (locks_of_locking hs hl)

/-! ## Runs -/

/-- The numbers of locks and lines account for the cells. -/
structure Conserved (g : GameState × Ledger) : Prop where
  invariant : Invariant g.1
  boardId : g.1.boardId = UInt32.ofNat g.2.locked.length
  cells : g.2.locked.length < 2 ^ 32 →
    filledCells g.1.board + 10 * g.1.lines.toNat = 4 * g.2.locked.length

theorem LocksCells.cells {s u : GameState} {p : Tetromino} {n : ℕ} (h : LocksCells s u p)
    (hn : n < 2 ^ 32) (hc : filledCells s.board + 10 * s.lines.toNat = 4 * n) :
    filledCells u.board + 10 * u.lines.toNat = 4 * (n + 1) := by
  have hremoved := h.removed
  rw [h.four] at hremoved
  rw [h.lines, satAdd_toNat, UInt32.toNat_ofNat']
  generalize (s.board.lockPiece p.shape p.x p.y p.kind).1.clearFullRows.2.length = k at hremoved ⊢
  rw [Nat.mod_eq_of_lt (by omega), Nat.min_eq_left (by omega)]
  omega

theorem conserved_empty {s : GameState} {l : Ledger} (hs : Invariant s) (hl : l.locked = [])
    (hid : s.boardId = 0) (hlines : s.lines = 0) (hb : s.board = Board.new) :
    Conserved (s, l) := by
  refine ⟨hs, ?_, fun _ => ?_⟩
  · rw [hl]
    exact hid
  · simp only [hlines, hb, hl, new_filled]
    rfl

theorem conserved_fresh (seed episodeId : UInt32) (l : Ledger) (hl : l.locked = []) :
    Conserved ((freshState seed episodeId).spawnPiece.1, l) := by
  have hs := spawns_spawnPiece (freshState seed episodeId)
  exact conserved_empty (invariant_fresh seed episodeId) hl hs.boardId (spawnPiece_lines _) hs.board

theorem conserved_record {g : GameState × Ledger} (hg : Conserved g) (op : Op) :
    Conserved (record g op) := by
  have he := effect g.1 op
  unfold record
  cases hr : op.restarts with
  | true =>
    obtain ⟨seed, hu⟩ := restarts_fresh g.1 hr
    simp only [if_true, hu]
    exact conserved_fresh seed _ _ rfl
  | false =>
    simp only [Bool.false_eq_true, if_false]
    have hi := invariant_effect hg.invariant he
    rcases spares_or_locks hg.invariant hr with hop | ⟨p, hop⟩
    · rw [hop.marks]
      change Conserved (_, ⟨_, g.2.locked ++ []⟩)
      rw [List.append_nil]
      refine ⟨hi, hop.boardId.trans hg.boardId, fun h => ?_⟩
      rw [hop.board, hop.lines]
      exact hg.cells h
    · obtain ⟨e, hm⟩ := hop.mark
      have hlock := hop.cells
      rw [hm]
      change Conserved (_, ⟨_, g.2.locked ++ [p.kind]⟩)
      refine ⟨hi, ?_, fun h => ?_⟩
      · rw [hlock.boardId, hg.boardId]
        exact ofNat_length_succ _ _
      · have hlen : (g.2.locked ++ [p.kind]).length = g.2.locked.length + 1 := by
          rw [List.length_append, List.length_singleton]
        change (g.2.locked ++ [p.kind]).length < 2 ^ 32 at h
        change _ = 4 * (g.2.locked ++ [p.kind]).length
        rw [hlen] at h ⊢
        exact hlock.cells (by omega) (hg.cells (by omega))

theorem conserved_run (seed : UInt32) (ops : List Op) :
    Conserved (run record (openingState seed) ops) := by
  refine run_invariant (I := Conserved) (fun _ op hg => conserved_record hg op) ?_ ops
  unfold openingState
  rw [start_new]
  exact conserved_fresh seed 0 _ rfl

/-- The cells of the board follow from the counters, and only an operation that reaches
`lock_piece` changes either. -/
def CellsConserved (s : GameState) : Prop :=
  filledCells s.board + 10 * s.lines.toNat = 4 * s.boardId.toNat ∧
  ∀ op : Op, op.restarts = false → Spares s op ∨ ∃ p, Locks s op p

/-- In every state of an episode of fewer than `2 ^ 32` locks. -/
theorem cells_conserved (seed : UInt32) (ops : List Op)
    (h : (run record (openingState seed) ops).2.locked.length < 2 ^ 32) :
    CellsConserved (run record (openingState seed) ops).1 := by
  have hc := conserved_run seed ops
  refine ⟨?_, fun op hr => spares_or_locks hc.invariant hr⟩
  rw [hc.boardId, UInt32.toNat_ofNat', Nat.mod_eq_of_lt h]
  exact hc.cells h

theorem cells_conserved_drop :
    CellsConserved (run record (openingState 1) [.action .HardDrop]).1 :=
  cells_conserved 1 [.action .HardDrop] (by decide +kernel)

end TuiTetris.CoreCellConservation
