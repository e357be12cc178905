import TuiTetris.CoreChecked
import TuiTetris.CoreSevenBag

set_option autoImplicit false

/-!
# Checked board, queue and scoring

Where no check can fail, the checked function is the function itself.
-/
namespace TuiTetris.CoreCheckedParts
open CoreTypes CorePieces CoreBoard CoreBoardRows CoreRng CoreScoring CoreSevenBag LibChecked
open LibRowStack

/-! ## Board -/

theorem index_eq (x y : Int8) : CoreChecked.index x y = (Board.index x y).map Fin.val := by
  unfold CoreChecked.index Board.index
  split <;> rfl

theorem get_ok (b : Board) (x y : Int8) : CoreChecked.get b x y = .ok (b.get x y) := by
  unfold CoreChecked.get Board.get
  rw [index_eq]
  cases Board.index x y with
  | none => rfl
  | some i =>
    simp only [Option.map_some, readAt_ok _ i.isLt, ok_bind, pure_ok]
    rfl

theorem set_ok (b : Board) (x y : Int8) (cell : Cell) :
    CoreChecked.set b x y cell = .ok (b.set x y cell) := by
  unfold CoreChecked.set Board.set
  rw [index_eq]
  cases Board.index x y with
  | none => rfl
  | some i => simp only [Option.map_some, writeAt_ok _ _ i.isLt, ok_bind, pure_ok]

theorem isValid_ok (b : Board) (x y : Int8) : CoreChecked.isValid b x y = .ok (b.isValid x y) := by
  unfold CoreChecked.isValid
  rw [get_ok, ok_bind]
  rfl

theorem isRowFull_ok (b : Board) (y : ℕ) : CoreChecked.isRowFull b y = .ok (b.isRowFull y) := by
  unfold CoreChecked.isRowFull Board.isRowFull
  split
  · rfl
  · next h =>
    have hlt : y * boardWidth + boardWidth ≤ 200 := by
      simp only [boardHeight, boardWidth] at h ⊢
      omega
    rw [slice_ok _ (Nat.le_add_right _ _) hlt]
    rfl

theorem clearRow_ok (b : Board) (y : ℕ) : CoreChecked.clearRow b y = .ok (b.clearRow y) := by
  unfold CoreChecked.clearRow Board.clearRow
  split
  · rfl
  · next h =>
    have hcopy : CoreChecked.copyWithin b.cells (y * boardWidth) boardWidth =
        .ok (Board.copyWithin b.cells (y * boardWidth) boardWidth) := by
      apply if_pos
      simp only [boardHeight, boardWidth] at h ⊢
      omega
    rw [hcopy, ok_bind, foldlM_write (g := fun _ => none) (by decide)
      (fun xs i hi => writeAt_ok xs none (Nat.lt_of_lt_of_le hi (by decide)))]
    rfl

theorem fullRows_ok (b : Board) (h : b.fullRows.length ≤ 4) :
    CoreChecked.fullRows b = .ok b.fullRows := by
  refine foldlM_push (p := b.isRowFull) (fun out y => ?_) _ [] h
  rw [isRowFull_ok, ok_bind]
  rfl

theorem clearRows_ok (rows : List ℕ) (b : Board) (cleared : List ℕ)
    (h : (cleared ++ rows).length ≤ 4) :
    rows.foldlM (fun r y => do
      let b ← CoreChecked.clearRow r.1 y
      return (b, ← push 4 r.2 y)) (b, cleared) =
      (.ok (rows.foldl Board.clearRow b, cleared ++ rows) : Checked (Board × List ℕ)) := by
  induction rows generalizing b cleared with
  | nil =>
    rw [List.append_nil]
    rfl
  | cons y rows ih =>
    have hlt : cleared.length < 4 := by
      rw [List.length_append, List.length_cons] at h
      omega
    have hpush : push 4 cleared y = .ok (cleared ++ [y]) := if_pos hlt
    rw [List.foldlM_cons, clearRow_ok, ok_bind, hpush, ok_bind, pure_ok, ok_bind,
      ih _ _ (by simpa using h), List.append_assoc]
    rfl

theorem clearFullRows_ok (b : Board) (h : b.fullRows.length ≤ 4) :
    CoreChecked.clearFullRows b = .ok b.clearFullRows := by
  unfold CoreChecked.clearFullRows
  rw [fullRows_ok b h, ok_bind]
  exact clearRows_ok b.fullRows b [] h

theorem mem_fullRows (b : Board) (y : Fin 20) :
    y.val ∈ b.fullRows ↔ ∀ c, (b.cell y c).isSome = true := by
  rw [← isRowFull_iff]
  simp [Board.fullRows, boardHeight]

/-- Up to four full rows are all found, in ascending order, and removed; the other rows keep
their order under as many blank ones. -/
theorem full_rows_cleared (b : Board) (h : (rows b).countP rowFull ≤ 4) :
    ∃ cleared ys, CoreChecked.clearFullRows b = .ok (cleared, ys) ∧ ys.Pairwise (· < ·) ∧
      (∀ y ∈ ys, y < 20) ∧ (∀ y : Fin 20, y.val ∈ ys ↔ ∀ c, (b.cell y c).isSome = true) ∧
      rows cleared = List.replicate ys.length blankRow ++ (rows b).filter fun r => !rowFull r := by
  have hlen : b.fullRows.length = (rows b).countP rowFull := clearFullRows_count b
  refine ⟨_, _, clearFullRows_ok b (by omega), ?_, fullRows_lt b, mem_fullRows b, ?_⟩
  · change b.fullRows.Pairwise (· < ·)
    rw [fullRows_eq]
    exact markedRows_sorted rowFull (rows b)
  · change rows b.clearFullRows.1 = List.replicate b.fullRows.length blankRow ++ _
    rw [clearFullRows_rows, settled, hlen]

/-- Full rows next to each other and apart, between rows with holes. -/
def gappedStack : Board := ⟨Vector.ofFn fun i =>
  if i.val / 10 ∈ [14, 16, 17, 19] then some .I
  else if 120 ≤ i.val ∧ i.val % 3 = 0 then some .T else none⟩

theorem full_rows_cleared_gapped : gappedStack.fullRows = [14, 16, 17, 19] ∧ ∃ cleared ys,
    CoreChecked.clearFullRows gappedStack = .ok (cleared, ys) ∧ ys.Pairwise (· < ·) ∧
      (∀ y ∈ ys, y < 20) ∧ (∀ y : Fin 20, y.val ∈ ys ↔ ∀ c, (gappedStack.cell y c).isSome = true) ∧
      rows cleared =
        List.replicate ys.length blankRow ++ (rows gappedStack).filter fun r => !rowFull r :=
  ⟨by decide +kernel, full_rows_cleared gappedStack (by decide +kernel)⟩

/-- The minos can be added to the position without overflow. -/
def Near (x y : Int8) : Prop := -8 ≤ x.toInt ∧ x.toInt ≤ 40 ∧ -8 ≤ y.toInt ∧ y.toInt ≤ 40

def Small (shape : PieceShape) : Prop :=
  ∀ m ∈ shape, 0 ≤ m.1.toInt ∧ m.1.toInt ≤ 3 ∧ 0 ≤ m.2.toInt ∧ m.2.toInt ≤ 3

theorem small_getShape (kind : PieceKind) (rotation : Rotation) : Small (getShape kind rotation) :=
  getShape_offsets kind rotation

theorem shapeFits_ok {b : Board} {shape : PieceShape} {x y : Int8} (hs : Small shape)
    (hn : Near x y) : CoreChecked.shapeFits b shape x y = .ok (shapeFits b.isValid shape x y) := by
  obtain ⟨hx, hx', hy, hy'⟩ := hn
  refine allM_ok fun m hm => ?_
  obtain ⟨h1, h1', h2, h2'⟩ := hs m hm
  rw [addInt8_ok (by omega) (by omega), ok_bind, addInt8_ok (by omega) (by omega), ok_bind, isValid_ok]

theorem setCells_ok {shape : PieceShape} {x y : Int8} (kind : PieceKind) (hs : Small shape)
    (hn : Near x y) (b : Board) :
    CoreChecked.setCells x y kind b shape = .ok (Board.setCells x y kind b shape) := by
  obtain ⟨hx, hx', hy, hy'⟩ := hn
  induction shape generalizing b with
  | nil => rfl
  | cons m ms ih =>
    obtain ⟨h1, h1', h2, h2'⟩ := hs m List.mem_cons_self
    unfold CoreChecked.setCells Board.setCells
    rw [addInt8_ok (by omega) (by omega), ok_bind, addInt8_ok (by omega) (by omega), ok_bind, set_ok,
      ok_bind]
    simp only
    split
    · exact ih (fun n hmem => hs n (List.mem_cons_of_mem _ hmem)) _
    · rfl

theorem lockCells_ok {b : Board} {shape : PieceShape} {x y : Int8} (kind : PieceKind)
    (hs : Small shape) (hn : Near x y) :
    CoreChecked.lockCells b shape x y kind = .ok (b.lockPiece shape x y kind) := by
  unfold CoreChecked.lockCells Board.lockPiece
  rw [shapeFits_ok hs hn, ok_bind]
  split
  · exact setCells_ok kind hs hn b
  · rfl

theorem writeU8Row_ok {n : ℕ} {row : Vector Cell n} {cells : ℕ → Cell}
    (h : ∀ x < 10, row[x]? = some (cells x)) (out : Vector UInt8 10) :
    CoreChecked.writeU8Row row out = .ok (Vector.ofFn fun x => Board.cellCode (cells x.val)) := by
  refine (foldlM_write (g := fun x => Board.cellCode (cells x)) (Nat.le_refl 10) ?_ out).trans
    (congrArg Except.ok (overwritten_all _ _))
  intro xs x hx
  rw [readAt_some (h x hx), ok_bind, writeAt_ok _ _ hx]

theorem writeU8Grid_ok (b : Board) (out : Vector (Vector UInt8 10) 20) :
    CoreChecked.writeU8Grid b out = .ok b.writeU8Grid := by
  have hcell : ∀ y < 20, ∀ x < 10, b.cells[y * 10 + x]? = some ((b.cells[y * 10 + x]?).getD none) := by
    intro y hy x hx
    rw [Vector.getElem?_eq_getElem (by omega)]
    rfl
  have hgrid : (Vector.ofFn fun y : Fin 20 => Vector.ofFn fun x : Fin 10 =>
      Board.cellCode ((b.cells[y.val * 10 + x.val]?).getD none)) = b.writeU8Grid := by
    unfold Board.writeU8Grid
    congr 1
    funext y
    congr 1
    funext x
    rw [Vector.getElem?_eq_getElem (by omega)]
    rfl
  refine (foldlM_write (g := fun y => Vector.ofFn fun x : Fin 10 =>
    Board.cellCode ((b.cells[y * 10 + x.val]?).getD none)) (Nat.le_refl 20) ?_ out).trans
    (congrArg Except.ok ((overwritten_all _ _).trans hgrid))
  intro xs y hy
  have hstop : (y + 1) * boardWidth ≤ 200 := by
    simp only [boardWidth]
    omega
  have hrow : ∀ x < 10, (b.cells.extract (y * boardWidth) ((y + 1) * boardWidth))[x]? =
      some ((b.cells[y * 10 + x]?).getD none) := by
    intro x hx
    have hlt : x < min ((y + 1) * boardWidth) 200 - y * boardWidth := by
      simp only [boardWidth]
      omega
    have hin : y * 10 + x < 200 := by omega
    rw [← hcell y hy x hx, Vector.getElem?_eq_getElem hlt, Vector.getElem_extract,
      Vector.getElem?_eq_getElem hin]
    rfl
  rw [slice_ok _ (Nat.mul_le_mul_right _ (Nat.le_succ y)) hstop, ok_bind, readAt_ok _ hy, ok_bind,
    writeU8Row_ok hrow, ok_bind, writeAt_ok _ _ hy]

/-! ## Rotation -/

theorem kick_small (kind : PieceKind) (i : Fin 8) (k : Int8 × Int8) (h : k ∈ (getKickTable kind)[i]) :
    -2 ≤ k.1.toInt ∧ k.1.toInt ≤ 2 ∧ -2 ≤ k.2.toInt ∧ k.2.toInt ≤ 2 := by
  have hall : (getKickTable kind).toList.all (fun ks => ks.all fun k =>
      -2 ≤ k.1.toInt ∧ k.1.toInt ≤ 2 ∧ -2 ≤ k.2.toInt ∧ k.2.toInt ≤ 2) = true := by
    cases kind <;> decide
  have hmem : (getKickTable kind)[i] ∈ (getKickTable kind).toList := by simp
  exact of_decide_eq_true (List.all_eq_true.mp (List.all_eq_true.mp hall _ hmem) k h)

theorem tryRotate_ok {kind : PieceKind} {rotation : Rotation} {x y : Int8} {clockwise : Bool}
    {b : Board} (hx : -3 ≤ x.toInt ∧ x.toInt ≤ 9) (hy : -3 ≤ y.toInt ∧ y.toInt ≤ 19) :
    CoreChecked.tryRotate kind rotation x y clockwise b =
      .ok (tryRotate kind rotation x y clockwise b.isValid) := by
  unfold CoreChecked.tryRotate tryRotate
  rw [readAt_ok _ (getKickIndex rotation clockwise).isLt, ok_bind]
  rw [findM_ok (q := fun k => shapeFits b.isValid
    (getShape kind (if clockwise then rotation.rotateCw else rotation.rotateCcw)) (x + k.1) (y + k.2))]
  · rfl
  · intro k hk
    obtain ⟨h1, h1', h2, h2'⟩ := kick_small kind _ k hk
    rw [addInt8_ok (by omega) (by omega), ok_bind, addInt8_ok (by omega) (by omega), ok_bind]
    apply shapeFits_ok (small_getShape _ _)
    refine ⟨?_, ?_, ?_, ?_⟩ <;> rw [toInt_add (by omega) (by omega)] <;> omega

/-! ## Piece queue -/

theorem nextRange_ok (g : SimpleRng) {i : ℕ} (hi : i + 1 < 2 ^ 32) :
    CoreChecked.nextRange g (UInt32.ofNat (i + 1)) = .ok (g.nextRange (UInt32.ofNat (i + 1))) := by
  have hne : UInt32.ofNat (i + 1) ≠ 0 := by
    intro h
    have hz := congrArg UInt32.toNat h
    rw [UInt32.toNat_ofNat', Nat.mod_eq_of_lt hi] at hz
    cases hz
  unfold CoreChecked.nextRange
  rw [modUInt32_ok hne]
  rfl

theorem shuffleLoop_ok {α : Type} {n : ℕ} (hn : n < 2 ^ 32) (i : ℕ) (hi : i < n) (g : SimpleRng)
    (slice : Vector α n) :
    CoreChecked.shuffleLoop i g slice = .ok (SimpleRng.shuffleLoop hn i hi g slice) := by
  induction i generalizing g slice with
  | zero => rfl
  | succ i ih =>
    unfold CoreChecked.shuffleLoop SimpleRng.shuffleLoop
    rw [nextRange_ok g (by omega), ok_bind, swapAt_ok _ hi (SimpleRng.nextRange_lt g (i + 1) n hi hn),
      ok_bind]
    exact ih _ _ _

theorem shuffle_ok {α : Type} {n : ℕ} (hn : n < 2 ^ 32) (g : SimpleRng) (slice : Vector α n) :
    CoreChecked.shuffle g slice = .ok (g.shuffle hn slice) := by
  unfold CoreChecked.shuffle SimpleRng.shuffle
  split
  · exact shuffleLoop_ok hn _ _ g slice
  · next h =>
    obtain rfl : n = 0 := by omega
    rfl

theorem refillBag_ok (q : PieceQueue) : CoreChecked.refillBag q = .ok q.refillBag := by
  unfold CoreChecked.refillBag
  rw [shuffle_ok (by decide)]
  rfl

theorem newQueue_ok (seed : UInt32) : CoreChecked.newQueue seed = .ok (.new seed) := refillBag_ok _

theorem previewBag_ok (q : PieceQueue) : CoreChecked.previewBag q = .ok q.previewBag := by
  unfold CoreChecked.previewBag
  rw [shuffle_ok (by decide)]
  rfl

theorem peek_ok (q : PieceQueue) : CoreChecked.peek q = .ok q.peek := by
  unfold CoreChecked.peek PieceQueue.peek
  split
  · rfl
  · rw [previewBag_ok, ok_bind, readAt_ok _ (by decide)]
    rfl

theorem draw_ok (q : PieceQueue) : CoreChecked.draw q = .ok q.draw := by
  have hbag : CoreChecked.ensureBag q = .ok q.ensureBag := by
    unfold CoreChecked.ensureBag PieceQueue.ensureBag
    split
    · exact refillBag_ok q
    · rfl
  unfold CoreChecked.draw
  rw [hbag, ok_bind, readAt_ok _ q.ensureBag_index]
  rfl

/-- The entry `i` of the preview. -/
def upcoming (q : PieceQueue) (i : ℕ) : PieceKind :=
  if i < 7 - q.bagIndex then (q.bag[q.bagIndex + i]?).getD .I
  else (q.previewBag[i - (7 - q.bagIndex)]?).getD .I

theorem upcoming_current {q : PieceQueue} {i : ℕ} (h : q.bagIndex + i < 7) :
    upcoming q i = q.bag[q.bagIndex + i] := by
  unfold upcoming
  rw [if_pos (by omega), Vector.getElem?_eq_getElem h, Option.getD_some]

theorem upcoming_next {q : PieceQueue} {i : ℕ} (h : 7 - q.bagIndex ≤ i) (hi : i < 7) :
    upcoming q i = q.previewBag[i - (7 - q.bagIndex)] := by
  have hlt : i - (7 - q.bagIndex) < 7 := by omega
  unfold upcoming
  rw [if_neg (by omega), Vector.getElem?_eq_getElem hlt, Option.getD_some]

theorem peekFill_upcoming (q : PieceQueue) {i : ℕ} (hi : i < 5) :
    (q.peekFill q.peekCurrent)[i]? = some (upcoming q i) := by
  have hdrop : (q.bag.toList.drop q.bagIndex).length = 7 - q.bagIndex := by
    rw [List.length_drop, Vector.length_toList]
  have hbag : q.bagIndex + i < 7 → (q.bag.toList.drop q.bagIndex)[i]? = some (upcoming q i) := by
    intro h
    rw [upcoming_current h, List.getElem?_drop, Vector.getElem?_toList, Vector.getElem?_eq_getElem h]
  rcases Nat.lt_or_ge (7 - q.bagIndex) 5 with hlt | hge
  · rw [peekFill_preview hlt]
    by_cases h : i < 7 - q.bagIndex
    · rw [List.getElem?_append_left (by omega)]
      exact hbag (by omega)
    · have hnext : i - (7 - q.bagIndex) < 7 := by omega
      rw [List.getElem?_append_right (by omega), hdrop, List.getElem?_take_of_lt (by omega),
        upcoming_next (by omega) (by omega), Vector.getElem?_toList, Vector.getElem?_eq_getElem hnext]
  · rw [peekFill_current hge, PieceQueue.peekCurrent, List.getElem?_take_of_lt hi]
    exact hbag (by omega)

theorem peek5_upcoming (q : PieceQueue) : Vector.ofFn (fun i : Fin 5 => upcoming q i.val) = q.peek5 := by
  ext i hi
  have hl : q.peek5.toList[i]? = some (upcoming q i) := peekFill_upcoming q hi
  rw [Vector.getElem?_toList, Vector.getElem?_eq_getElem hi] at hl
  rw [Vector.getElem_ofFn]
  exact (Option.some.inj hl).symm

/-- The preview array after `i` entries. -/
def previewed (q : PieceQueue) (i : ℕ) : CoreChecked.Preview :=
  ⟨overwritten (Vector.replicate 5 .I) (upcoming q) i, i⟩

theorem copyPiece_ok {q : PieceQueue} {bag : Vector PieceKind 7} {i idx : ℕ} (hi : i < 5)
    (hidx : idx < 7) (h : upcoming q i = bag[idx]) :
    CoreChecked.copyPiece bag (previewed q i) idx = .ok (previewed q (i + 1)) := by
  unfold CoreChecked.copyPiece
  rw [readAt_ok _ hidx, ok_bind, ← h]
  change (writeAt (overwritten _ (upcoming q) i) i (upcoming q i) >>= _) = _
  rw [writeAt_ok _ _ hi, overwritten_succ]
  rfl

theorem peekCurrent_ok (q : PieceQueue) : CoreChecked.peekCurrent q (previewed q 0) =
    .ok (previewed q (min 5 (7 - q.bagIndex))) := by
  unfold CoreChecked.peekCurrent
  refine loop_run (fun i => (previewed q i, q.bagIndex + i)) (n := min 5 (7 - q.bagIndex))
    (fun i hi => ?_) ?_ (by omega)
  · have hcond : (decide ((previewed q i).outI < 5) && decide (q.bagIndex + i < 7)) = true := by
      have h5 : (previewed q i).outI < 5 := (by omega : i < 5)
      have h7 : q.bagIndex + i < 7 := by omega
      simp [h5, h7]
    simp only [hcond, if_true]
    rw [copyPiece_ok (by omega) (by omega) (upcoming_current (by omega))]
    rfl
  · have hcond : (decide ((previewed q (min 5 (7 - q.bagIndex))).outI < 5) &&
        decide (q.bagIndex + min 5 (7 - q.bagIndex) < 7)) = false := by
      have h5 : (previewed q (min 5 (7 - q.bagIndex))).outI = min 5 (7 - q.bagIndex) := rfl
      rw [h5, Bool.and_eq_false_iff, decide_eq_false_iff_not, decide_eq_false_iff_not]
      omega
    simp only [hcond, Bool.false_eq_true, if_false]
    rfl

theorem peekNext_ok {q : PieceQueue} {i : ℕ} (hi : i ≤ 5) (he : i = 7 - q.bagIndex) :
    CoreChecked.peekNext q.previewBag (previewed q i) = .ok (previewed q 5) := by
  unfold CoreChecked.peekNext
  refine loop_run (fun j => (previewed q (i + j), j)) (n := 5 - i) (fun j hj => ?_) ?_ (by omega)
  · have h5 : (previewed q (i + j)).outI < 5 := (by omega : i + j < 5)
    have hup : upcoming q (i + j) = q.previewBag[j] := by
      rw [upcoming_next (by omega) (by omega)]
      congr 1
      omega
    simp only [h5, if_true]
    rw [copyPiece_ok (by omega) (by omega) hup]
    rfl
  · have hlast : i + (5 - i) = 5 := by omega
    rw [hlast]
    rfl

theorem peek5_ok (q : PieceQueue) : CoreChecked.peek5 q = .ok q.peek5 := by
  have hinit : (⟨Vector.replicate 5 .I, 0⟩ : CoreChecked.Preview) = previewed q 0 := by
    unfold previewed
    rw [overwritten_zero]
  have hlast : (previewed q 5).out = q.peek5 := by
    rw [← peek5_upcoming]
    exact overwritten_all _ _
  unfold CoreChecked.peek5
  rw [hinit, peekCurrent_ok, ok_bind]
  have hout : (previewed q (min 5 (7 - q.bagIndex))).outI = min 5 (7 - q.bagIndex) := rfl
  rw [hout]
  split
  · next h =>
    rw [previewBag_ok, ok_bind, peekNext_ok, ok_bind, hlast]
    · rfl
    all_goals omega
  · next h =>
    have h5 : min 5 (7 - q.bagIndex) = 5 := by omega
    rw [h5, hlast]
    rfl

/-! ## Scoring -/

theorem calculateLineScore_ok (lines : ℕ) (level : UInt32) :
    CoreChecked.calculateLineScore lines level = .ok (calculateLineScore lines level) := by
  unfold CoreChecked.calculateLineScore calculateLineScore
  split
  · rfl
  · next h =>
    have hlt : lines < lineScores.length := by
      change lines < 5
      omega
    rw [readList_ok (List.getElem?_eq_getElem hlt), List.getElem?_eq_getElem hlt]
    rfl

theorem applyB2bMultiplier_ok (points : UInt32) :
    CoreChecked.applyB2bMultiplier points = .ok (applyB2bMultiplier points) :=
  divUInt32_ok (by decide)

theorem calculateScore_ok (lines : ℕ) (level : UInt32) (tspin : TSpinKind) (comboIndex : Int32)
    (previousB2b : Bool) : CoreChecked.calculateScore lines level tspin comboIndex previousB2b =
      .ok (calculateScore lines level tspin comboIndex previousB2b) := by
  have hmul : ∀ applied points, CoreChecked.multiply applied points =
      .ok (if applied then applyB2bMultiplier points else points) := by
    intro applied points
    cases applied with
    | false => rfl
    | true => exact applyB2bMultiplier_ok points
  unfold CoreChecked.calculateScore calculateScore
  cases tspin with
  | None =>
    simp only [CoreChecked.basePoints, calculateLineScore_ok, ok_bind, hmul]
    rfl
  | Mini =>
    simp only [CoreChecked.basePoints, pure_ok, ok_bind, hmul]
  | Full =>
    simp only [CoreChecked.basePoints, pure_ok, ok_bind, hmul]

theorem getDropIntervalMs_ok (level : UInt32) :
    CoreChecked.getDropIntervalMs level = .ok (getDropIntervalMs level) := by
  unfold CoreChecked.getDropIntervalMs getDropIntervalMs
  split
  · next h =>
    rw [readList_ok (List.getElem?_eq_getElem h)]
    change _ = Except.ok ((CoreChecked.intervals[level.toNat]?).getD 120)
    rw [List.getElem?_eq_getElem h]
    rfl
  · next h =>
    change _ = Except.ok ((CoreChecked.intervals[level.toNat]?).getD 120)
    rw [List.getElem?_eq_none (Nat.le_of_not_lt h)]
    rfl

end TuiTetris.CoreCheckedParts
