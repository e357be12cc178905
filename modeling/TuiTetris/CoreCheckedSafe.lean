import Mathlib.Data.List.Perm.Subperm
import TuiTetris.CoreCheckedParts

set_option autoImplicit false

/-!
# No fault in the core

In a reachable state the active piece lies on the board and no row is full. From
there no check of any operation fails, and every loop ends.
-/
namespace TuiTetris.CoreCheckedSafe
open CoreTypes CorePieces CoreBoard CoreBoardRows CoreRng CoreScoring CoreGameState
open CoreGameStateLoops CoreGameStateEffects CoreGameStateInvariant CoreCheckedParts
open LibChecked LibTransition

/-! ## Pieces -/

structure InRange (p : Tetromino) : Prop where
  x : -3 ≤ p.x.toInt ∧ p.x.toInt ≤ 9
  y : -3 ≤ p.y.toInt ∧ p.y.toInt ≤ 19

theorem inRange_valid {p : Tetromino} {b : Board} (h : p.isValid b = true) : InRange p := by
  obtain ⟨m, hm⟩ := shape_nonempty p
  obtain ⟨r, c, hx, hy, -⟩ := isValid_cells h m hm
  obtain ⟨h1, h1', h2, h2'⟩ := getShape_offsets p.kind p.rotation m hm
  constructor <;> omega

theorem inRange_new (kind : PieceKind) : InRange (.new kind) :=
  ⟨(by decide : -3 ≤ (3 : Int8).toInt ∧ (3 : Int8).toInt ≤ 9),
    (by decide : -3 ≤ (0 : Int8).toInt ∧ (0 : Int8).toInt ≤ 19)⟩

theorem InRange.near {p : Tetromino} (h : InRange p) : Near p.x p.y := by
  obtain ⟨⟨hx, hx'⟩, hy, hy'⟩ := h
  refine ⟨?_, ?_, ?_, ?_⟩ <;> omega

theorem small_shape (p : Tetromino) : Small p.shape := small_getShape p.kind p.rotation

theorem pieceIsValid_ok {p : Tetromino} (h : InRange p) (b : Board) :
    CoreChecked.pieceIsValid p b = .ok (p.isValid b) := shapeFits_ok (small_shape p) h.near

theorem one_toInt : (1 : Int8).toInt = 1 := rfl

theorem pieceIsGrounded_ok {p : Tetromino} (h : InRange p) (b : Board) :
    CoreChecked.pieceIsGrounded p b = .ok (p.isGrounded b) := by
  obtain ⟨⟨hx, hx'⟩, hy, hy'⟩ := h
  refine anyM_ok fun m hm => ?_
  obtain ⟨h1, h1', h2, h2'⟩ := small_shape p m hm
  have hsum : (p.y + m.2).toInt = p.y.toInt + m.2.toInt := toInt_add (by omega) (by omega)
  have hone := one_toInt
  rw [addInt8_ok (by omega) (by omega), ok_bind, addInt8_ok (by omega) (by omega), ok_bind,
    addInt8_ok (by omega) (by omega), ok_bind, isValid_ok]
  rfl

/-! ## Moves -/

def ActiveInRange (s : GameState) : Prop := ∀ p ∈ s.active, InRange p

theorem isGrounded_ok {s : GameState} (h : ActiveInRange s) :
    CoreChecked.isGrounded s = .ok s.isGrounded := by
  unfold CoreChecked.isGrounded GameState.isGrounded
  cases hp : s.active with
  | none => rfl
  | some p => exact pieceIsGrounded_ok (h p hp) _

theorem addUInt8_ok {n : UInt8} (h : n < lockResetLimit) : addUInt8 n 1 = .ok (n + 1) := by
  have hlimit : lockResetLimit.toNat = 15 := rfl
  have hone : (1 : UInt8).toNat = 1 := rfl
  rw [UInt8.lt_iff_toNat_lt, hlimit] at h
  apply if_pos
  omega

theorem handleLockReset_ok {s : GameState} (h : ActiveInRange s) :
    CoreChecked.handleLockReset s = .ok s.handleLockReset := by
  unfold CoreChecked.handleLockReset GameState.handleLockReset
  rw [isGrounded_ok h, ok_bind]
  split
  · rfl
  · split
    · next hlt =>
      rw [addUInt8_ok hlt]
      rfl
    · rfl

/-- One step to the side or down. -/
def UnitStep (d : Int8) : Prop := -1 ≤ d.toInt ∧ d.toInt ≤ 1

theorem shifted_ok {p : Tetromino} (h : InRange p) (b : Board) {dx dy : Int8} (hx : UnitStep dx)
    (hy : UnitStep dy) :
    (p.shape.allM fun m => do
      CoreChecked.isValid b (← addInt8 (← addInt8 p.x m.1) dx) (← addInt8 (← addInt8 p.y m.2) dy)) =
      (.ok (p.shape.all fun m => b.isValid (p.x + m.1 + dx) (p.y + m.2 + dy)) : Checked Bool) := by
  obtain ⟨⟨h1, h2⟩, h3, h4⟩ := h
  obtain ⟨h5, h6⟩ := hx
  obtain ⟨h7, h8⟩ := hy
  refine allM_ok fun m hm => ?_
  obtain ⟨hm1, hm1', hm2, hm2'⟩ := small_shape p m hm
  have hsumx : (p.x + m.1).toInt = p.x.toInt + m.1.toInt := toInt_add (by omega) (by omega)
  have hsumy : (p.y + m.2).toInt = p.y.toInt + m.2.toInt := toInt_add (by omega) (by omega)
  rw [addInt8_ok (by omega) (by omega), ok_bind, addInt8_ok (by omega) (by omega), ok_bind,
    addInt8_ok (by omega) (by omega), ok_bind, addInt8_ok (by omega) (by omega), ok_bind, isValid_ok]

theorem tryMove_ok {s : GameState} (h : ActiveInRange s) {dx dy : Int8} (hx : UnitStep dx)
    (hy : UnitStep dy) : CoreChecked.tryMove s dx dy = .ok (s.tryMove dx dy) := by
  unfold CoreChecked.tryMove GameState.tryMove
  cases hp : s.active with
  | none => rfl
  | some p =>
    have hr := h p hp
    simp only [shifted_ok hr s.board hx hy, ok_bind]
    split
    · next hv =>
      rw [shape_shift] at hv
      have hmoved : InRange { p with x := p.x + dx, y := p.y + dy } := inRange_valid hv
      obtain ⟨⟨h1, h2⟩, h3, h4⟩ := hr
      obtain ⟨h5, h6⟩ := hx
      obtain ⟨h7, h8⟩ := hy
      rw [addInt8_ok (by omega) (by omega), ok_bind, addInt8_ok (by omega) (by omega), ok_bind,
        handleLockReset_ok]
      · rfl
      · intro q hq
        cases hq
        exact hmoved
    · rfl

theorem kicked_small {kind : PieceKind} {rotation : Rotation} {x y : Int8} {clockwise : Bool}
    {isValid : Int8 → Int8 → Bool} {r : PieceShape × Rotation × (Int8 × Int8)}
    (h : tryRotate kind rotation x y clockwise isValid = some r) :
    -2 ≤ r.2.2.1.toInt ∧ r.2.2.1.toInt ≤ 2 ∧ -2 ≤ r.2.2.2.toInt ∧ r.2.2.2.toInt ≤ 2 := by
  unfold tryRotate at h
  obtain ⟨k, hk, rfl⟩ := Option.map_eq_some_iff.mp h
  exact kick_small kind _ k (List.mem_of_find?_eq_some hk)

theorem tryRotatePiece_ok {s : GameState} (h : ActiveInRange s) (clockwise : Bool) :
    CoreChecked.tryRotatePiece s clockwise = .ok (s.tryRotate clockwise) := by
  unfold CoreChecked.tryRotatePiece GameState.tryRotate
  cases hp : s.active with
  | none => rfl
  | some p =>
    have hr := h p hp
    simp only [tryRotate_ok hr.x hr.y, ok_bind]
    split
    · rfl
    · cases hrot : tryRotate p.kind p.rotation p.x p.y clockwise s.board.isValid with
      | none => rfl
      | some r =>
        obtain ⟨shape, rot, dx, dy⟩ := r
        obtain ⟨hshape, -, hfits⟩ := tryRotate_fits hrot
        obtain ⟨h1, h2, h3, h4⟩ := kicked_small hrot
        have hturned : InRange { p with rotation := rot, x := p.x + dx, y := p.y + dy } := by
          rw [hshape] at hfits
          exact inRange_valid hfits
        obtain ⟨⟨h5, h6⟩, h7, h8⟩ := hr
        simp only at h1 h2 h3 h4 ⊢
        rw [addInt8_ok (by omega) (by omega), ok_bind, addInt8_ok (by omega) (by omega), ok_bind,
          handleLockReset_ok]
        · rfl
        · intro q hq
          cases hq
          exact hturned

/-! ## Spawns and locks -/

theorem spawnPiece_ok (s : GameState) : CoreChecked.spawnPiece s = .ok s.spawnPiece := by
  unfold CoreChecked.spawnPiece GameState.spawnPiece
  rw [peek_ok, ok_bind]
  cases s.pieceQueue.peek with
  | none => rfl
  | some kind =>
    simp only [pieceIsValid_ok (inRange_new kind), ok_bind]
    split
    · rw [draw_ok, ok_bind, peek5_ok]
      rfl
    · rfl

theorem start_ok (s : GameState) : CoreChecked.start s = .ok s.start := by
  unfold CoreChecked.start GameState.start
  split
  · rfl
  · rw [spawnPiece_ok]
    rfl

theorem newGame_ok (seed : UInt32) : CoreChecked.newGame seed = .ok (.new seed) := by
  unfold CoreChecked.newGame
  rw [newQueue_ok, ok_bind, peek5_ok]
  rfl

theorem restartWithSeed_ok (s : GameState) (seed : UInt32) :
    CoreChecked.restartWithSeed s seed = .ok (s.restartWithSeed seed) := by
  unfold CoreChecked.restartWithSeed
  rw [newGame_ok, ok_bind, start_ok]
  rfl

theorem corners_ok {p : Tetromino} (h : InRange p) (s : GameState) {corners : List (Int8 × Int8)}
    (hc : Small corners) : CoreChecked.filledCorners s p corners = .ok (s.filledCorners p corners) := by
  obtain ⟨⟨hx, hx'⟩, hy, hy'⟩ := h
  refine countM_ok fun c hmem => ?_
  obtain ⟨h1, h1', h2, h2'⟩ := hc c hmem
  rw [addInt8_ok (by omega) (by omega), ok_bind, addInt8_ok (by omega) (by omega), ok_bind, isValid_ok]
  rfl

theorem small_list {corners : List (Int8 × Int8)}
    (h : corners.all (fun m => 0 ≤ m.1.toInt ∧ m.1.toInt ≤ 3 ∧ 0 ≤ m.2.toInt ∧ m.2.toInt ≤ 3) = true) :
    Small corners := fun m hm => of_decide_eq_true (List.all_eq_true.mp h m hm)

theorem tSpinKind_ok {p : Tetromino} (h : InRange p) (s : GameState) :
    CoreChecked.tSpinKind s p = .ok (s.tSpinKind p) := by
  have hfront : Small (GameState.frontCorners p.rotation) := by
    apply small_list
    cases p.rotation <;> decide
  unfold CoreChecked.tSpinKind GameState.tSpinKind
  split
  · rfl
  · rw [corners_ok h s (small_list (by decide)), ok_bind]
    split
    · rw [corners_ok h s hfront, ok_bind]
      split <;> rfl
    · rfl

theorem lockTspin_ok {p : Tetromino} (h : InRange p) (s : GameState) (success : Bool) :
    CoreChecked.lockTspin s p success = .ok (s.lockTspin p success) := by
  unfold CoreChecked.lockTspin GameState.lockTspin
  split
  · exact tSpinKind_ok h s
  · rfl

theorem applyLineClear_ok (s : GameState) (n : ℕ) (tspin : TSpinKind) :
    CoreChecked.applyLineClear s n tspin = .ok (s.applyLineClear n tspin) := by
  by_cases h : n = 0
  · subst h
    rfl
  · unfold CoreChecked.applyLineClear GameState.applyLineClear
    have hten : (10 : UInt32) ≠ 0 := by decide
    rw [if_neg h, if_neg h]
    simp only [calculateScore_ok, ok_bind, divUInt32_ok hten]
    rfl

/-- Only rows that the piece has filled can be full after a lock. -/
theorem fullRows_subset {b : Board} {shape : PieceShape} {x y : Int8} (kind : PieceKind)
    (hopen : ∀ y, b.isRowFull y = false) (h : shapeFits b.isValid shape x y = true) :
    (b.lockPiece shape x y kind).1.fullRows ⊆ shape.map fun m => (y + m.2).toInt.toNat := by
  obtain ⟨-, hcells⟩ := lockPiece_fits b shape x y kind h
  intro r hr
  have hlt := fullRows_lt _ r hr
  have hfull := (isRowFull_iff _ ⟨r, hlt⟩).mp (List.mem_filter.mp hr).2
  have hnot := Bool.eq_false_iff.mp (hopen r)
  rw [ne_eq, isRowFull_iff b ⟨r, hlt⟩, not_forall] at hnot
  obtain ⟨c, hc⟩ := hnot
  by_cases hcov : covers shape x y ⟨r, hlt⟩ c
  · obtain ⟨m, hm, -, hy⟩ := hcov
    refine List.mem_map.mpr ⟨m, hm, ?_⟩
    simp only at hy
    omega
  · exact absurd (((hcells ⟨r, hlt⟩ c).2 hcov) ▸ hfull c) hc

theorem fullRows_nodup (b : Board) : b.fullRows.Nodup := List.nodup_range.filter _

theorem lockPiece_fullRows {b : Board} {shape : PieceShape} {x y : Int8} (kind : PieceKind)
    (hopen : ∀ y, b.isRowFull y = false) (h : shapeFits b.isValid shape x y = true) :
    (b.lockPiece shape x y kind).1.fullRows.length ≤ shape.length := by
  have hle := (List.subperm_of_subset (fullRows_nodup _) (fullRows_subset kind hopen h)).length_le
  rwa [List.length_map] at hle

theorem settleLock_ok {s : GameState} {p : Tetromino} (hv : p.isValid s.board = true)
    (hopen : ∀ y, s.board.isRowFull y = false) :
    CoreChecked.settleLock s p = .ok (s.settleLock p) := by
  have hr := inRange_valid hv
  have hrows : (s.board.lockPiece p.shape p.x p.y p.kind).1.fullRows.length ≤ 4 := by
    have h4 : p.shape.length = 4 := getShape_length _ _
    rw [← h4]
    exact lockPiece_fullRows p.kind hopen hv
  unfold CoreChecked.settleLock
  rw [lockCells_ok p.kind (small_shape p) hr.near, ok_bind]
  simp only [lockTspin_ok hr, ok_bind, clearFullRows_ok _ hrows, applyLineClear_ok, pure_ok,
    GameState.settleLock, GameState.recordLock]

theorem lockPiece_ok {s : GameState} (hi : Invariant s) :
    CoreChecked.lockPiece s = .ok s.lockPiece := by
  unfold CoreChecked.lockPiece GameState.lockPiece
  cases hp : s.active with
  | none => rfl
  | some p =>
    simp only [settleLock_ok (hi.valid p hp) hi.rowsOpen, ok_bind, spawnPiece_ok, pure_ok]
    split <;> rfl

theorem applyHold_ok (s : GameState) : CoreChecked.applyHold s = .ok s.applyHold := by
  unfold CoreChecked.applyHold GameState.applyHold
  split
  · rfl
  · cases s.active with
    | none => rfl
    | some p =>
      cases hh : s.hold with
      | none =>
        simp only [spawnPiece_ok, ok_bind]
        rfl
      | some kind =>
        simp only [pieceIsValid_ok (inRange_new kind), ok_bind]
        split <;> rfl

/-! ## Drops -/

theorem ofNat_toInt {d : ℕ} (h : d ≤ boardHeight) : (Int8.ofNat d).toInt = d := by
  have hb : boardHeight = 20 := rfl
  exact Int8.toInt_ofNat_of_lt (by omega)

theorem ofNat_toNat {d : ℕ} (h : d ≤ boardHeight) : (UInt32.ofNat d).toNat = d := by
  have hb : boardHeight = 20 := rfl
  rw [UInt32.toNat_ofNat', Nat.mod_eq_of_lt (by omega)]

theorem castInt8_ok {d : ℕ} (h : d ≤ boardHeight) : castInt8 (UInt32.ofNat d) = .ok (Int8.ofNat d) := by
  have hb : boardHeight = 20 := rfl
  unfold castInt8
  rw [ofNat_toNat h, if_pos (by omega)]

theorem canDrop_ok {p : Tetromino} (h : InRange p) (b : Board) {d : ℕ} (hd : d ≤ boardHeight) :
    (p.shape.allM fun m => do
      CoreChecked.isValid b (← addInt8 p.x m.1)
        (← addInt8 (← addInt8 (← addInt8 p.y m.2) (Int8.ofNat d)) 1)) =
      (.ok (canDrop b p d) : Checked Bool) := by
  have hb : boardHeight = 20 := rfl
  obtain ⟨⟨hx, hx'⟩, hy, hy'⟩ := h
  refine allM_ok fun m hm => ?_
  obtain ⟨h1, h1', h2, h2'⟩ := small_shape p m hm
  have hdi := ofNat_toInt hd
  have hone := one_toInt
  have hy1 : (p.y + m.2).toInt = p.y.toInt + m.2.toInt := toInt_add (by omega) (by omega)
  have hy2 : (p.y + m.2 + Int8.ofNat d).toInt = (p.y + m.2).toInt + (Int8.ofNat d).toInt :=
    toInt_add (by omega) (by omega)
  rw [addInt8_ok (by omega) (by omega), ok_bind, addInt8_ok (by omega) (by omega), ok_bind,
    addInt8_ok (by omega) (by omega), ok_bind, addInt8_ok (by omega) (by omega), ok_bind, isValid_ok]

theorem dropTurn_ok {p : Tetromino} (h : InRange p) (b : Board) {d : ℕ} (hd : d ≤ boardHeight) :
    CoreChecked.dropTurn b p (UInt32.ofNat d) =
      .ok (if canDrop b p d then .inl (UInt32.ofNat (d + 1)) else .inr (UInt32.ofNat d)) := by
  have hadd : addUInt32 (UInt32.ofNat d) 1 = .ok (UInt32.ofNat (d + 1)) := by
    have hb : boardHeight = 20 := rfl
    have hone : (1 : UInt32).toNat = 1 := rfl
    unfold addUInt32
    rw [ofNat_toNat hd, if_pos (by omega), UInt32.ofNat_add]
    rfl
  unfold CoreChecked.dropTurn
  simp only [castInt8_ok hd, ok_bind, canDrop_ok h b hd, hadd]
  split <;> rfl

theorem dropDistance_ok {p : Tetromino} (h : InRange p) (b : Board) :
    CoreChecked.dropDistance b p = .ok (UInt32.ofNat (GameState.dropDistance b p)) := by
  obtain ⟨hle, hall, hstop⟩ := dropDistance_spec b p
  refine loop_run UInt32.ofNat (n := GameState.dropDistance b p) (fun i hi => ?_) ?_
    (Nat.lt_succ_of_le hle)
  · rw [dropTurn_ok h b (by omega), hall i hi]
    rfl
  · rw [dropTurn_ok h b hle, hstop]
    rfl

theorem ghostTurn_ok {p : Tetromino} (h : InRange p) (b : Board) {d : ℕ} (hd : d ≤ boardHeight) :
    CoreChecked.ghostTurn b p (Int8.ofNat d) =
      .ok (if canDrop b p d then .inl (Int8.ofNat (d + 1)) else .inr (Int8.ofNat d)) := by
  have hadd : addInt8 (Int8.ofNat d) 1 = .ok (Int8.ofNat (d + 1)) := by
    have hb : boardHeight = 20 := rfl
    have hdi := ofNat_toInt hd
    have hone := one_toInt
    rw [addInt8_ok (by omega) (by omega), Int8.ofNat_add]
    rfl
  unfold CoreChecked.ghostTurn
  simp only [canDrop_ok h b hd, ok_bind, hadd]
  split <;> rfl

theorem ghostY_ok {s : GameState} (h : ActiveInRange s) : CoreChecked.ghostY s = .ok s.ghostY := by
  rw [ghostY_eq]
  unfold CoreChecked.ghostY
  cases hp : s.active with
  | none => rfl
  | some p =>
    have hr := h p hp
    obtain ⟨hle, hall, hstop⟩ := dropDistance_spec s.board p
    have hloop : loop (CoreChecked.ghostTurn s.board p) (boardHeight + 1) 0 =
        .ok (Int8.ofNat (GameState.dropDistance s.board p)) := by
      refine loop_run Int8.ofNat (n := GameState.dropDistance s.board p) (fun i hi => ?_) ?_
        (Nat.lt_succ_of_le hle)
      · rw [ghostTurn_ok hr s.board (by omega), hall i hi]
        rfl
      · rw [ghostTurn_ok hr s.board hle, hstop]
        rfl
    have hb : boardHeight = 20 := rfl
    have hdi := ofNat_toInt hle
    obtain ⟨-, hy, hy'⟩ := hr
    simp only [hloop, ok_bind]
    rw [addInt8_ok (by omega) (by omega)]
    rfl

theorem dropActive_ok {s : GameState} {p : Tetromino} (h : InRange p) :
    CoreChecked.dropActive s p (UInt32.ofNat (GameState.dropDistance s.board p)) =
      .ok (s.dropActive p) := by
  obtain ⟨hle, -, -⟩ := dropDistance_spec s.board p
  have hb : boardHeight = 20 := rfl
  have hdi := ofNat_toInt hle
  have hpos : UInt32.ofNat (GameState.dropDistance s.board p) > 0 ↔
      GameState.dropDistance s.board p > 0 := by
    have h0 : (0 : UInt32).toNat = 0 := rfl
    rw [gt_iff_lt, UInt32.lt_iff_toNat_lt, h0, ofNat_toNat hle]
  obtain ⟨-, hy, hy'⟩ := h
  unfold CoreChecked.dropActive GameState.dropActive
  simp only [hpos]
  split
  · rw [castInt8_ok hle, ok_bind, addInt8_ok (by omega) (by omega)]
    rfl
  · rfl

theorem activeInRange {s : GameState} (h : Invariant s) : ActiveInRange s :=
  fun p hp => inRange_valid (h.valid p hp)

theorem hardDrop_ok {s : GameState} (h : Invariant s) : CoreChecked.hardDrop s = .ok s.hardDrop := by
  unfold CoreChecked.hardDrop GameState.hardDrop
  cases hp : s.active with
  | none => rfl
  | some p =>
    have hr := activeInRange h p hp
    have hdropped : Invariant (s.dropActive p) := invariant_glides h (glides_dropActive s p hp)
    simp only [dropDistance_ok hr, ok_bind, dropActive_ok hr, lockPiece_ok hdropped]
    rfl

/-! ## Ticks -/

theorem dropIntervalMs_ok (s : GameState) : CoreChecked.dropIntervalMs s = .ok s.dropIntervalMs := by
  have hne : softDropMultiplier ≠ 0 := by decide
  unfold CoreChecked.dropIntervalMs GameState.dropIntervalMs
  rw [getDropIntervalMs_ok, ok_bind]
  simp only [divUInt32_ok hne]
  split <;> rfl

theorem unitStep_zero : UnitStep 0 := ⟨by decide, by decide⟩

theorem unitStep_one : UnitStep 1 := ⟨by decide, by decide⟩

theorem unitStep_neg : UnitStep (-1) := ⟨by decide, by decide⟩

/-- Each turn takes an interval off the timer, so the loop ends before its fuel does. -/
theorem gravityLoop_ok {interval : UInt32} (hpos : 0 < interval.toNat) (fuel : ℕ) {s : GameState}
    (h : Invariant s) (hf : s.dropTimerMs.toNat ≤ fuel) (changed : Bool) :
    loop (CoreChecked.gravityTurn interval) (fuel + 1) (s, changed) =
      .ok (GameState.gravityLoop interval fuel s changed) := by
  induction fuel generalizing s changed with
  | zero =>
    apply loop_stop
    unfold CoreChecked.gravityTurn
    rw [if_neg]
    · rfl
    · rw [ge_iff_le, UInt32.le_iff_toNat_le]
      change ¬_ ≤ s.dropTimerMs.toNat
      omega
  | succ fuel ih =>
    unfold GameState.gravityLoop
    split
    · next hge =>
      have ht : Invariant { s with dropTimerMs := s.dropTimerMs - interval } :=
        ⟨h.valid, h.rowsOpen, h.playing⟩
      have hle : interval.toNat ≤ s.dropTimerMs.toNat := UInt32.le_iff_toNat_le.mp hge
      have hturn : CoreChecked.gravityTurn interval (s, changed) =
          .ok (.inl (({ s with dropTimerMs := s.dropTimerMs - interval }.tryMove 0 1).1,
            changed || ({ s with dropTimerMs := s.dropTimerMs - interval }.tryMove 0 1).2)) := by
        unfold CoreChecked.gravityTurn
        rw [if_pos hge, subUInt32_ok hge, ok_bind, tryMove_ok (activeInRange ht) unitStep_zero unitStep_one]
        rfl
      rw [loop_next hturn]
      refine ih (invariant_glides ht (glides_tryMove _ 0 1)) ?_ _
      rw [tryMove_dropTimer]
      change (s.dropTimerMs - interval).toNat ≤ fuel
      rw [UInt32.toNat_sub_of_le _ _ hge]
      omega
    · next hlt =>
      apply loop_stop
      unfold CoreChecked.gravityTurn
      rw [if_neg hlt]
      rfl

theorem tickGravity_ok {s : GameState} (h : Invariant s) (elapsedMs : UInt32) :
    CoreChecked.tickGravity s elapsedMs = .ok (s.tickGravity elapsedMs) := by
  unfold CoreChecked.tickGravity
  rw [dropIntervalMs_ok, ok_bind]
  exact gravityLoop_ok (dropIntervalMs_pos s) _
    (s := { s with dropTimerMs := satAdd s.dropTimerMs elapsedMs }) ⟨h.valid, h.rowsOpen, h.playing⟩
    (Nat.le_refl _) false

theorem tickLockDelay_ok {s : GameState} (h : Invariant s) (elapsedMs : UInt32) (changed : Bool) :
    CoreChecked.tickLockDelay s elapsedMs changed = .ok (s.tickLockDelay elapsedMs changed) := by
  have hl : Invariant { s with lockTimerMs := 0, dropTimerMs := 0 } :=
    ⟨h.valid, h.rowsOpen, h.playing⟩
  unfold CoreChecked.tickLockDelay GameState.tickLockDelay
  rw [isGrounded_ok (activeInRange h), ok_bind]
  simp only [lockPiece_ok hl, ok_bind, pure_ok]
  split
  · split <;> rfl
  · rfl

theorem tick_ok {s : GameState} (h : Invariant s) (elapsedMs : UInt32) (softDrop : Bool) :
    CoreChecked.tick s elapsedMs softDrop = .ok (s.tick elapsedMs softDrop) := by
  unfold CoreChecked.tick GameState.tick
  split
  · rfl
  · have ht : Invariant ((s.tickCounters elapsedMs).tickLineClear elapsedMs) :=
      ⟨h.valid, h.rowsOpen, h.playing⟩
    simp only
    generalize (s.tickCounters elapsedMs).tickLineClear elapsedMs = t at ht
    split
    · rfl
    · have hsoft := invariant_glides ht (glides_tickSoftDrop t elapsedMs softDrop)
      have hfall := invariant_glides hsoft (glides_tickGravity _ elapsedMs)
      rw [tickGravity_ok hsoft, ok_bind, tickLockDelay_ok hfall]

/-! ## The public operations -/

theorem softDropStep_ok {s : GameState} (h : Invariant s) :
    CoreChecked.softDropStep s = .ok s.softDropStep := by
  unfold CoreChecked.softDropStep
  rw [tryMove_ok (activeInRange h) unitStep_zero unitStep_one]
  rfl

theorem hardDropStep_ok {s : GameState} (h : Invariant s) :
    CoreChecked.hardDropStep s = .ok s.hardDropStep := by
  have hr : Invariant { s with lastActionWasRotate := false } := ⟨h.valid, h.rowsOpen, h.playing⟩
  unfold CoreChecked.hardDropStep
  rw [hardDrop_ok hr]
  rfl

theorem applyAction_ok {s : GameState} (h : Invariant s) (a : GameAction) :
    CoreChecked.applyAction s a = .ok (s.applyAction a) := by
  have hr := activeInRange h
  unfold CoreChecked.applyAction GameState.applyAction
  split
  · rfl
  · split
    · rfl
    · cases a with
      | MoveLeft => exact tryMove_ok hr unitStep_neg unitStep_zero
      | MoveRight => exact tryMove_ok hr unitStep_one unitStep_zero
      | SoftDrop => exact softDropStep_ok h
      | HardDrop => exact hardDropStep_ok h
      | RotateCw => exact tryRotatePiece_ok hr true
      | RotateCcw => exact tryRotatePiece_ok hr false
      | Hold => exact applyHold_ok s
      | Pause => rfl
      | Restart => exact restartWithSeed_ok s _

theorem snapshot_ok {s : GameState} (h : Invariant s) :
    CoreChecked.snapshot s = .ok (CoreSnapshot.snapshot s) := by
  unfold CoreChecked.snapshot
  rw [writeU8Grid_ok, ok_bind, ghostY_ok (activeInRange h), ok_bind]
  rfl

/-- In every reachable state every further call ends without a fault, with the result of the
unchecked operation. -/
theorem core_no_fault (seed : UInt32) (ops : List Op) :
    let s := run Op.apply (GameState.new seed).start ops
    (∀ a, CoreChecked.applyAction s a = .ok (s.applyAction a)) ∧
    (∀ elapsedMs softDrop, CoreChecked.tick s elapsedMs softDrop = .ok (s.tick elapsedMs softDrop)) ∧
    (∀ seed, CoreChecked.restartWithSeed s seed = .ok (s.restartWithSeed seed)) ∧
    CoreChecked.snapshot s = .ok (CoreSnapshot.snapshot s) := by
  have h := invariant_run (invariant_start seed) ops
  exact ⟨applyAction_ok h, tick_ok h, restartWithSeed_ok _, snapshot_ok h⟩

end TuiTetris.CoreCheckedSafe
