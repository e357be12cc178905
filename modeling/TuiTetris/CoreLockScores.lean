import TuiTetris.CoreBackToBack
import TuiTetris.CoreCheckedSafe

set_option autoImplicit false

/-!
# Points of a clear

The score functions give 0 for a combination they do not know. A lock never
hands them one: three full rows take an upright T, and its front corners are
then in full rows too.
-/
namespace TuiTetris.CoreLockScores
open CoreTypes CorePieces CoreBoard CoreBoardRows CoreScoring CoreGameState CoreGameStateEffects
open CoreGameStateInvariant CoreBackToBack CoreCheckedSafe LibTransition

/-- The tables of the rules, for a lock that clears lines. -/
def documentedScore : TSpinKind → ℕ → Option ℕ
  | .None, 1 => some 40
  | .None, 2 => some 100
  | .None, 3 => some 300
  | .None, 4 => some 1200
  | .Full, 1 => some 800
  | .Full, 2 => some 1200
  | .Full, 3 => some 1600
  | .Mini, 1 => some 200
  | .Mini, 2 => some 400
  | _, _ => none

/-- What the rules award: the base by the level, and half as much again for back-to-back. -/
def documentedPoints (base level : ℕ) (b2b : Bool) : ℕ :=
  if b2b then base * (level + 1) * 3 / 2 else base * (level + 1)

/-- The products of the award fit the width of the score. -/
def Fits (base level : ℕ) (b2b : Bool) : Prop :=
  base * (level + 1) * (if b2b then 3 else 1) < 2 ^ 32

/-! ## The tables -/

theorem documentedScore_range {tspin : TSpinKind} {n base : ℕ}
    (h : documentedScore tspin n = some base) : n ≤ 4 ∧ 0 < base ∧ base < 2 ^ 32 := by
  unfold documentedScore at h
  split at h <;> simp_all <;> omega

/-- The score functions hold the documented base of every entry. -/
theorem basePoints_documented {tspin : TSpinKind} {n base : ℕ}
    (h : documentedScore tspin n = some base) (level : UInt32) :
    basePoints n level tspin = satMul (UInt32.ofNat base) (satAdd level 1) := by
  unfold documentedScore at h
  split at h <;> cases h <;> rfl

theorem points_pos {points : UInt32} (h : 0 < points.toNat) (b2b : Bool) :
    0 < (if b2b then applyB2bMultiplier points else points).toNat := by
  cases b2b with
  | false => exact h
  | true =>
    have h3 : b2bNumerator.toNat = 3 := rfl
    have h2 : b2bDenominator.toNat = 2 := rfl
    simp only [if_true, applyB2bMultiplier, UInt32.toNat_div, satMul_toNat, h3, h2]
    omega

theorem basePoints_pos {base : ℕ} (h0 : 0 < base) (h : base < 2 ^ 32) (level : UInt32) :
    0 < (satMul (UInt32.ofNat base) (satAdd level 1)).toNat := by
  have h1 : (1 : UInt32).toNat = 1 := rfl
  rw [satMul_toNat, satAdd_toNat, UInt32.toNat_ofNat', Nat.mod_eq_of_lt h, h1]
  have hpos : 0 < base * min (level.toNat + 1) 4294967295 := Nat.mul_pos h0 (by omega)
  omega

/-- Where the products fit, no operation on the way to the award saturates. -/
theorem points_fit {base : ℕ} (h0 : 0 < base) (h : base < 2 ^ 32) {level : UInt32} {b2b : Bool}
    (hfit : Fits base level.toNat b2b) :
    (if b2b then applyB2bMultiplier (satMul (UInt32.ofNat base) (satAdd level 1))
      else satMul (UInt32.ofNat base) (satAdd level 1)).toNat =
      documentedPoints base level.toNat b2b := by
  have h1 : (1 : UInt32).toNat = 1 := rfl
  have hprod : base * (level.toNat + 1) < 2 ^ 32 := by
    refine Nat.lt_of_le_of_lt (Nat.le_mul_of_pos_right _ ?_) hfit
    split <;> decide
  have hlevel : level.toNat + 1 < 2 ^ 32 := Nat.lt_of_le_of_lt (Nat.le_mul_of_pos_left _ h0) hprod
  have hsat : (satAdd level 1).toNat = level.toNat + 1 := by
    rw [satAdd_toNat, h1]
    omega
  have hbase : (satMul (UInt32.ofNat base) (satAdd level 1)).toNat = base * (level.toNat + 1) := by
    rw [satMul_toNat, hsat, UInt32.toNat_ofNat', Nat.mod_eq_of_lt h]
    omega
  cases b2b with
  | false => exact hbase
  | true =>
    have h3 : b2bNumerator.toNat = 3 := rfl
    have h2 : b2bDenominator.toNat = 2 := rfl
    simp only [Fits, if_true] at hfit
    simp only [if_true, applyB2bMultiplier, documentedPoints, UInt32.toNat_div, satMul_toNat, hbase,
      h3, h2]
    omega

/-! ## The rows and corners of a T -/

/-- Rows of the box that a T has cells in. -/
def tRows : Rotation → List Int8
  | .North => [0, 1]
  | .South => [1, 2]
  | .East | .West => [0, 1, 2]

theorem getTShape_rows (rotation : Rotation) :
    (getTShape rotation).map Prod.snd ⊆ tRows rotation := by
  cases rotation <;> decide

theorem fullRows_T {s : GameState} {p : Tetromino} (hv : p.isValid s.board = true)
    (hopen : ∀ y, s.board.isRowFull y = false) (hT : p.kind = .T) :
    (lockedState s p).board.fullRows ⊆
      (tRows p.rotation).map fun dy => (p.y + dy).toInt.toNat := by
  refine List.Subset.trans (fullRows_subset p.kind hopen hv) ?_
  intro r hr
  obtain ⟨m, hm, rfl⟩ := List.mem_map.mp hr
  have hshape : p.shape = getTShape p.rotation := by
    unfold Tetromino.shape
    rw [hT]
    rfl
  rw [hshape] at hm
  exact List.mem_map_of_mem (getTShape_rows p.rotation (List.mem_map_of_mem hm))

theorem lockLines_T {s : GameState} {p : Tetromino} (hv : p.isValid s.board = true)
    (hopen : ∀ y, s.board.isRowFull y = false) (hT : p.kind = .T) :
    lockLines s p ≤ (tRows p.rotation).length := by
  have hle := (List.subperm_of_subset (fullRows_nodup _) (fullRows_T hv hopen hT)).length_le
  rwa [List.length_map] at hle

/-- Where as many rows are full as the T has, each of its rows is. -/
theorem fullRows_all {s : GameState} {p : Tetromino} (hv : p.isValid s.board = true)
    (hopen : ∀ y, s.board.isRowFull y = false) (hT : p.kind = .T)
    (h : (tRows p.rotation).length ≤ lockLines s p) {dy : Int8} (hdy : dy ∈ tRows p.rotation) :
    (p.y + dy).toInt.toNat ∈ (lockedState s p).board.fullRows := by
  have hsub := List.subperm_of_subset (fullRows_nodup _) (fullRows_T hv hopen hT)
  rw [← List.length_map] at h
  exact (hsub.perm_of_length_le h).symm.subset (List.mem_map_of_mem hdy)

/-- A place in a full row is taken or off the board. -/
theorem fullRow_blocked {b : Board} {y : Int8} (h : y.toInt.toNat ∈ b.fullRows) (x : Int8) :
    b.isValid x y = false := by
  apply Bool.eq_false_iff.mpr
  intro hv
  obtain ⟨r, c, -, hy, hc⟩ := (isValid_iff b x y).mp hv
  have hr : y.toInt.toNat = r.val := by omega
  have hfull := (isRowFull_iff b r).mp (hr ▸ (List.mem_filter.mp h).2) c
  rw [hc] at hfull
  cases hfull

theorem filledCorners_all {s : GameState} {p : Tetromino} {corners : List (Int8 × Int8)}
    (h : ∀ c ∈ corners, (p.y + c.2).toInt.toNat ∈ s.board.fullRows) :
    s.filledCorners p corners = corners.length := by
  unfold GameState.filledCorners
  rw [List.filter_eq_self.mpr fun c hc => by rw [fullRow_blocked (h c hc)]; rfl]

theorem frontCorners_rows {rotation : Rotation} (h : 3 ≤ (tRows rotation).length) :
    ∀ c ∈ GameState.frontCorners rotation, c.2 ∈ tRows rotation := by
  cases rotation <;> first | exact absurd h (by decide) | simp [GameState.frontCorners, tRows]

/-- With three full rows the T stands upright, and both front corners are filled. -/
theorem frontCorners_filled {s : GameState} {p : Tetromino} (hv : p.isValid s.board = true)
    (hopen : ∀ y, s.board.isRowFull y = false) (hT : p.kind = .T) (h : 3 ≤ lockLines s p) :
    (lockedState s p).filledCorners p (GameState.frontCorners p.rotation) = 2 := by
  have hle := lockLines_T hv hopen hT
  have hall : (tRows p.rotation).length ≤ lockLines s p := by
    refine Nat.le_trans ?_ h
    cases p.rotation <;> decide
  rw [filledCorners_all fun c hc =>
    fullRows_all hv hopen hT hall (frontCorners_rows (Nat.le_trans h hle) c hc)]
  cases p.rotation <;> rfl

/-! ## One lock -/

theorem tSpinKind_front {s : GameState} {p : Tetromino}
    (h : s.filledCorners p (GameState.frontCorners p.rotation) = 2) : s.tSpinKind p ≠ .Mini := by
  unfold GameState.tSpinKind
  rw [h]
  split
  · nofun
  · split <;> nofun

theorem lockLines_le {s : GameState} {p : Tetromino} (hv : p.isValid s.board = true)
    (hopen : ∀ y, s.board.isRowFull y = false) : lockLines s p ≤ 4 := by
  have h4 : p.shape.length = 4 := getShape_length _ _
  rw [← h4]
  exact lockPiece_fullRows p.kind hopen hv

theorem lockTspinKind_T {s : GameState} {p : Tetromino} (h : lockTspinKind s p ≠ .None) :
    p.kind = .T := by
  by_contra hT
  apply h
  simp [lockTspinKind, GameState.lockTspin, hT]

/-- No lock clears more than four lines, none with a T-spin more than three, and none with a Mini
more than two. -/
theorem lockLines_tspin {s : GameState} {p : Tetromino} (hv : p.isValid s.board = true)
    (hopen : ∀ y, s.board.isRowFull y = false) :
    (lockTspinKind s p ≠ .None → lockLines s p ≤ 3) ∧ (lockTspinKind s p = .Mini → lockLines s p ≤ 2) := by
  have hthree : lockTspinKind s p ≠ .None → lockLines s p ≤ 3 := by
    intro h
    refine Nat.le_trans (lockLines_T hv hopen (lockTspinKind_T h)) ?_
    cases p.rotation <;> decide
  refine ⟨hthree, fun hm => ?_⟩
  have hT : p.kind = .T := lockTspinKind_T (by rw [hm]; nofun)
  by_contra hlines
  have hfront := frontCorners_filled hv hopen hT (by omega)
  have hkind : lockTspinKind s p = (lockedState s p).tSpinKind p := by
    have hlock := (lockPiece_fits s.board p.shape p.x p.y p.kind hv).1
    rw [lockTspinKind, hlock]
    simp [GameState.lockTspin, hT]
  exact tSpinKind_front hfront (hkind ▸ hm)

theorem documentedScore_some {tspin : TSpinKind} {n : ℕ} (h0 : 0 < n) (h4 : n ≤ 4)
    (h3 : tspin ≠ .None → n ≤ 3) (h2 : tspin = .Mini → n ≤ 2) :
    ∃ base, documentedScore tspin n = some base := by
  have hn : n = 1 ∨ n = 2 ∨ n = 3 ∨ n = 4 := by omega
  rcases hn with rfl | rfl | rfl | rfl <;> cases tspin <;> simp_all [documentedScore]

/-- The combination that a clear finds has an entry in the tables. -/
theorem clear_documented {s : GameState} {p : Tetromino} (hv : p.isValid s.board = true)
    (hopen : ∀ y, s.board.isRowFull y = false) (h : 0 < lockLines s p) :
    ∃ base, documentedScore (lockTspinKind s p) (lockLines s p) = some base := by
  obtain ⟨h3, h2⟩ := lockLines_tspin hv hopen
  exact documentedScore_some h (lockLines_le hv hopen) h3 h2

/-! ## Runs -/

/-- The event of an operation that locks is the one its record was made from. -/
theorem lockRecord_event {s v : GameState} {op : Op} {p : Tetromino}
    (h : op.lockingState s = some v) (hp : v.active = some p) :
    ∃ event, (op.apply s).lastEvent = some event ∧
      event.linesCleared = UInt32.ofNat (lockLines v p) ∧
      event.tspin = GameState.reportedTspin (lockLines v p) (lockTspinKind v p) ∧
      event.lineClearScore = (lockRecord v p).score := by
  obtain ⟨q, score, hglide, hq, hg, hu⟩ := lockingState_spec h
  have hlast : (op.apply s).lastEvent = (v.settleLock p).lastEvent := by
    rw [hu]
    change v.lockPiece.lastEvent = _
    rw [lockPiece_eq v p hp (hglide.gameOver.trans hg)]
    exact (spawns_spawnPiece _).lastEvent
  rw [hlast]
  exact ⟨_, rfl, rfl, rfl, rfl⟩

/-- The score of a documented clear is positive, and the documented award where that fits. -/
theorem lockRecord_documented {s : GameState} {p : Tetromino} {base : ℕ}
    (h : documentedScore (lockTspinKind s p) (lockLines s p) = some base)
    (hlines : 0 < lockLines s p) :
    0 < (lockRecord s p).score.toNat ∧
      (Fits base s.level.toNat (lockRecord s p).multiplied →
        (lockRecord s p).score.toNat =
          documentedPoints base s.level.toNat (lockRecord s p).multiplied) := by
  obtain ⟨-, h0, hlt⟩ := documentedScore_range h
  have hbase : (lockRecord s p).base = satMul (UInt32.ofNat base) (satAdd s.level 1) :=
    basePoints_documented h s.level
  rw [lockRecord_score s p hlines, hbase]
  exact ⟨points_pos (basePoints_pos h0 hlt s.level) _, points_fit h0 hlt⟩

/-- Every lock of a run that clears lines finds an entry in the tables and scores it. -/
theorem clears_scored (seed : UInt32) (ops : List Op) (op : Op) (r : LockRecord)
    (hr : r ∈ lockRecords (run Op.apply (GameState.new seed).start ops) op) (hclear : 0 < r.lines) :
    let s := run Op.apply (GameState.new seed).start ops
    ∃ base event, documentedScore r.tspin r.lines = some base ∧ r.lines ≤ 4 ∧
      (op.apply s).lastEvent = some event ∧ event.linesCleared = UInt32.ofNat r.lines ∧
      event.tspin = GameState.reportedTspin r.lines r.tspin ∧ 0 < event.lineClearScore.toNat ∧
      (Fits base s.level.toNat (r.qualifies && s.backToBack) →
        event.lineClearScore.toNat =
          documentedPoints base s.level.toNat (r.qualifies && s.backToBack)) := by
  intro s
  have hi : Invariant s := invariant_run (invariant_start seed) ops
  obtain ⟨v, hv, hmem⟩ := Option.bind_eq_some_iff.mp (Option.mem_toList.mp hr)
  obtain ⟨p, hp, rfl⟩ := Option.map_eq_some_iff.mp hmem
  obtain ⟨-, -, hglide, -, -, -⟩ := lockingState_spec hv
  have hiv := invariant_glides hi hglide
  obtain ⟨base, hbase⟩ := clear_documented (hiv.valid p hp) hiv.rowsOpen hclear
  obtain ⟨event, hlast, hcount, htspin, hscore⟩ := lockRecord_event hv hp
  obtain ⟨hpos, hfit⟩ := lockRecord_documented hbase hclear
  rw [hglide.level, lockRecord_multiplied, hglide.backToBack, ← hscore] at hfit
  exact ⟨base, event, hbase, lockLines_le (hiv.valid p hp) hiv.rowsOpen, hlast, hcount, htspin,
    hscore ▸ hpos, hfit⟩

/-- An I, an L and a T side by side on the floor. -/
def flatRow : List Op := dropAt [] 3 0 ++ dropAt [] 0 1 ++ List.replicate 4 (.action .MoveRight)

theorem clears_scored_flat :
    let s := run Op.apply (GameState.new 11).start flatRow
    ∃ base event, documentedScore .None 1 = some base ∧ 1 ≤ 4 ∧
      ((Op.action .HardDrop).apply s).lastEvent = some event ∧ event.linesCleared = UInt32.ofNat 1 ∧
      event.tspin = GameState.reportedTspin 1 .None ∧ 0 < event.lineClearScore.toNat ∧
      (Fits base s.level.toNat (qualifiesForB2b .None 1 && s.backToBack) →
        event.lineClearScore.toNat =
          documentedPoints base s.level.toNat (qualifiesForB2b .None 1 && s.backToBack)) :=
  clears_scored 11 flatRow (.action .HardDrop)
    { lines := 1, tspin := .None, base := 40, multiplied := false, score := 40 }
    (by decide +kernel) (by decide)

end TuiTetris.CoreLockScores
