import TuiTetris.CoreCheckedSafe
import TuiTetris.CoreTimers
import TuiTetris.SessionPlaceCorrect

set_option autoImplicit false

/-!
# The three ways down

The ghost counts rows in `i8`, the hard drop in `u32` converted to `i8`, and soft
drops move the piece one row at a time. All three stop at the same row.
-/
namespace TuiTetris.CoreDescents
open CoreTypes CorePieces CoreBoard CoreScoring CoreGameState CoreGameStateLoops
open CoreGameStateEffects CoreGameStateInvariant CoreTimers SessionPlaceCorrect LibTransition
open CoreCheckedSafe (inRange_valid ofNat_toInt)

/-- Soft drops until one is refused: `n` rows, ending in `u`. -/
inductive SoftDrops : GameState → ℕ → GameState → Prop where
  | refused {s : GameState} (h : (s.applyAction .SoftDrop).2 = false) :
    SoftDrops s 0 (s.applyAction .SoftDrop).1
  | moved {s u : GameState} {n : ℕ} (h : (s.applyAction .SoftDrop).2 = true)
      (rest : SoftDrops (s.applyAction .SoftDrop).1 n u) : SoftDrops s (n + 1) u

/-- The piece `d` rows further down. -/
def lowered (p : Tetromino) (d : ℕ) : Tetromino := { p with y := p.y + Int8.ofNat d }

theorem lowered_zero (p : Tetromino) : lowered p 0 = p := by
  unfold lowered
  change { p with y := p.y + 0 } = p
  rw [Int8.add_zero]

theorem lowered_succ (p : Tetromino) (d : ℕ) : lowered (lowered p 1) d = lowered p (d + 1) := by
  unfold lowered
  rw [Int8.ofNat_add d 1]
  congr 1
  grind

theorem canDrop_lowered (board : Board) (p : Tetromino) (d e : ℕ) :
    canDrop board (lowered p d) e = canDrop board p (d + e) := by
  unfold canDrop lowered
  rw [Int8.ofNat_add d e]
  congr 1
  funext m
  congr 1
  grind

theorem canDrop_valid {board : Board} {p : Tetromino} {d : ℕ} :
    canDrop board p d = (lowered p (d + 1)).isValid board := by
  have hs : Int8.ofNat (d + 1) = Int8.ofNat d + 1 := Int8.ofNat_add d 1
  unfold canDrop lowered Tetromino.isValid shapeFits
  rw [hs]
  congr 1
  funext m
  congr 1
  grind

/-! ## Soft drops -/

theorem applyAction_softDrop {s : GameState} (hp : s.paused = false) (hg : s.gameOver = false) :
    s.applyAction .SoftDrop = s.softDropStep := by
  simp [GameState.applyAction, hp, hg]

theorem down_room (s : GameState) (p : Tetromino) :
    (p.shape.all fun m => s.board.isValid (p.x + m.1 + 0) (p.y + m.2 + 1)) =
      canDrop s.board p 0 := by
  simp [canDrop]

theorem tryMove_blocked {s : GameState} {p : Tetromino} (hp : s.active = some p)
    (h : canDrop s.board p 0 = false) : s.tryMove 0 1 = (s, false) := by
  unfold GameState.tryMove
  simp only [hp, down_room, h, Bool.false_eq_true, if_false]

theorem tryMove_lowered {s : GameState} {p : Tetromino} (hp : s.active = some p)
    (h : canDrop s.board p 0 = true) :
    (s.tryMove 0 1).2 = true ∧ (s.tryMove 0 1).1.active = some (lowered p 1) := by
  have hok : (s.tryMove 0 1).2 = true := by
    unfold GameState.tryMove
    simp only [hp, down_room, h, if_true]
  have hx : p.x + 0 = p.x := Int8.add_zero _
  refine ⟨hok, (tryMove_active hp hok).trans ?_⟩
  rw [hx]
  rfl

theorem satAdd_succ (a : UInt32) {d : ℕ} (hd : d + 1 < 2 ^ 32) :
    satAdd (satAdd a 1) (UInt32.ofNat d) = satAdd a (UInt32.ofNat (d + 1)) := by
  have h1 : (1 : UInt32).toNat = 1 := rfl
  apply UInt32.toNat_inj.mp
  simp only [satAdd_toNat, h1, UInt32.toNat_ofNat', Nat.mod_eq_of_lt hd,
    Nat.mod_eq_of_lt (Nat.lt_of_succ_lt hd)]
  omega

/-- Soft drops go down as long as there is room and score a point for each row. -/
theorem softDrops_down {d : ℕ} {s : GameState} {p : Tetromino} (hd : d < 2 ^ 32)
    (hp : s.active = some p) (hpaused : s.paused = false) (hover : s.gameOver = false)
    (hroom : ∀ e < d, canDrop s.board p e = true) (hstop : canDrop s.board p d = false) :
    ∃ u, SoftDrops s d u ∧ u.active = some (lowered p d) ∧ u.board = s.board ∧
      u.boardId = s.boardId ∧ u.score = satAdd s.score (UInt32.ofNat d) := by
  induction d generalizing s p with
  | zero =>
    have hrefused := tryMove_blocked hp hstop
    have hstep := applyAction_softDrop hpaused hover
    have hflag : (s.applyAction .SoftDrop).2 = false := by
      rw [hstep, GameState.softDropStep, hrefused]
    refine ⟨_, .refused hflag, ?_⟩
    rw [hstep, GameState.softDropStep, hrefused, lowered_zero]
    exact ⟨hp, rfl, rfl, (satAdd_zero _).symm⟩
  | succ d ih =>
    obtain ⟨hok, hactive⟩ := tryMove_lowered hp (hroom 0 (Nat.succ_pos d))
    obtain ⟨a, t, c, r, hmoved⟩ := moved_tryMove s 0 1
    have hstep := applyAction_softDrop hpaused hover
    have hflag : (s.applyAction .SoftDrop).2 = true := by
      rw [hstep]
      exact hok
    have hnext : (s.applyAction .SoftDrop).1.active = some (lowered p 1) := by
      rw [hstep]
      exact hactive
    have hkept : (s.applyAction .SoftDrop).1.board = s.board ∧
        (s.applyAction .SoftDrop).1.boardId = s.boardId ∧
        (s.applyAction .SoftDrop).1.paused = s.paused ∧
        (s.applyAction .SoftDrop).1.gameOver = s.gameOver ∧
        (s.applyAction .SoftDrop).1.score = satAdd s.score 1 := by
      rw [hstep, GameState.softDropStep, hok, hmoved]
      exact ⟨rfl, rfl, rfl, rfl, rfl⟩
    obtain ⟨hboard, hid, hpause, hend, hscore⟩ := hkept
    have hroom' : ∀ e, canDrop (s.applyAction .SoftDrop).1.board (lowered p 1) e =
        canDrop s.board p (e + 1) := fun e => by
      rw [hboard, canDrop_lowered, Nat.add_comm]
    obtain ⟨u, hu, ha, hb, hi, hs⟩ := ih (Nat.lt_of_succ_lt hd) hnext (hpause.trans hpaused)
      (hend.trans hover) (fun e he => by rw [hroom', hroom _ (Nat.succ_lt_succ he)])
      (by rw [hroom', hstop])
    refine ⟨u, .moved hflag hu, ?_, hb.trans hboard, hi.trans hid, ?_⟩
    · rw [ha, lowered_succ]
    · rw [hs, hscore, satAdd_succ _ hd]

/-! ## The row of the ghost -/

theorem lowered_y {p : Tetromino} {board : Board} (hv : p.isValid board = true) {d : ℕ}
    (hd : d ≤ boardHeight) : (lowered p d).y.toInt = p.y.toInt + d := by
  obtain ⟨-, hy, hy'⟩ := inRange_valid hv
  have hn := ofNat_toInt hd
  have h20 : boardHeight = 20 := rfl
  change (p.y + Int8.ofNat d).toInt = _
  rw [Int8.toInt_add, hn, Int.bmod_def]
  omega

/-- Down to the row of the ghost the piece fits everywhere. -/
theorem lowered_free {p : Tetromino} {board : Board} (hv : p.isValid board = true) {d : ℕ}
    (hd : d ≤ GameState.dropDistance board p) :
    FreeAt board p.shape p.x.toInt (p.y.toInt + d) := by
  obtain ⟨hle, hroom, -⟩ := dropDistance_spec board p
  have hvalid : (lowered p d).isValid board = true := by
    cases d with
    | zero => rwa [lowered_zero]
    | succ d => rw [← canDrop_valid, hroom d hd]
  rw [← lowered_y hv (by omega)]
  exact freeAt_valid hvalid

theorem dropState_lowered {s : GameState} {p : Tetromino} (hp : s.active = some p) :
    dropState s p = { s with
      lastActionWasRotate := false, active := some (lowered p (GameState.dropDistance s.board p)) } := by
  unfold dropState GameState.dropActive
  simp only
  split
  · rfl
  · next hd =>
    have h0 : GameState.dropDistance s.board p = 0 := by omega
    rw [h0, lowered_zero, ← hp]

theorem dropScore_twice {d : ℕ} (hd : d ≤ boardHeight) :
    calculateDropScore (UInt32.ofNat d) true = UInt32.ofNat (2 * d) := by
  have h20 : boardHeight = 20 := rfl
  have h2 : (2 : UInt32).toNat = 2 := rfl
  have hn : (UInt32.ofNat d).toNat = d := by
    rw [UInt32.toNat_ofNat', Nat.mod_eq_of_lt (by omega)]
  unfold calculateDropScore satMul
  rw [if_pos rfl, hn, h2, if_pos (by omega)]
  apply UInt32.toNat_inj.mp
  rw [UInt32.toNat_mul, hn, h2, UInt32.toNat_ofNat', Nat.mul_comm]

/-- Ghost, hard drop and soft drops of the piece `p` all end in row `y`. -/
structure DescentsAgree (s : GameState) (p : Tetromino) (y : Int8) : Prop where
  ghost : s.ghostY = some y
  below : p.y.toInt ≤ y.toInt
  free : ∀ r : Int, p.y.toInt ≤ r → r ≤ y.toInt → FreeAt s.board p.shape p.x.toInt r
  blocked : ¬FreeAt s.board p.shape p.x.toInt (y.toInt + 1)
  hardDrop : s.applyAction .HardDrop =
    let v := { s with lastActionWasRotate := false, active := some { p with y } }.lockPiece
    ({ v with score := satAdd v.score (UInt32.ofNat (2 * (y.toInt - p.y.toInt).toNat)) }, true)
  filled : ∃ filled, Filled s.board p.shape p.x.toInt y.toInt p.kind filled ∧
    (s.applyAction .HardDrop).1.board = filled.clearFullRows.1
  softDrops : ∃ u, SoftDrops s (y.toInt - p.y.toInt).toNat u ∧ u.active = some { p with y } ∧
    u.board = s.board ∧ u.boardId = s.boardId ∧
    u.score = satAdd s.score (UInt32.ofNat (y.toInt - p.y.toInt).toNat)

theorem descents_step {s : GameState} {p : Tetromino} (hi : Invariant s) (hp : s.active = some p)
    (hpaused : s.paused = false) (hover : s.gameOver = false) :
    DescentsAgree s p (lowered p (GameState.dropDistance s.board p)).y := by
  have hv := hi.valid p hp
  obtain ⟨hle, hroom, hstop⟩ := dropDistance_spec s.board p
  have hacc : accepts s .HardDrop = true := by simp [accepts, hpaused, hover]
  have hy := lowered_y hv hle
  have hrows : ((lowered p (GameState.dropDistance s.board p)).y.toInt - p.y.toInt).toNat =
      GameState.dropDistance s.board p := by omega
  have h20 : boardHeight = 20 := rfl
  obtain ⟨e, -, hboard, -⟩ := hardDrop_lands hi hp hacc
  refine ⟨?_, by omega, fun r hr hr' => ?_, landed_blocked hv, ?_, ?_, ?_⟩
  · rw [ghostY_eq, hp]
    rfl
  · obtain ⟨d, rfl⟩ : ∃ d : ℕ, r = p.y.toInt + d := ⟨(r - p.y.toInt).toNat, by omega⟩
    exact lowered_free hv (by omega)
  · have hdrop : s.applyAction .HardDrop = s.hardDropStep := by
      simp [GameState.applyAction, hpaused, hover]
    rw [hdrop]
    refine Prod.ext ?_ rfl
    rw [hardDropStep_some s p hp, dropState_lowered hp, dropScore_twice hle, hrows]
    rfl
  · exact ⟨_, lockPiece_filled (landed_valid hv), hboard⟩
  · rw [hrows]
    exact softDrops_down (by omega) hp hpaused hover hroom hstop

/-- In every reachable state in play. -/
theorem descents_agree (seed : UInt32) (ops : List Op)
    (hpaused : (run Op.apply (GameState.new seed).start ops).paused = false)
    (hover : (run Op.apply (GameState.new seed).start ops).gameOver = false) :
    ∃ p y, (run Op.apply (GameState.new seed).start ops).active = some p ∧
      DescentsAgree (run Op.apply (GameState.new seed).start ops) p y := by
  have hi := invariant_run (invariant_start seed) ops
  obtain ⟨p, hp⟩ := Option.isSome_iff_exists.mp (hi.playing hover)
  exact ⟨p, _, hp, descents_step hi hp hpaused hover⟩

theorem descents_agree_first : ∃ p y, (GameState.new 1).start.active = some p ∧
    DescentsAgree (GameState.new 1).start p y :=
  descents_agree 1 [] (by decide +kernel) (by decide +kernel)

end TuiTetris.CoreDescents
