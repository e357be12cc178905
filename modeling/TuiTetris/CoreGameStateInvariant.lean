import TuiTetris.CoreGameStateEffects
import TuiTetris.LibTransition

set_option autoImplicit false

/-!
# The invariant of the core state

A valid active piece makes the next lock succeed, a lock clears every full row,
and a spawn is checked against the board that is left.
-/
namespace TuiTetris.CoreGameStateInvariant
open CoreTypes CorePieces CoreBoard CoreBoardRows CoreRng CoreGameState CoreGameStateEffects
open LibTransition

structure Invariant (s : GameState) : Prop where
  valid : ∀ p ∈ s.active, p.isValid s.board = true
  rowsOpen : ∀ y, s.board.isRowFull y = false
  playing : s.gameOver = false → s.active.isSome = true

theorem invariant_glides {s u : GameState} (hs : Invariant s) (h : Glides s u) : Invariant u where
  valid p hp := by
    rw [h.board]
    exact h.fits hs.valid p hp
  rowsOpen y := by
    rw [h.board]
    exact hs.rowsOpen y
  playing hg := by
    have hk := congrArg Option.isSome h.kind
    rw [Option.isSome_map, Option.isSome_map] at hk
    exact hk.trans (hs.playing (h.gameOver.symm.trans hg))

theorem invariant_spawnPiece (s : GameState) (hv : ∀ p ∈ s.active, p.isValid s.board = true)
    (ho : ∀ y, s.board.isRowFull y = false) : Invariant s.spawnPiece.1 := by
  cases h : (incoming s).isValid s.board with
  | true =>
    rw [spawnPiece_open s h]
    refine ⟨fun p hp => ?_, ho, fun _ => rfl⟩
    cases hp
    exact h
  | false =>
    rw [spawnPiece_blocked s h]
    exact ⟨hv, ho, fun hg => (nomatch hg)⟩

theorem invariant_finishHold {s : GameState} (h : Invariant s) : Invariant s.finishHold :=
  ⟨h.valid, h.rowsOpen, h.playing⟩

theorem invariant_applyHold {s : GameState} (hs : Invariant s) (p : Tetromino)
    (hp : s.active = some p) (hc : s.canHold = true) : Invariant s.applyHold.1 := by
  cases hh : s.hold with
  | none =>
    rw [applyHold_empty s p hp hc hh]
    exact invariant_finishHold (invariant_spawnPiece _ hs.valid hs.rowsOpen)
  | some k =>
    rw [applyHold_swap s p k hp hc hh]
    cases hv : (Tetromino.new k).isValid s.board with
    | true =>
      have hi : Invariant (swapHold s p k) := by
        refine ⟨fun q hq => ?_, hs.rowsOpen, fun _ => rfl⟩
        cases hq
        exact hv
      exact invariant_finishHold hi
    | false => exact ⟨fun q hq => (nomatch hq), hs.rowsOpen, fun hg => (nomatch hg)⟩

theorem invariant_lockPiece {s : GameState} (p : Tetromino) (hp : s.active = some p)
    (hg : s.gameOver = false) : Invariant s.lockPiece := by
  rw [lockPiece_eq s p hp hg]
  apply invariant_spawnPiece
  · rw [(settles_settleLock s p).active]
    intro q hq
    cases hq
  · rw [settleLock_board]
    exact clearFullRows_open _

theorem new_rowsOpen (y : ℕ) : Board.new.isRowFull y = false := by
  by_cases hy : y < 20
  · apply Bool.eq_false_iff.mpr
    rw [ne_eq, isRowFull_iff Board.new ⟨y, hy⟩]
    intro h
    have h0 := h 0
    rw [new_cell] at h0
    cases h0
  · simp [Board.isRowFull, show y ≥ boardHeight by simpa [boardHeight] using hy]

/-- A fresh game waiting for its first spawn; `episodeId` is what a restart carries over. -/
def freshState (seed episodeId : UInt32) : GameState :=
  { GameState.new seed with episodeId := episodeId, started := true }

theorem start_eq (s : GameState) (h : s.started = false) :
    s.start = { s with started := true }.spawnPiece.1 := by
  unfold GameState.start
  rw [if_neg (Bool.eq_false_iff.mp h)]

theorem start_new (seed : UInt32) : (GameState.new seed).start = (freshState seed 0).spawnPiece.1 :=
  start_eq (GameState.new seed) rfl

theorem restartWithSeed_eq (s : GameState) (seed : UInt32) :
    (s.restartWithSeed seed).1 = (freshState seed (s.episodeId + 1)).spawnPiece.1 :=
  start_eq { GameState.new seed with episodeId := s.episodeId + 1 } rfl

/-- An operation that restarts leaves a fresh game. -/
theorem restarts_fresh (s : GameState) {op : Op} (hr : op.restarts = true) :
    ∃ seed, op.apply s = (freshState seed (s.episodeId + 1)).spawnPiece.1 := by
  have he := effect s op
  have hm : op.marks s = [.restart] := by
    unfold Op.marks
    rw [hr, if_pos rfl]
  rw [hm] at he
  generalize op.apply s = u at he ⊢
  cases he with
  | restarted seed => exact ⟨seed, restartWithSeed_eq s seed⟩

theorem invariant_fresh (seed episodeId : UInt32) :
    Invariant (freshState seed episodeId).spawnPiece.1 := by
  have hb : (freshState seed episodeId).board = Board.new := rfl
  have ha : (freshState seed episodeId).active = none := rfl
  apply invariant_spawnPiece
  · intro p hp
    rw [ha] at hp
    cases hp
  · rw [hb]
    exact new_rowsOpen

theorem invariant_effect {s u : GameState} {op : Op} {marks : List Mark} (hs : Invariant s)
    (h : Effect s op marks u) : Invariant u := by
  cases h with
  | glide h => exact invariant_glides hs h
  | taken => exact ⟨hs.valid, hs.rowsOpen, hs.playing⟩
  | held p ho ha hp hc => exact invariant_applyHold hs p hp hc
  | locked p e score h hp hg =>
    have hl := invariant_lockPiece p hp (h.gameOver.trans hg)
    exact ⟨hl.valid, hl.rowsOpen, hl.playing⟩
  | restarted seed hr =>
    rw [restartWithSeed_eq]
    exact invariant_fresh seed _

theorem invariant_run {s : GameState} (hs : Invariant s) (ops : List Op) :
    Invariant (run Op.apply s ops) :=
  run_invariant (I := Invariant) (fun s op h => invariant_effect h (effect s op)) hs ops

theorem invariant_start (seed : UInt32) : Invariant (GameState.new seed).start := by
  rw [start_new]
  exact invariant_fresh seed 0

theorem isValid_cells {p : Tetromino} {b : Board} (h : p.isValid b = true) (m : MinoOffset)
    (hm : m ∈ p.shape) : ∃ (r : Fin 20) (c : Fin 10),
      p.x.toInt + m.1.toInt = c.val ∧ p.y.toInt + m.2.toInt = r.val ∧ b.cell r c = none := by
  obtain ⟨r, c, hx, hy, hc⟩ := (shapeFits_iff b p.shape p.x p.y).mp h m hm
  have hm' := getShape_offsets p.kind p.rotation m hm
  have hxl := p.x.le_toInt
  have hyl := p.y.le_toInt
  have hxu := p.x.toInt_lt
  have hyu := p.y.toInt_lt
  rw [Int8.toInt_add, Int.bmod_def] at hx hy
  refine ⟨r, c, ?_, ?_, hc⟩ <;> omega

/-- In every reachable state an active piece lies on four empty cells of the board, no row is
filled, and a game that is not over has an active piece. -/
theorem core_invariant (seed : UInt32) (ops : List Op) :
    let s := run Op.apply (GameState.new seed).start ops
    (∀ p, s.active = some p → p.shape.length = 4 ∧ p.shape.Nodup ∧
      ∀ m ∈ p.shape, ∃ (r : Fin 20) (c : Fin 10),
        p.x.toInt + m.1.toInt = c.val ∧ p.y.toInt + m.2.toInt = r.val ∧ s.board.cell r c = none) ∧
    (∀ r : Fin 20, ∃ c : Fin 10, s.board.cell r c = none) ∧
    (s.gameOver = false → ∃ p, s.active = some p) := by
  have h := invariant_run (invariant_start seed) ops
  refine ⟨fun p hp => ?_, fun r => ?_, fun hg => Option.isSome_iff_exists.mp (h.playing hg)⟩
  · exact ⟨getShape_length _ _, getShape_nodup _ _, isValid_cells (h.valid p hp)⟩
  · have ho := Bool.eq_false_iff.mp (h.rowsOpen r.val)
    rw [ne_eq, isRowFull_iff] at ho
    rw [not_forall] at ho
    obtain ⟨c, hc⟩ := ho
    exact ⟨c, by simpa using hc⟩

end TuiTetris.CoreGameStateInvariant
