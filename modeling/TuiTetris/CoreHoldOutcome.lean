import TuiTetris.CoreSevenBag

set_option autoImplicit false

/-!
# What a hold does

The swap and the first hold change several fields before they know whether the
new piece fits. A held piece that does not fit ends the game; so does a piece
from the queue, but that hold still reports success.
-/
namespace TuiTetris.CoreHoldOutcome
open CoreTypes CoreBoard CoreRng CoreGameState CoreGameStateEffects CoreGameStateInvariant
open CoreSevenBag LibTransition

/-- The ways an available hold can go. -/
inductive HoldEffect (s : GameState) (p : Tetromino) : GameState × Bool → Prop where
  | swapped (k : PieceKind) (hh : s.hold = some k) (hv : (Tetromino.new k).isValid s.board = true) :
    HoldEffect s p ((swapHold s p k).finishHold, true)
  | toppedOut (k : PieceKind) (hh : s.hold = some k)
      (hv : (Tetromino.new k).isValid s.board = false) :
    HoldEffect s p ({ swapHold s p k with gameOver := true, active := none }, false)
  | drawn (hh : s.hold = none) (hv : (incoming s).isValid s.board = true) :
    HoldEffect s p ((GameState.installPiece { s with hold := some p.kind } (incoming s)
      s.pieceQueue.draw.2).finishHold, true)
  | blocked (hh : s.hold = none) (hv : (incoming s).isValid s.board = false) :
    HoldEffect s p (GameState.finishHold { s with hold := some p.kind, gameOver := true }, true)

theorem holdEffect {s : GameState} {p : Tetromino} (hp : s.active = some p) (hc : s.canHold = true) :
    HoldEffect s p s.applyHold := by
  cases hh : s.hold with
  | some k =>
    rw [applyHold_swap s p k hp hc hh]
    split
    · next hv => exact .swapped k hh hv
    · next hv => exact .toppedOut k hh (by simpa using hv)
  | none =>
    rw [applyHold_empty s p hp hc hh]
    cases hv : (incoming s).isValid s.board with
    | true =>
      rw [spawnPiece_open { s with hold := some p.kind } hv]
      exact .drawn hh hv
    | false =>
      rw [spawnPiece_blocked { s with hold := some p.kind } hv]
      exact .blocked hh hv

/-- The piece that a hold brings into play. -/
def heldPiece (s : GameState) : Tetromino := .new (s.hold.getD (s.nextQueue.get ⟨0, preview_pos⟩))

theorem heldPiece_some {s : GameState} {k : PieceKind} (h : s.hold = some k) :
    heldPiece s = .new k := by
  simp [heldPiece, h]

theorem heldPiece_none {s : GameState} (h : s.hold = none) (hq : s.nextQueue = s.pieceQueue.peek5) :
    heldPiece s = incoming s := by
  have hhead := (peek5_head s.pieceQueue).trans (peek_eq_draw s.pieceQueue)
  unfold heldPiece incoming
  rw [h, hq, Option.getD_none]
  exact congrArg Tetromino.new (Option.some.inj hhead)

theorem applyAction_hold {s : GameState} (hp : s.paused = false) (hg : s.gameOver = false) :
    s.applyAction .Hold = s.applyHold := by
  simp [GameState.applyAction, hp, hg]

theorem applyHold_unavailable {s : GameState} (h : s.canHold = false) : s.applyHold = (s, false) := by
  simp [GameState.applyHold, h]

/-- A hold that succeeds, with a piece that fits where nothing was held, brings that piece into
play; one that fails was not available, or the held piece does not fit and the game is over. -/
def HoldOutcome (s : GameState) : Prop :=
  let r := s.applyAction .Hold
  ∃ p, s.active = some p ∧
    (r.2 = true → (s.hold = none → (heldPiece s).isValid s.board = true) →
      r.1.gameOver = false ∧ r.1.active = some (heldPiece s) ∧ r.1.hold = some p.kind ∧
        r.1.canHold = false) ∧
    (r.2 = false → (s.canHold = false ∧ r.1 = s) ∨
      (s.canHold = true ∧ s.hold.isSome = true ∧ (heldPiece s).isValid s.board = false ∧
        r.1 = { s with
          active := none, hold := some p.kind, activeId := s.activeId + 1, stepInPiece := 0,
          gameOver := true }))

theorem holdOutcome_step {s : GameState} (hi : Invariant s) (hq : s.nextQueue = s.pieceQueue.peek5)
    (hpaused : s.paused = false) (hover : s.gameOver = false) : HoldOutcome s := by
  obtain ⟨p, hp⟩ := Option.isSome_iff_exists.mp (hi.playing hover)
  refine ⟨p, hp, ?_⟩
  rw [applyAction_hold hpaused hover]
  rcases Bool.eq_false_or_eq_true s.canHold with hc | hc
  · have heffect := holdEffect hp hc
    generalize s.applyHold = r at heffect
    cases heffect with
    | swapped k hh hv =>
      have hk := heldPiece_some hh
      exact ⟨fun _ _ => ⟨hover, congrArg some hk.symm, rfl, rfl⟩, fun h => (nomatch h)⟩
    | toppedOut k hh hv =>
      rw [heldPiece_some hh]
      exact ⟨fun h => (nomatch h), fun _ => .inr ⟨hc, by simp [hh], hv, rfl⟩⟩
    | drawn hh hv =>
      have hk := heldPiece_none hh hq
      exact ⟨fun _ _ => ⟨hover, congrArg some hk.symm, rfl, rfl⟩, fun h => (nomatch h)⟩
    | blocked hh hv =>
      rw [heldPiece_none hh hq]
      exact ⟨fun _ hfits => absurd ((hfits hh).symm.trans hv) (by decide), fun h => (nomatch h)⟩
  · rw [applyHold_unavailable hc]
    exact ⟨fun h => (nomatch h), fun _ => .inl ⟨hc, rfl⟩⟩

theorem hold_outcome (seed : UInt32) (ops : List Op)
    (hpaused : (run Op.apply (GameState.new seed).start ops).paused = false)
    (hover : (run Op.apply (GameState.new seed).start ops).gameOver = false) :
    HoldOutcome (run Op.apply (GameState.new seed).start ops) :=
  holdOutcome_step (invariant_run (invariant_start seed) ops) (nextQueue_run seed ops) hpaused hover

/-- The first hold, and a lock after which the held piece can come back. -/
def swapRun : List Op := [.action .Hold, .action .HardDrop]

theorem swapRun_swaps : ∃ s, run Op.apply (GameState.new 1).start swapRun = s ∧
    (!s.paused && !s.gameOver && s.hold.isSome && (s.applyAction .Hold).2) = true :=
  ⟨_, rfl, by decide +kernel⟩

theorem hold_outcome_swap : ∃ s, run Op.apply (GameState.new 1).start swapRun = s ∧
    s.hold.isSome = true ∧ (s.applyAction .Hold).2 = true ∧ HoldOutcome s := by
  obtain ⟨s, rfl, hfacts⟩ := swapRun_swaps
  simp only [Bool.and_eq_true, Bool.not_eq_true'] at hfacts
  obtain ⟨⟨⟨hpaused, hover⟩, hheld⟩, hswap⟩ := hfacts
  exact ⟨_, rfl, hheld, hswap, hold_outcome 1 swapRun hpaused hover⟩

/-- A successful hold replaces the piece in play, a failed one changes nothing. -/
def HoldPostcondition (s : GameState) : Prop :=
  let r := s.applyAction .Hold
  (r.2 = true → r.1.gameOver = false ∧ r.1.active = some (heldPiece s) ∧
    r.1.hold = s.active.map Tetromino.kind ∧ r.1.canHold = false) ∧
  (r.2 = false → r.1 = s)

/-- The held piece no longer fits under the stack that the drops have built. -/
theorem blockedSwap_changes : ¬∀ (seed : UInt32) (ops : List Op),
    (run Op.apply (GameState.new seed).start ops).paused = false →
    (run Op.apply (GameState.new seed).start ops).gameOver = false →
    HoldPostcondition (run Op.apply (GameState.new seed).start ops) := by
  intro h
  have hrun := h 57 (.action .Hold :: List.replicate 10 (.action .HardDrop))
  have hfacts : ∃ s, run Op.apply (GameState.new 57).start
      (.action .Hold :: List.replicate 10 (.action .HardDrop)) = s ∧
      (!s.paused && !s.gameOver && !(s.applyAction .Hold).2 && (s.applyAction .Hold).1.gameOver) =
        true := ⟨_, rfl, by decide +kernel⟩
  obtain ⟨s, hs, hfacts⟩ := hfacts
  rw [hs] at hrun
  simp only [Bool.and_eq_true, Bool.not_eq_true'] at hfacts
  obtain ⟨⟨⟨hpaused, hover⟩, hfail⟩, hend⟩ := hfacts
  rw [(hrun hpaused hover).2 hfail, hover] at hend
  cases hend

end TuiTetris.CoreHoldOutcome
