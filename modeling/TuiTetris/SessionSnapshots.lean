import TuiTetris.SessionMarks

set_option autoImplicit false

/-!
# When the cached snapshot is the snapshot of the game

The cache copies the board when `board_id` changes. A restart sets `board_id` to
zero and locks count it up again, so a step with a restart can end on the number
it started with; the cache then keeps the board of the episode before.
-/
namespace TuiTetris.SessionSnapshots
open CoreTypes CoreBoard CoreGameState CoreGameStateEffects CoreSnapshot LibArrayVec
open SessionEngine SessionMarks LibTransition

/-- The step restarts and then locks as many pieces as `board_id` counted before it. Without a
lock this is harmless on a board that was empty already. -/
def collides (game : GameState) (input : StepInput) : Bool :=
  let t := tally (stepMarks game input)
  t.1 && UInt32.ofNat t.2 == game.boardId && !(t.2 == 0 && game.board == Board.new)

structure Coherent (s : SessionRuntime) : Prop where
  boardId : s.snapshots.boardId = some s.game.boardId
  snapshot : s.snapshot = CoreSnapshot.snapshot s.game

theorem refresh_boardId (store : SnapshotStore) (game : GameState) :
    (store.refresh game).boardId = some game.boardId := by
  unfold SnapshotStore.refresh
  by_cases h : store.boardId = some game.boardId
  · rw [if_neg (not_not.mpr h)]
    exact h
  · rw [if_pos h]

theorem refresh_copied {store : SnapshotStore} {game : GameState}
    (h : store.boardId ≠ some game.boardId) :
    (store.refresh game).snapshot = CoreSnapshot.snapshot game := by
  unfold SnapshotStore.refresh
  rw [if_pos h]
  exact snapshotInto_eq game store.snapshot

theorem refresh_kept {store : SnapshotStore} {game : GameState}
    (h : store.boardId = some game.boardId) (hs : Shows store.snapshot game)
    (hid : store.snapshot.boardId = game.boardId) :
    (store.refresh game).snapshot = CoreSnapshot.snapshot game := by
  unfold SnapshotStore.refresh
  rw [if_neg (not_not.mpr h)]
  exact snapshotMetaInto_eq hs hid

theorem coherent_fromGame (game : GameState) : Coherent (.fromGame game) :=
  ⟨refresh_boardId _ game, refresh_copied (by simp)⟩

theorem snapshot_shows {out : GameSnapshot} {s u : GameState} (h : out = CoreSnapshot.snapshot s)
    (hb : u.board = s.board) : Shows out u := by
  have hs : Shows (CoreSnapshot.snapshot s) s := snapshotMetaInto_shows (snapshotBoardInto_shows s _)
  rw [h]
  exact ⟨hs.board.trans (by rw [hb]), hs.boardHash.trans (by rw [hb])⟩

theorem coherent_finishStep {s : SessionRuntime} (h : Coherent s) {game : GameState}
    (hb : game.boardId = s.game.boardId → game.board = s.game.board) :
    Coherent (s.finishStep game).1 := by
  refine ⟨refresh_boardId _ _, ?_⟩
  change (s.snapshots.refresh game.takeLastEvent.1).snapshot =
    CoreSnapshot.snapshot game.takeLastEvent.1
  by_cases hid : game.boardId = s.game.boardId
  · apply refresh_kept
    · rw [h.boardId]
      exact congrArg some hid.symm
    · exact snapshot_shows h.snapshot (hb hid)
    · have hsnap : s.snapshots.snapshot = CoreSnapshot.snapshot s.game := h.snapshot
      rw [hsnap]
      exact hid.symm
  · apply refresh_copied
    rw [h.boardId]
    exact fun he => hid (Option.some.inj he).symm

theorem ofNat_eq_zero {n : ℕ} (h : UInt32.ofNat n = 0) (hn : n < 2 ^ 32) : n = 0 := by
  have ht := congrArg UInt32.toNat h
  rw [UInt32.toNat_ofNat', Nat.mod_eq_of_lt hn] at ht
  exact ht

/-- Unless the step collides, an unchanged board id means an unchanged board. -/
theorem board_of_boardId {s : SessionRuntime} (hs : Sound s.game) {input : StepInput}
    (hc : collides s.game input = false)
    (hid : (s.stepGame input).1.boardId = s.game.boardId) :
    (s.stepGame input).1.board = s.game.board := by
  have ht := (step_traced hs input).tallied hs.invariant
  have hl := Nat.le_trans (tally_le (stepMarks s.game input)) (stepMarks_length s.game input)
  unfold collides at hc
  generalize tally (stepMarks s.game input) = t at ht hl hc
  obtain ⟨restarted, n⟩ := t
  have hb := ht.board
  have hi := ht.boardId
  rw [hid] at hi
  cases restarted with
  | false =>
    have h0 : UInt32.ofNat n = 0 := by
      simp only [Bool.false_eq_true, if_false] at hi
      exact UInt32.left_eq_add.mp hi
    exact hb (ofNat_eq_zero h0 (Nat.lt_of_le_of_lt hl (by decide)))
  | true =>
    simp only [if_true, UInt32.zero_add] at hi
    simp only [hi, Bool.true_and, BEq.rfl, Bool.not_eq_false', Bool.and_eq_true, beq_iff_eq] at hc
    rw [hb hc.1, hc.2]
    rfl

structure Settled (s : SessionRuntime) : Prop where
  sound : Sound s.game
  coherent : Coherent s

theorem settled_new (seed : UInt32) : Settled (.new seed) :=
  ⟨sound_start seed, coherent_fromGame _⟩

theorem settled_transition {s : SessionRuntime} (h : Settled s) {input : StepInput}
    (hc : collides s.game input = false) : Settled (s.transition input).1 :=
  ⟨sound_transition h.sound input,
    coherent_finishStep h.coherent (board_of_boardId h.sound hc)⟩

def CollisionFree : SessionRuntime → Prop :=
  Reach (fun s => ∃ seed, s = .new seed)
    (fun s input u => collides s.game input = false ∧ u = (s.transition input).1)

/-- In runs without collision the session's snapshot is the game's in every field. -/
theorem snapshot_coherent {s : SessionRuntime} (h : CollisionFree s) :
    s.snapshot = CoreSnapshot.snapshot s.game := by
  have hs : Settled s := by
    refine Reach.invariant h ?_ ?_
    · rintro _ ⟨seed, rfl⟩
      exact settled_new seed
    · rintro s input _ hs ⟨hc, rfl⟩
      exact settled_transition hs hc
  exact hs.coherent.snapshot

def localInput (actions : List GameAction) (h : actions.length ≤ 64) : StepInput :=
  { StepInput.default with locals := ⟨actions, h⟩ }

def collidingRun : List StepInput :=
  [localInput [.HardDrop] (by decide), localInput [.Restart, .MoveLeft, .HardDrop] (by decide)]

/-- A restart on an empty board, two locks, and a restart with one lock. -/
def restartingRun : List StepInput :=
  [localInput [.Restart, .MoveLeft] (by decide), localInput [.HardDrop, .HardDrop] (by decide),
    localInput [.Restart, .MoveLeft, .HardDrop] (by decide)]

def freeStep (s : SessionRuntime) (input : StepInput) : Option SessionRuntime :=
  if collides s.game input = false then some (s.transition input).1 else none

theorem restartingRun_free :
    (restartingRun.foldlM freeStep (.new 1)).any (fun s => s.game.episodeId = 2) = true := by
  decide +kernel

theorem snapshot_coherent_restarted : ∃ s, restartingRun.foldlM freeStep (.new 1) = some s ∧
    s.game.episodeId = 2 ∧ s.snapshot = CoreSnapshot.snapshot s.game := by
  obtain ⟨s, hs, he⟩ := (Option.any_eq_true _ _).mp restartingRun_free
  have hfree : CollisionFree s := by
    refine .foldlM_of (fun s input u h => ?_) (.init ⟨1, rfl⟩) restartingRun hs
    obtain ⟨hc, hu⟩ := Option.ite_none_right_eq_some.mp h
    exact ⟨hc, (Option.some.inj hu).symm⟩
  exact ⟨s, hs, of_decide_eq_true he, snapshot_coherent hfree⟩

/-- The cache keeps the board of the old episode under the metadata of the new one. -/
theorem collidingRun_stale :
    ¬∀ (seed : UInt32) (inputs : List StepInput),
      let s := run (fun s input => (SessionRuntime.transition s input).1) (.new seed) inputs
      s.snapshot = CoreSnapshot.snapshot s.game := by
  intro h
  have hb := congrArg (fun s => s.board.toList.map Vector.toList) (h 1 collidingRun)
  revert hb
  decide +kernel

end TuiTetris.SessionSnapshots
