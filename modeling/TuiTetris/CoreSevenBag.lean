import TuiTetris.CoreGameStateInvariant
import TuiTetris.LibUnfold

set_option autoImplicit false

/-!
# Seven-bag and preview

The draws of a queue come in bags of seven, and the preview runs the shuffle of
the next bag ahead on a copy of the generator. A log of the pieces spawned from
the queue shows that the game draws them one by one.
-/
namespace TuiTetris.CoreSevenBag
open CoreTypes CoreRng CoreGameState CoreGameStateEffects CoreGameStateInvariant
open LibTransition LibUnfold

def draws (n : ℕ) (q : PieceQueue) : List PieceKind := outputs PieceQueue.draw n q

def after (n : ℕ) (q : PieceQueue) : PieceQueue := rest PieceQueue.draw n q

/-! ## Bags -/

theorem shuffleLoop_perm {α : Type} {n : ℕ} (hn : n < 2 ^ 32) (i : ℕ) (hi : i < n) (g : SimpleRng)
    (slice : Vector α n) : (SimpleRng.shuffleLoop hn i hi g slice).2.toList.Perm slice.toList := by
  induction i generalizing g slice with
  | zero => exact .refl _
  | succ i ih => exact (ih _ _ _).trans (Vector.swap_perm hi _).toList

theorem shuffle_perm {α : Type} {n : ℕ} (hn : n < 2 ^ 32) (g : SimpleRng) (slice : Vector α n) :
    (SimpleRng.shuffle hn g slice).2.toList.Perm slice.toList := by
  unfold SimpleRng.shuffle
  split
  · exact shuffleLoop_perm hn _ _ g slice
  · exact .refl _

theorem refillBag_perm (q : PieceQueue) : q.refillBag.bag.toList.Perm allKinds.toList :=
  shuffle_perm _ q.rng allKinds

theorem refillBag_index (q : PieceQueue) : q.refillBag.bagIndex = 0 := rfl

theorem ensureBag_current {q : PieceQueue} (h : q.bagIndex < 7) : q.ensureBag = q :=
  if_neg (Nat.not_le_of_lt h)

theorem ensureBag_refill {q : PieceQueue} (h : 7 ≤ q.bagIndex) : q.ensureBag = q.refillBag :=
  if_pos h

theorem draw_ensureBag (q : PieceQueue) : q.draw = q.ensureBag.draw := by
  have h : q.ensureBag.ensureBag = q.ensureBag := ensureBag_current q.ensureBag_index
  unfold PieceQueue.draw
  simp only [h]

theorem draw_current {q : PieceQueue} (h : q.bagIndex < 7) :
    q.draw = (q.bag[q.bagIndex], { q with bagIndex := q.bagIndex + 1 }) := by
  unfold PieceQueue.draw
  simp only [ensureBag_current h]

theorem draw_refill {q : PieceQueue} (h : 7 ≤ q.bagIndex) : q.draw = q.refillBag.draw := by
  rw [draw_ensureBag, ensureBag_refill h]

/-- Within the current bag the draws are its next pieces. -/
theorem draws_current (n : ℕ) (q : PieceQueue) (h : q.bagIndex + n ≤ 7) :
    draws n q = (q.bag.toList.drop q.bagIndex).take n ∧
      after n q = { q with bagIndex := q.bagIndex + n } := by
  induction n generalizing q with
  | zero => exact ⟨rfl, rfl⟩
  | succ n ih =>
    have hlt : q.bagIndex < 7 := by omega
    have hd := draw_current hlt
    have hl : q.bagIndex < q.bag.toList.length := by rwa [Vector.length_toList]
    obtain ⟨hdraws, hafter⟩ := ih q.draw.2 (by rw [hd]; change q.bagIndex + 1 + n ≤ 7; omega)
    constructor
    · change q.draw.1 :: draws n q.draw.2 = _
      rw [hdraws, hd, List.drop_eq_getElem_cons hl, List.take_succ_cons, Vector.getElem_toList]
    · change after n q.draw.2 = _
      rw [hafter, hd]
      simp only [Nat.add_assoc, Nat.add_comm 1 n]

theorem draws_bag {q : PieceQueue} (h : q.bagIndex = 0) :
    draws 7 q = q.bag.toList ∧ after 7 q = { q with bagIndex := 7 } := by
  obtain ⟨hd, ha⟩ := draws_current 7 q (by omega)
  rw [h] at hd ha
  refine ⟨?_, ha⟩
  rw [hd, List.drop_zero]
  exact List.take_of_length_le (Nat.le_of_eq Vector.length_toList)

theorem draws_refill {q : PieceQueue} (h : 7 ≤ q.bagIndex) (n : ℕ) :
    draws n q = draws n q.refillBag := outputs_congr (draw_refill h) n

/-- Where a queue stands between two bags. -/
structure BagEnd (q : PieceQueue) : Prop where
  index : q.bagIndex = 0 ∨ q.bagIndex = 7
  perm : q.bag.toList.Perm allKinds.toList

theorem bagEnd_new (seed : UInt32) : BagEnd (.new seed) := ⟨.inl rfl, refillBag_perm _⟩

theorem bagEnd_block {q : PieceQueue} (h : BagEnd q) :
    (draws 7 q).Perm allKinds.toList ∧ BagEnd (after 7 q) := by
  rcases h.index with h0 | h7
  · obtain ⟨hd, ha⟩ := draws_bag h0
    rw [hd, ha]
    exact ⟨h.perm, .inr rfl, h.perm⟩
  · obtain ⟨hd, ha⟩ := draws_bag (refillBag_index q)
    have hr : after 7 q = after 7 q.refillBag := rest_congr (draw_refill (Nat.le_of_eq h7.symm)) 6
    rw [draws_refill (Nat.le_of_eq h7.symm), hr, hd, ha]
    exact ⟨refillBag_perm q, .inr rfl, refillBag_perm q⟩

theorem bagEnd_after (seed : UInt32) (j : ℕ) : BagEnd (after (7 * j) (.new seed)) := by
  induction j with
  | zero => exact bagEnd_new seed
  | succ j ih =>
    have h := (bagEnd_block ih).2
    unfold after at h
    rwa [← rest_add] at h

theorem draws_block (seed : UInt32) (j : ℕ) :
    ((draws (7 * j + 7) (.new seed)).drop (7 * j)).Perm allKinds.toList := by
  rw [draws, outputs_drop]
  exact (bagEnd_block (bagEnd_after seed j)).1

/-! ## Preview -/

theorem draw_index_le (q : PieceQueue) : q.draw.2.bagIndex ≤ 7 := q.ensureBag_index

theorem after_index (seed : UInt32) (n : ℕ) : (after n (.new seed)).bagIndex ≤ 7 :=
  rest_invariant (I := fun q => q.bagIndex ≤ 7) (fun q _ => draw_index_le q) n
    (Nat.zero_le 7 : (PieceQueue.new seed).bagIndex ≤ 7)

theorem peekFill_current {q : PieceQueue} (h : 5 ≤ 7 - q.bagIndex) :
    q.peekFill q.peekCurrent = q.peekCurrent := by
  unfold PieceQueue.peekFill
  rw [if_neg]
  rw [PieceQueue.peekCurrent, List.length_take, List.length_drop, Vector.length_toList]
  omega

theorem peekFill_preview {q : PieceQueue} (h : 7 - q.bagIndex < 5) :
    q.peekFill q.peekCurrent =
      q.bag.toList.drop q.bagIndex ++ q.previewBag.toList.take (5 - (7 - q.bagIndex)) := by
  have hl : (q.bag.toList.drop q.bagIndex).length = 7 - q.bagIndex := by
    rw [List.length_drop, Vector.length_toList]
  have hc : q.peekCurrent = q.bag.toList.drop q.bagIndex := List.take_of_length_le (by omega)
  rw [hc, PieceQueue.peekFill, hl, if_pos h]

/-- The preview lists the next five draws, also across the end of the bag. -/
theorem peek5_draws (q : PieceQueue) (h : q.bagIndex ≤ 7) : q.peek5.toList = draws 5 q := by
  change q.peekFill q.peekCurrent = draws 5 q
  rcases Nat.lt_or_ge (7 - q.bagIndex) 5 with hlt | hge
  · obtain ⟨hd, ha⟩ := draws_current (7 - q.bagIndex) q (by omega)
    have hsplit : draws 5 q = draws (7 - q.bagIndex) q ++
        draws (5 - (7 - q.bagIndex)) (after (7 - q.bagIndex) q) := by
      unfold draws after
      rw [← outputs_add, Nat.add_sub_cancel' (Nat.le_of_lt hlt)]
    have hend : after (7 - q.bagIndex) q = { q with bagIndex := 7 } := by
      rw [ha, Nat.add_sub_cancel' h]
    have hnext : draws (5 - (7 - q.bagIndex)) { q with bagIndex := 7 } =
        q.previewBag.toList.take (5 - (7 - q.bagIndex)) := by
      rw [draws_refill (Nat.le_refl 7), (draws_current _ _ (by rw [refillBag_index]; omega)).1,
        refillBag_index, List.drop_zero]
      rfl
    have hcurrent : (q.bag.toList.drop q.bagIndex).length = 7 - q.bagIndex := by
      rw [List.length_drop, Vector.length_toList]
    rw [peekFill_preview hlt, hsplit, hend, hnext, hd, List.take_of_length_le (Nat.le_of_eq hcurrent)]
  · rw [peekFill_current hge, (draws_current 5 q (by omega)).1]
    rfl

/-! ## Spawns -/

/-- A failed spawn ends the game and changes nothing else. -/
theorem spawnPiece_failed {s : GameState} (h : s.spawnPiece.2 = false) :
    s.spawnPiece.1 = { s with gameOver := true } := by
  cases hv : (incoming s).isValid s.board with
  | true =>
    rw [spawnPiece_open s hv] at h
    cases h
  | false => rw [spawnPiece_blocked s hv]

/-- Nothing has been drawn, or one piece that is now the active one. -/
inductive Draws (s u : GameState) : Prop where
  | nothing (hq : u.pieceQueue = s.pieceQueue) (hn : u.nextQueue = s.nextQueue)
      (hid : u.pieceId = s.pieceId)
  | one (hq : u.pieceQueue = s.pieceQueue.draw.2) (hn : u.nextQueue = s.pieceQueue.draw.2.peek5)
      (hid : u.pieceId = s.pieceId + 1) (hk : u.active.map Tetromino.kind = some s.pieceQueue.draw.1)

theorem draws_spawnPiece (s : GameState) : Draws s s.spawnPiece.1 := by
  cases h : (incoming s).isValid s.board with
  | true =>
    rw [spawnPiece_open s h]
    exact .one rfl rfl rfl rfl
  | false =>
    rw [spawnPiece_blocked s h]
    exact .nothing rfl rfl rfl

theorem Draws.congr {s s' u u' : GameState} (h : Draws s u) (hq : s.pieceQueue = s'.pieceQueue)
    (hn : s.nextQueue = s'.nextQueue) (hid : s.pieceId = s'.pieceId)
    (hq' : u'.pieceQueue = u.pieceQueue) (hn' : u'.nextQueue = u.nextQueue)
    (hid' : u'.pieceId = u.pieceId) (hk' : u'.active = u.active) : Draws s' u' := by
  cases h with
  | nothing h1 h2 h3 =>
    exact .nothing ((hq'.trans h1).trans hq) ((hn'.trans h2).trans hn) ((hid'.trans h3).trans hid)
  | one h1 h2 h3 h4 =>
    refine .one ?_ ?_ ?_ ?_
    · rw [hq', h1, hq]
    · rw [hn', h2, hq]
    · rw [hid', h3, hid]
    · rw [hk', h4, hq]

theorem draws_applyHold (s : GameState) (p : Tetromino) (hp : s.active = some p)
    (hc : s.canHold = true) : Draws s s.applyHold.1 := by
  cases hh : s.hold with
  | none =>
    rw [applyHold_empty s p hp hc hh]
    exact (draws_spawnPiece { s with hold := some p.kind }).congr rfl rfl rfl rfl rfl rfl rfl
  | some k =>
    rw [applyHold_swap s p k hp hc hh]
    split <;> exact .nothing rfl rfl rfl

/-- What an operation does to the queue. -/
theorem effect_draws {s u : GameState} {op : Op} {marks : List Mark} (h : Effect s op marks u) :
    Draws s u ∨ op.restarts = true ∧ ∃ seed, u = (s.restartWithSeed seed).1 := by
  cases h with
  | glide h => exact .inl (.nothing h.pieceQueue h.nextQueue h.pieceId)
  | taken => exact .inl (.nothing rfl rfl rfl)
  | held p ho ha hp hc => exact .inl (draws_applyHold s p hp hc)
  | @locked v p e score h hp hg =>
    have hl := settles_settleLock v p
    have hd := draws_spawnPiece (v.settleLock p)
    rw [lockPiece_eq v p hp (h.gameOver.trans hg)]
    -- the state after the spawn is compared, not computed
    generalize (v.settleLock p).spawnPiece.1 = w at hd
    exact .inl (hd.congr (hl.pieceQueue.trans h.pieceQueue) (hl.nextQueue.trans h.nextQueue)
      (hl.pieceId.trans h.pieceId) rfl rfl rfl rfl)
  | restarted seed hr => exact .inr ⟨hr, seed, rfl⟩

theorem draws_effect {s u : GameState} {op : Op} {marks : List Mark} (hr : op.restarts = false)
    (h : Effect s op marks u) : Draws s u := by
  rcases effect_draws h with hd | ⟨hr', -⟩
  · exact hd
  · rw [hr] at hr'
    cases hr'

/-! ## Runs -/

/-- The seed of the episode and the kinds spawned from its queue. -/
structure SpawnLog where
  seed : UInt32
  spawned : List PieceKind
  deriving DecidableEq, Repr

/-- Every piece from the queue gets a new `piece_id`. -/
def spawnedBetween (before after : GameState) : List PieceKind :=
  if after.pieceId = before.pieceId then [] else (after.active.map Tetromino.kind).toList

/-- The seed of the episode that the operation opens, if it opens one. -/
def openedSeed (s : GameState) : Op → Option UInt32
  | .action .Restart => some s.pieceQueue.rngState
  | .restart seed => some seed
  | _ => none

def openLog (seed : UInt32) (s : GameState) : SpawnLog :=
  ⟨seed, spawnedBetween (GameState.new seed) s⟩

def recordSpawn (g : GameState × SpawnLog) (op : Op) : GameState × SpawnLog :=
  (op.apply g.1,
    match openedSeed g.1 op with
    | some seed => openLog seed (op.apply g.1)
    | none => { g.2 with spawned := g.2.spawned ++ spawnedBetween g.1 (op.apply g.1) })

def openingSpawn (seed : UInt32) : GameState × SpawnLog :=
  ((GameState.new seed).start, openLog seed (GameState.new seed).start)

/-- The game stands where the log says it does in the draws of the seed. -/
structure Drawn (g : GameState × SpawnLog) : Prop where
  spawned : g.2.spawned = draws g.2.spawned.length (.new g.2.seed)
  queue : g.1.pieceQueue = after g.2.spawned.length (.new g.2.seed)
  shown : g.1.nextQueue = g.1.pieceQueue.peek5

theorem spawnedBetween_one {s u : GameState} (hid : u.pieceId = s.pieceId + 1)
    (hk : u.active.map Tetromino.kind = some s.pieceQueue.draw.1) :
    spawnedBetween s u = [s.pieceQueue.draw.1] := by
  rw [spawnedBetween, if_neg (by simp [hid]), hk]
  rfl

theorem drawn_step {s u : GameState} {log : SpawnLog} (hg : Drawn (s, log)) (h : Draws s u) :
    Drawn (u, { log with spawned := log.spawned ++ spawnedBetween s u }) := by
  cases h with
  | nothing hq hn hid =>
    have he : spawnedBetween s u = [] := if_pos hid
    rw [he, List.append_nil]
    exact ⟨hg.spawned, hq.trans hg.queue, by rw [hn, hq]; exact hg.shown⟩
  | one hq hn hid hk =>
    have hone : draws 1 s.pieceQueue = [s.pieceQueue.draw.1] := rfl
    have hqueue : s.pieceQueue = after log.spawned.length (.new log.seed) := hg.queue
    rw [spawnedBetween_one hid hk]
    refine ⟨?_, ?_, by rw [hn, hq]⟩
    · rw [List.length_append, List.length_singleton]
      unfold draws
      rw [outputs_add]
      change _ = draws _ _ ++ draws 1 (after log.spawned.length (.new log.seed))
      rw [← hg.spawned, ← hqueue, hone]
    · rw [List.length_append, List.length_singleton]
      unfold after
      rw [rest_add]
      change u.pieceQueue = (after log.spawned.length (.new log.seed)).draw.2
      rw [← hqueue, hq]

theorem drawn_first {s : GameState} {seed : UInt32} (hq : s.pieceQueue = .new seed)
    (hn : s.nextQueue = s.pieceQueue.peek5) (hid : s.pieceId = 0) :
    Drawn (s.spawnPiece.1, openLog seed s.spawnPiece.1) := by
  have hempty : Drawn (s, ⟨seed, []⟩) := ⟨rfl, hq, hn⟩
  have hstep := drawn_step hempty (draws_spawnPiece s)
  have hnew : (GameState.new seed).pieceId = s.pieceId := hid.symm
  unfold openLog spawnedBetween
  rw [hnew]
  exact hstep

theorem drawn_fresh (seed episodeId : UInt32) :
    Drawn ((freshState seed episodeId).spawnPiece.1,
      openLog seed (freshState seed episodeId).spawnPiece.1) :=
  drawn_first rfl rfl rfl

theorem openedSeed_none {s : GameState} {op : Op} (h : openedSeed s op = none) :
    op.restarts = false := by
  cases op with
  | action a => cases a <;> first | rfl | cases h
  | restart seed => cases h
  | tick elapsedMs softDrop => rfl
  | takeEvent => rfl

theorem openedSeed_some {s : GameState} {op : Op} {seed : UInt32} (h : openedSeed s op = some seed) :
    op.apply s = (freshState seed (s.episodeId + 1)).spawnPiece.1 := by
  rw [← restartWithSeed_eq]
  cases op with
  | action a =>
    cases a with
    | Restart =>
      cases h
      have hacc : accepts s .Restart = true := by simp [accepts]
      obtain ⟨ho, hp⟩ := (accepts_iff s .Restart).mp hacc
      change (s.applyAction .Restart).1 = _
      unfold GameState.applyAction
      rw [if_neg ho, if_neg hp]
    | _ => cases h
  | restart seed' =>
    cases h
    rfl
  | tick elapsedMs softDrop => cases h
  | takeEvent => cases h

theorem drawn_recordSpawn {g : GameState × SpawnLog} (hg : Drawn g) (op : Op) :
    Drawn (recordSpawn g op) := by
  unfold recordSpawn
  cases ho : openedSeed g.1 op with
  | none => exact drawn_step hg (draws_effect (openedSeed_none ho) (effect g.1 op))
  | some seed =>
    simp only
    rw [openedSeed_some ho]
    exact drawn_fresh seed _

theorem drawn_run (seed : UInt32) (ops : List Op) :
    Drawn (run recordSpawn (openingSpawn seed) ops) := by
  refine run_invariant (I := Drawn) (fun _ op hg => drawn_recordSpawn hg op) ?_ ops
  unfold openingSpawn
  rw [start_new]
  exact drawn_fresh seed 0

/-- The preview shown in a reachable state is that of its queue. -/
theorem nextQueue_run (seed : UInt32) (ops : List Op) :
    (run Op.apply (GameState.new seed).start ops).nextQueue =
      (run Op.apply (GameState.new seed).start ops).pieceQueue.peek5 := by
  have hrun : (run recordSpawn (openingSpawn seed) ops).1 =
      run Op.apply (GameState.new seed).start ops :=
    (List.foldl_hom Prod.fst fun _ _ => rfl).symm
  rw [← hrun]
  exact (drawn_run seed ops).shown

/-- Spawned kinds, preview and next draw all lie on the draws of the episode's seed. -/
structure BagTruthful (g : GameState × SpawnLog) : Prop where
  spawned : g.2.spawned = draws g.2.spawned.length (.new g.2.seed)
  blocks : ∀ j : ℕ, ((draws (7 * j + 7) (.new g.2.seed)).drop (7 * j)).Perm allKinds.toList
  preview : draws (g.2.spawned.length + 5) (.new g.2.seed) = g.2.spawned ++ g.1.nextQueue.toList
  upcoming : draws 5 g.1.pieceQueue = g.1.nextQueue.toList
  peek : g.1.pieceQueue.peek = some g.1.pieceQueue.draw.1

/-- In every state of every episode; and a failed spawn, wherever it happens, consumes nothing. -/
theorem seven_bag (seed : UInt32) (ops : List Op) :
    BagTruthful (run recordSpawn (openingSpawn seed) ops) ∧
    ∀ s : GameState, s.spawnPiece.2 = false → s.spawnPiece.1 = { s with gameOver := true } := by
  have hd := drawn_run seed ops
  generalize run recordSpawn (openingSpawn seed) ops = g at hd
  have hnext : g.1.nextQueue.toList = draws 5 g.1.pieceQueue := by
    rw [hd.shown]
    apply peek5_draws
    rw [hd.queue]
    exact after_index _ _
  refine ⟨⟨hd.spawned, draws_block g.2.seed, ?_, hnext.symm, peek_eq_draw _⟩, fun s => spawnPiece_failed⟩
  have hadd : draws (g.2.spawned.length + 5) (.new g.2.seed) =
      draws g.2.spawned.length (.new g.2.seed) ++ draws 5 g.1.pieceQueue := by
    rw [hd.queue]
    exact outputs_add _ _ _ _
  rw [hadd, hnext, ← hd.spawned]

end TuiTetris.CoreSevenBag
