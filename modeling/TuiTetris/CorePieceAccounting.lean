import TuiTetris.CoreGameStateInvariant

set_option autoImplicit false

/-!
# Where the drawn pieces are

A ledger beside the game notes the kinds taken from the queue and the kinds
locked since the episode began. Every operation keeps the balance, except a
`hold` that finds the spawn area of the incoming piece blocked.
-/
namespace TuiTetris.CorePieceAccounting
open CoreTypes CorePieces CoreBoard CoreBoardRows CoreRng CoreGameState CoreGameStateEffects
open CoreGameStateInvariant LibTransition

structure Ledger where
  drawn : List PieceKind
  locked : List PieceKind
  deriving DecidableEq, Repr

def drawnBetween (before after : PieceQueue) : List PieceKind :=
  if after = before then [] else [before.draw.1]

def lockedKinds (marks : List Mark) : List PieceKind :=
  marks.filterMap fun
    | .lock kind _ => some kind
    | .restart => none

def opening (s : GameState) : Ledger :=
  ⟨drawnBetween (.new s.pieceQueue.seed) s.pieceQueue, []⟩

/-- One operation with its entries; a restart opens a new ledger. -/
def record (g : GameState × Ledger) (op : Op) : GameState × Ledger :=
  (op.apply g.1,
    if op.restarts then opening (op.apply g.1)
    else
      ⟨g.2.drawn ++ drawnBetween g.1.pieceQueue (op.apply g.1).pieceQueue,
        g.2.locked ++ lockedKinds (op.marks g.1)⟩)

def openingState (seed : UInt32) : GameState × Ledger :=
  ((GameState.new seed).start, opening (GameState.new seed).start)

def placed (g : GameState × Ledger) : List PieceKind :=
  g.2.locked ++ (g.1.active.map Tetromino.kind).toList ++ g.1.hold.toList

def heldIncoming (s : GameState) : Tetromino := .new (s.hold.getD s.pieceQueue.draw.1)

/-- The operation is no accepted hold whose incoming piece finds its spawn cells blocked. -/
def holdClear (s : GameState) (op : Op) : Bool :=
  if op = .action .Hold && accepts s .Hold && s.canHold && s.active.isSome then
    (heldIncoming s).isValid s.board
  else true

structure Balanced (g : GameState × Ledger) : Prop where
  kinds : g.2.drawn.Perm (placed g)
  pieceId : g.1.pieceId = UInt32.ofNat g.2.drawn.length

theorem draw_index (q : PieceQueue) : q.draw.2.bagIndex = q.ensureBag.bagIndex + 1 := rfl

theorem draw_moves (q : PieceQueue) : q.draw.2 ≠ q := by
  intro h
  have hi := congrArg PieceQueue.bagIndex h
  rw [draw_index] at hi
  by_cases hq : q.bagIndex ≥ 7
  · have hb : q.ensureBag = q.refillBag := if_pos hq
    have h0 : q.refillBag.bagIndex = 0 := rfl
    rw [hb, h0] at hi
    omega
  · have hb : q.ensureBag = q := if_neg hq
    rw [hb] at hi
    omega

theorem drawnBetween_self (q : PieceQueue) : drawnBetween q q = [] := if_pos rfl

theorem drawnBetween_draw (q : PieceQueue) : drawnBetween q q.draw.2 = [q.draw.1] :=
  if_neg (draw_moves q)

theorem ofNat_length_succ {α : Type} (l : List α) (a : α) :
    UInt32.ofNat l.length + 1 = UInt32.ofNat (l ++ [a]).length := by
  rw [List.length_append, List.length_singleton, UInt32.ofNat_add]
  rfl

theorem balanced_spawn_open {s : GameState} {l : Ledger} (hb : Balanced (s, l))
    (ha : s.active = none) (h : (incoming s).isValid s.board = true) :
    Balanced (s.spawnPiece.1,
      ⟨l.drawn ++ drawnBetween s.pieceQueue s.spawnPiece.1.pieceQueue, l.locked⟩) := by
  rw [spawnPiece_open s h]
  have hq : (s.installPiece (incoming s) s.pieceQueue.draw.2).pieceQueue = s.pieceQueue.draw.2 := rfl
  rw [hq, drawnBetween_draw]
  refine ⟨?_, ?_⟩
  · have hk := hb.kinds
    rw [List.perm_iff_count] at hk ⊢
    intro k
    have hk' := hk k
    simp only [placed, ha, Option.map_none, Option.toList_none, List.append_nil,
      List.count_append] at hk'
    simp only [placed, List.count_append]
    change l.drawn.count k + _ =
      l.locked.count k + [s.pieceQueue.draw.1].count k + s.hold.toList.count k
    omega
  · change s.pieceId + 1 = _
    rw [hb.pieceId]
    exact ofNat_length_succ _ _

theorem balanced_spawn_blocked {s : GameState} {l : Ledger} (hb : Balanced (s, l))
    (h : (incoming s).isValid s.board = false) :
    Balanced (s.spawnPiece.1,
      ⟨l.drawn ++ drawnBetween s.pieceQueue s.spawnPiece.1.pieceQueue, l.locked⟩) := by
  rw [spawnPiece_blocked s h]
  change Balanced (_, ⟨l.drawn ++ drawnBetween s.pieceQueue s.pieceQueue, l.locked⟩)
  rw [drawnBetween_self, List.append_nil]
  exact ⟨hb.kinds, hb.pieceId⟩

theorem balanced_spawn {s : GameState} {l : Ledger} (hb : Balanced (s, l)) (ha : s.active = none) :
    Balanced (s.spawnPiece.1,
      ⟨l.drawn ++ drawnBetween s.pieceQueue s.spawnPiece.1.pieceQueue, l.locked⟩) := by
  cases h : (incoming s).isValid s.board with
  | true => exact balanced_spawn_open hb ha h
  | false => exact balanced_spawn_blocked hb h

theorem balanced_glides {s u : GameState} {l : Ledger} (hb : Balanced (s, l)) (h : Glides s u) :
    Balanced (u, l) := by
  refine ⟨?_, h.pieceId.trans hb.pieceId⟩
  have hk := hb.kinds
  simp only [placed] at hk ⊢
  rwa [h.kind, h.hold]

theorem balanced_settleLock {s : GameState} {l : Ledger} (hb : Balanced (s, l)) (p : Tetromino)
    (hp : s.active = some p) : Balanced (s.settleLock p, ⟨l.drawn, l.locked ++ [p.kind]⟩) := by
  have hs := settles_settleLock s p
  refine ⟨?_, hs.pieceId.trans hb.pieceId⟩
  have hk := hb.kinds
  simp only [placed, hp, Option.map_some, Option.toList_some] at hk
  simpa only [placed, hs.active, hs.hold, Option.map_none, Option.toList_none,
    List.append_nil] using hk

theorem balanced_lockPiece {s : GameState} {l : Ledger} (hb : Balanced (s, l)) (p : Tetromino)
    (hp : s.active = some p) (hg : s.gameOver = false) :
    Balanced (s.lockPiece,
      ⟨l.drawn ++ drawnBetween s.pieceQueue s.lockPiece.pieceQueue, l.locked ++ [p.kind]⟩) := by
  have h := balanced_spawn (balanced_settleLock hb p hp) (settles_settleLock s p).active
  rw [lockPiece_eq s p hp hg]
  rwa [(settles_settleLock s p).pieceQueue] at h

theorem balanced_hold_empty {s : GameState} {l : Ledger} (hb : Balanced (s, l)) (p : Tetromino)
    (hp : s.active = some p) (hh : s.hold = none) (h : (incoming s).isValid s.board = true) :
    Balanced (GameState.finishHold { s with hold := some p.kind }.spawnPiece.1,
      ⟨l.drawn ++ drawnBetween s.pieceQueue { s with hold := some p.kind }.spawnPiece.1.pieceQueue,
        l.locked⟩) := by
  have hm : Balanced ({ s with hold := some p.kind, active := none }, l) := by
    refine ⟨?_, hb.pieceId⟩
    have hk := hb.kinds
    simp only [placed, hp, hh, Option.map_some, Option.toList_some, Option.toList_none,
      List.append_nil] at hk
    simpa only [placed, Option.map_none, Option.toList_none, Option.toList_some,
      List.append_nil] using hk
  have ho := balanced_spawn_open hm rfl h
  have he : { s with hold := some p.kind }.spawnPiece.1 =
      { s with hold := some p.kind, active := none }.spawnPiece.1 := by
    rw [spawnPiece_open { s with hold := some p.kind } h,
      spawnPiece_open { s with hold := some p.kind, active := none } h]
    rfl
  rw [he]
  exact ⟨ho.kinds, ho.pieceId⟩

theorem balanced_hold_swap {s : GameState} {l : Ledger} (hb : Balanced (s, l)) (p : Tetromino)
    (k : PieceKind) (hp : s.active = some p) (hh : s.hold = some k) :
    Balanced ((swapHold s p k).finishHold, l) := by
  refine ⟨?_, hb.pieceId⟩
  have hk := hb.kinds
  rw [List.perm_iff_count] at hk ⊢
  intro j
  have hj := hk j
  simp only [placed, hp, hh, Option.map_some, Option.toList_some, List.count_append] at hj
  simp only [placed, List.count_append]
  change l.drawn.count j = l.locked.count j + [k].count j + [p.kind].count j
  omega

theorem holdClear_hold {s : GameState} {p : Tetromino} (h : holdClear s (.action .Hold) = true)
    (ha : accepts s .Hold = true) (hc : s.canHold = true) (hp : s.active = some p) :
    (heldIncoming s).isValid s.board = true := by
  simpa [holdClear, ha, hc, hp] using h

theorem balanced_applyHold {s : GameState} {l : Ledger} (hb : Balanced (s, l)) (p : Tetromino)
    (hp : s.active = some p) (hc : s.canHold = true)
    (hi : (heldIncoming s).isValid s.board = true) :
    Balanced (s.applyHold.1,
      ⟨l.drawn ++ drawnBetween s.pieceQueue s.applyHold.1.pieceQueue, l.locked⟩) := by
  cases hh : s.hold with
  | none =>
    rw [heldIncoming, hh] at hi
    rw [applyHold_empty s p hp hc hh]
    exact balanced_hold_empty hb p hp hh hi
  | some k =>
    rw [heldIncoming, hh] at hi
    have hv : (Tetromino.new k).isValid s.board = true := hi
    rw [applyHold_swap s p k hp hc hh, if_pos hv]
    change Balanced (_, ⟨l.drawn ++ drawnBetween s.pieceQueue s.pieceQueue, l.locked⟩)
    rw [drawnBetween_self, List.append_nil]
    exact balanced_hold_swap hb p k hp hh

theorem new_seed (seed : UInt32) : (PieceQueue.new seed).seed = seed := by
  unfold PieceQueue.new PieceQueue.refillBag
  exact withBag_seed _ _

theorem fresh_incoming (seed episodeId : UInt32) :
    (incoming (freshState seed episodeId)).isValid (freshState seed episodeId).board = true := by
  have hb : (freshState seed episodeId).board = Board.new := rfl
  rw [hb]
  unfold incoming
  generalize (freshState seed episodeId).pieceQueue.draw.1 = k
  apply List.all_eq_true.mpr
  intro m hm
  obtain ⟨hx, hx', hy, hy'⟩ := getShape_offsets _ _ m hm
  apply new_isValid
  have h3 : (Tetromino.new k).x.toInt = 3 := rfl
  have h0 : (Tetromino.new k).y.toInt = 0 := rfl
  simp only [Int8.toInt_add, h3, h0, Int.bmod_def]
  omega

theorem balanced_opening (seed episodeId : UInt32) :
    Balanced ((freshState seed episodeId).spawnPiece.1,
      opening (freshState seed episodeId).spawnPiece.1) := by
  have hq : (freshState seed episodeId).pieceQueue = PieceQueue.new seed := rfl
  have hs : (PieceQueue.new seed).draw.2.seed = seed := (draw_seed _).trans (new_seed seed)
  rw [spawnPiece_open _ (fresh_incoming seed episodeId), hq]
  unfold opening
  change Balanced (_, ⟨drawnBetween (.new (PieceQueue.new seed).draw.2.seed)
    (PieceQueue.new seed).draw.2, []⟩)
  rw [hs, drawnBetween_draw]
  exact ⟨List.Perm.refl [(PieceQueue.new seed).draw.1], rfl⟩

/-- An operation that is no restart keeps the balance, unless it is a hold into a blocked spawn. -/
theorem balanced_effect {s u : GameState} {op : Op} {marks : List Mark} {l : Ledger}
    (hb : Balanced (s, l)) (hc : holdClear s op = true) (hr : op.restarts = false)
    (h : Effect s op marks u) :
    Balanced (u, ⟨l.drawn ++ drawnBetween s.pieceQueue u.pieceQueue, l.locked ++ lockedKinds marks⟩) := by
  cases h with
  | glide h =>
    rw [h.pieceQueue, drawnBetween_self, List.append_nil]
    change Balanced (u, ⟨l.drawn, l.locked ++ []⟩)
    rw [List.append_nil]
    exact balanced_glides hb h
  | taken =>
    change Balanced (_, ⟨l.drawn ++ drawnBetween s.pieceQueue s.pieceQueue, l.locked ++ []⟩)
    rw [drawnBetween_self, List.append_nil, List.append_nil]
    exact ⟨hb.kinds, hb.pieceId⟩
  | held p ho ha hp hcan =>
    change Balanced (_, ⟨_, l.locked ++ []⟩)
    rw [List.append_nil]
    exact balanced_applyHold hb p hp hcan (holdClear_hold (ho ▸ hc) ha hcan hp)
  | @locked v p e score h hp hg =>
    have hl := balanced_lockPiece (balanced_glides hb h) p hp (h.gameOver.trans hg)
    rw [h.pieceQueue] at hl
    exact ⟨hl.kinds, hl.pieceId⟩
  | restarted seed hr' =>
    rw [hr] at hr'
    cases hr'

theorem balanced_record {g : GameState × Ledger} (hb : Balanced g) (op : Op)
    (hc : holdClear g.1 op = true) : Balanced (record g op) := by
  obtain ⟨s, l⟩ := g
  have he := effect s op
  unfold record
  cases hr : op.restarts with
  | true =>
    obtain ⟨seed, hu⟩ := restarts_fresh s hr
    simp only [if_true, hu]
    exact balanced_opening seed _
  | false =>
    simp only [Bool.false_eq_true, if_false]
    exact balanced_effect hb hc hr he

theorem balanced_openingState (seed : UInt32) : Balanced (openingState seed) := by
  unfold openingState
  rw [start_new]
  exact balanced_opening seed 0

def HoldsClear : GameState × Ledger → Prop :=
  Reach (fun g => ∃ seed, g = openingState seed)
    (fun g op u => holdClear g.1 op = true ∧ u = record g op)

theorem balanced_holdsClear {g : GameState × Ledger} (h : HoldsClear g) : Balanced g := by
  refine Reach.invariant h ?_ ?_
  · rintro _ ⟨seed, rfl⟩
    exact balanced_openingState seed
  · rintro g op _ hb ⟨hc, rfl⟩
    exact balanced_record hb op hc

theorem placed_length (g : GameState × Ledger) : (placed g).length =
    g.2.locked.length + (if g.1.active.isSome then 1 else 0) + (if g.1.hold.isSome then 1 else 0) := by
  unfold placed
  rw [List.length_append, List.length_append]
  cases g.1.active <;> cases g.1.hold <;> rfl

/-- Nothing is lost and nothing duplicated, in kinds and in numbers. -/
def Accounted (g : GameState × Ledger) : Prop :=
  g.2.drawn.Perm (placed g) ∧
  (g.2.drawn.length < 2 ^ 32 → g.1.pieceId.toNat =
    g.2.locked.length + (if g.1.active.isSome then 1 else 0) + (if g.1.hold.isSome then 1 else 0))

/-- While every hold finds its spawn cells free, the drawn pieces are those locked, active or held. -/
theorem pieces_accounted {g : GameState × Ledger} (h : HoldsClear g) : Accounted g := by
  have hb := balanced_holdsClear h
  refine ⟨hb.kinds, fun hl => ?_⟩
  rw [hb.pieceId, UInt32.toNat_ofNat', Nat.mod_eq_of_lt hl, ← placed_length]
  exact hb.kinds.length_eq

theorem pieces_accounted_firstHold : Accounted (record (openingState 1) (.action .Hold)) :=
  pieces_accounted (.step (.init ⟨1, rfl⟩) ⟨by decide +kernel, rfl⟩)

def blockedHold : List Op :=
  (List.replicate 7 [Op.action .RotateCw, .action .HardDrop]).flatten ++ [.action .Hold]

/-- The active piece stays in play and is in the hold slot as well. -/
theorem blockedHold_unaccounted :
    ¬∀ (seed : UInt32) (ops : List Op), Accounted (run record (openingState seed) ops) := by
  intro h
  have hb := (h 16 blockedHold).2
  revert hb
  decide +kernel

end TuiTetris.CorePieceAccounting
