import TuiTetris.SessionEngine
import TuiTetris.SessionPlaceCorrect

set_option autoImplicit false

/-!
# The restarts and locks of one session step

A step is a run of core operations, so the marks of its commands, local actions
and tick are those of that run. `tally` counts the locks since the last restart,
which is all that the board and its id depend on.
-/
namespace TuiTetris.SessionMarks
open CoreTypes CoreBoard CoreRng CoreGameState CoreGameStateEffects CoreGameStateInvariant
open SessionPlace SessionPlaceCorrect SessionEngine LibTransition

/-- The operations of an `Actions` command; its seed goes to the first restart. -/
def actionOps : List GameAction → Option UInt32 → List Op
  | [], _ => []
  | action :: actions, restartSeed =>
    match takenSeed action restartSeed with
    | some seed => .restart seed :: actionOps actions none
    | none => .action action :: actionOps actions restartSeed

/-- An accepted placement locks one piece, with the event it leaves behind. -/
def placeMarks (game : GameState) (x : Int8) (rotation : Rotation) (useHold : Bool) : List Mark :=
  let r := applyPlace game x rotation useHold
  match r.2 with
  | .ok () => (game.active.bind fun p => r.1.lastEvent.map (.lock (placedKind game p useHold))).toList
  | .error _ => []

def commandMarks (game : GameState) : GameCommand → List Mark
  | .Actions actions restartSeed => trace Op.apply Op.marks game (actionOps actions.toList restartSeed)
  | .Place x rotation useHold => placeMarks game x rotation useHold

def remoteMarks (game : GameState) (commands : List GameCommand) : List Mark :=
  trace (fun game command => (applyGameCommand game command).1) commandMarks game commands

def stepMarks (game : GameState) (input : StepInput) : List Mark :=
  let remote := (applyRemote input.remote.toList game).1
  let locals := applyLocal input.locals.toList remote
  remoteMarks game input.remote.toList ++
    trace Op.apply Op.marks remote (input.locals.toList.map .action) ++
    (Op.tick tickMs false).marks locals

/-- `u` is reached from `s` by core operations that leave `marks` and take no event. -/
def Traced (s u : GameState) (marks : List Mark) : Prop :=
  ∃ ops, Op.takeEvent ∉ ops ∧ run Op.apply s ops = u ∧ trace Op.apply Op.marks s ops = marks

theorem Traced.trans {s u v : GameState} {as bs : List Mark} (h : Traced s u as)
    (k : Traced u v bs) : Traced s v (as ++ bs) := by
  obtain ⟨xs, hx, rfl, rfl⟩ := h
  obtain ⟨ys, hy, rfl, rfl⟩ := k
  refine ⟨xs ++ ys, fun h => ?_, run_append _ _ _ _, trace_append _ _ _ _ _⟩
  rcases List.mem_append.mp h with h | h
  · exact hx h
  · exact hy h

theorem Traced.ops (s : GameState) {ops : List Op} (h : Op.takeEvent ∉ ops) :
    Traced s (run Op.apply s ops) (trace Op.apply Op.marks s ops) := ⟨ops, h, rfl, rfl⟩

theorem takeEvent_notMem_action (actions : List GameAction) :
    Op.takeEvent ∉ actions.map Op.action := by
  intro h
  obtain ⟨a, -, ha⟩ := List.mem_map.mp h
  cases ha

theorem takeEvent_notMem_actionOps (actions : List GameAction) (restartSeed : Option UInt32) :
    Op.takeEvent ∉ actionOps actions restartSeed := by
  induction actions generalizing restartSeed with
  | nil => exact List.not_mem_nil
  | cons action actions ih =>
    unfold actionOps
    cases takenSeed action restartSeed with
    | some seed => simpa using ih none
    | none => simpa using ih restartSeed

structure Sound (s : GameState) : Prop where
  invariant : Invariant s
  queueShown : QueueShown s

theorem Sound.traced {s u : GameState} {marks : List Mark} (hs : Sound s) (h : Traced s u marks) :
    Sound u := by
  obtain ⟨ops, -, rfl, -⟩ := h
  exact ⟨invariant_run hs.invariant ops, queueShown_run hs.queueShown ops⟩

theorem sound_start (seed : UInt32) : Sound (GameState.new seed).start :=
  ⟨invariant_start seed, queueShown_start seed⟩

theorem applyActions_run (actions : List GameAction) (restartSeed : Option UInt32)
    (game : GameState) :
    applyActions actions restartSeed game = run Op.apply game (actionOps actions restartSeed) := by
  induction actions generalizing restartSeed game with
  | nil => rfl
  | cons action actions ih =>
    unfold applyActions actionOps
    cases takenSeed action restartSeed with
    | some seed => exact ih none (game.restartWithSeed seed).1
    | none => exact ih restartSeed (game.applyAction action).1

theorem place_traced {s : GameState} (hs : Sound s) (x : Int8) (rotation : Rotation)
    (useHold : Bool) :
    Traced s (applyPlace s x rotation useHold).1 (placeMarks s x rotation useHold) := by
  unfold placeMarks
  simp only
  cases hr : (applyPlace s x rotation useHold).2 with
  | error error =>
    rw [applyPlace_error hr]
    exact .ops s List.not_mem_nil
  | ok =>
    obtain ⟨p, hp, hone, -, -⟩ :=
      applyPlaceInPlace_places hs.invariant hs.queueShown (applyPlace_ok hr)
    obtain ⟨actions, e, hrun, htrace, he⟩ := hone.actions
    simp only [hp, he, Option.bind_some, Option.map_some, Option.toList_some]
    exact ⟨_, takeEvent_notMem_action actions, hrun, htrace⟩

theorem command_traced {s : GameState} (hs : Sound s) (command : GameCommand) :
    Traced s (applyGameCommand s command).1 (commandMarks s command) := by
  cases command with
  | Actions actions restartSeed =>
    simp only [applyGameCommand, commandMarks, applyActions_run]
    exact .ops s (takeEvent_notMem_actionOps _ _)
  | Place x rotation useHold => exact place_traced hs x rotation useHold

theorem remote_traced {s : GameState} (hs : Sound s) (commands : List GameCommand) :
    Traced s (applyRemote commands s).1 (remoteMarks s commands) := by
  induction commands generalizing s with
  | nil => exact .ops s List.not_mem_nil
  | cons command commands ih =>
    have hc := command_traced hs command
    exact hc.trans (ih (hs.traced hc))

theorem applyLocal_run (actions : List GameAction) (game : GameState) :
    applyLocal actions game = run Op.apply game (actions.map .action) := by
  induction actions generalizing game with
  | nil => rfl
  | cons action actions ih => exact ih _

/-- One step of the session is a run of core operations with the marks of the step. -/
theorem step_traced {s : SessionRuntime} (hs : Sound s.game) (input : StepInput) :
    Traced s.game (s.stepGame input).1 (stepMarks s.game input) := by
  have hr := remote_traced hs input.remote.toList
  have hl : Traced (applyRemote input.remote.toList s.game).1
      (applyLocal input.locals.toList (applyRemote input.remote.toList s.game).1)
      (trace Op.apply Op.marks (applyRemote input.remote.toList s.game).1
        (input.locals.toList.map .action)) := by
    rw [applyLocal_run]
    exact .ops _ (takeEvent_notMem_action _)
  have htick : Op.takeEvent ∉ [Op.tick tickMs false] := by simp
  have ht := Traced.ops (applyLocal input.locals.toList (applyRemote input.remote.toList s.game).1)
    htick
  have h := (hr.trans hl).trans ht
  simp only [trace, List.append_nil] at h
  exact h

theorem sound_transition {s : SessionRuntime} (hs : Sound s.game) (input : StepInput) :
    Sound (s.transition input).1.game := by
  have ht := hs.traced (step_traced hs input)
  have he := effect (s.stepGame input).1 .takeEvent
  exact ⟨invariant_effect ht.invariant he, queueShown_effect ht.queueShown he⟩

/-- Whether there was a restart, and the locks since the last one. -/
def tallyMark (t : Bool × ℕ) : Mark → Bool × ℕ
  | .restart => (true, 0)
  | .lock _ _ => (t.1, t.2 + 1)

def tally (marks : List Mark) : Bool × ℕ := marks.foldl tallyMark (false, 0)

theorem foldl_tallyMark_le (marks : List Mark) (t : Bool × ℕ) :
    (marks.foldl tallyMark t).2 ≤ t.2 + marks.length := by
  induction marks generalizing t with
  | nil => exact Nat.le_refl _
  | cons mark marks ih =>
    have h := ih (tallyMark t mark)
    have hm : (tallyMark t mark).2 ≤ t.2 + 1 := by
      cases mark with
      | restart => exact Nat.zero_le _
      | lock kind event => exact Nat.le_refl _
    rw [List.foldl_cons, List.length_cons]
    omega

theorem tally_le (marks : List Mark) : (tally marks).2 ≤ marks.length := by
  have h := foldl_tallyMark_le marks (false, 0)
  rwa [Nat.zero_add] at h

/-- Board and board id of `u`, counted from `s` by a tally. -/
structure Tallied (s : GameState) (t : Bool × ℕ) (u : GameState) : Prop where
  boardId : u.boardId = (if t.1 then 0 else s.boardId) + UInt32.ofNat t.2
  board : t.2 = 0 → u.board = if t.1 then Board.new else s.board

theorem tallied_refl (s : GameState) : Tallied s (false, 0) s := by
  refine ⟨?_, fun _ => rfl⟩
  change s.boardId = s.boardId + 0
  rw [UInt32.add_zero]

theorem Tallied.congr {s u v : GameState} {t : Bool × ℕ} (h : Tallied s t u)
    (hid : v.boardId = u.boardId) (hb : v.board = u.board) : Tallied s t v :=
  ⟨hid.trans h.boardId, fun h0 => hb.trans (h.board h0)⟩

theorem applyHold_board {s : GameState} (p : Tetromino) (hp : s.active = some p)
    (hc : s.canHold = true) :
    s.applyHold.1.boardId = s.boardId ∧ s.applyHold.1.board = s.board ∧
      s.applyHold.1.lastEvent = s.lastEvent := by
  cases hh : s.hold with
  | none =>
    have hs := spawns_spawnPiece { s with hold := some p.kind }
    rw [applyHold_empty s p hp hc hh]
    exact ⟨hs.boardId, hs.board, hs.lastEvent⟩
  | some k =>
    rw [applyHold_swap s p k hp hc hh]
    split <;> exact ⟨rfl, rfl, rfl⟩

theorem tallied_effect {s u v : GameState} {t : Bool × ℕ} {op : Op} {marks : List Mark}
    (ht : Tallied s t u) (hu : Invariant u) (h : Effect u op marks v) :
    Tallied s (marks.foldl tallyMark t) v := by
  cases h with
  | glide h => exact ht.congr h.boardId h.board
  | taken => exact ht.congr rfl rfl
  | held p ho ha hp hc =>
    obtain ⟨hid, hb, -⟩ := applyHold_board p hp hc
    exact ht.congr hid hb
  | @locked w p e score h hp hg =>
    have hv : p.isValid w.board = true := (invariant_glides hu h).valid p hp
    have hid : w.lockPiece.boardId = u.boardId + 1 := by
      rw [lockPiece_eq w p hp (h.gameOver.trans hg), (spawns_spawnPiece _).boardId,
        settleLock_boardId w p hv, h.boardId]
    refine ⟨?_, fun h0 => absurd h0 (Nat.succ_ne_zero _)⟩
    change w.lockPiece.boardId = (if t.1 then 0 else s.boardId) + UInt32.ofNat (t.2 + 1)
    rw [hid, ht.boardId, UInt32.ofNat_add, UInt32.add_assoc]
    rfl
  | restarted seed hr =>
    rw [restartWithSeed_eq]
    have hs := spawns_spawnPiece (freshState seed (u.episodeId + 1))
    exact ⟨hs.boardId, fun _ => hs.board⟩

theorem tallied_run {s u : GameState} {t : Bool × ℕ} (ht : Tallied s t u) (hu : Invariant u)
    (ops : List Op) :
    Tallied s ((trace Op.apply Op.marks u ops).foldl tallyMark t) (run Op.apply u ops) := by
  induction ops generalizing u t with
  | nil => exact ht
  | cons op ops ih =>
    rw [trace, List.foldl_append, run_cons]
    have he := effect u op
    exact ih (tallied_effect ht hu he) (invariant_effect hu he)

theorem Traced.tallied {s u : GameState} {marks : List Mark} (h : Traced s u marks)
    (hs : Invariant s) : Tallied s (tally marks) u := by
  obtain ⟨ops, -, rfl, rfl⟩ := h
  exact tallied_run (tallied_refl s) hs ops

theorem toList_length_le {α : Type} (o : Option α) : o.toList.length ≤ 1 := by
  cases o
  · exact Nat.zero_le 1
  · exact Nat.le_refl 1

theorem marks_length (s : GameState) (op : Op) : (op.marks s).length ≤ 1 := by
  unfold Op.marks
  split
  · exact Nat.le_refl 1
  · exact toList_length_le _

theorem actionOps_length (actions : List GameAction) (restartSeed : Option UInt32) :
    (actionOps actions restartSeed).length = actions.length := by
  induction actions generalizing restartSeed with
  | nil => rfl
  | cons action actions ih =>
    unfold actionOps
    cases takenSeed action restartSeed with
    | some seed => exact congrArg Nat.succ (ih none)
    | none => exact congrArg Nat.succ (ih restartSeed)

theorem commandMarks_length (s : GameState) (command : GameCommand) :
    (commandMarks s command).length ≤ 32 := by
  cases command with
  | Actions actions restartSeed =>
    have h := trace_length Op.apply Op.marks 1 marks_length s (actionOps actions.toList restartSeed)
    have hl := actions.length_le
    rw [actionOps_length] at h
    simp only [commandMarks]
    omega
  | Place x rotation useHold =>
    simp only [commandMarks, placeMarks]
    split
    · exact Nat.le_trans (toList_length_le _) (by decide)
    · decide

theorem stepMarks_length (s : GameState) (input : StepInput) : (stepMarks s input).length ≤ 1089 := by
  have hr := trace_length (fun game command => (applyGameCommand game command).1) commandMarks 32
    commandMarks_length s input.remote.toList
  have hl := trace_length Op.apply Op.marks 1 marks_length
    (applyRemote input.remote.toList s).1 (input.locals.toList.map .action)
  have ht := marks_length
    (applyLocal input.locals.toList (applyRemote input.remote.toList s).1) (.tick tickMs false)
  have hrl : input.remote.toList.length ≤ 32 := input.remote.length_le
  have hll : input.locals.toList.length ≤ 64 := input.locals.length_le
  rw [List.length_map] at hl
  unfold stepMarks remoteMarks
  simp only [List.length_append]
  omega

end TuiTetris.SessionMarks
