import TuiTetris.CoreGameStateEffects
import TuiTetris.LibTransition

set_option autoImplicit false

/-!
# Pauses and the end of a game

A game that is paused or over ignores everything but a restart and, while it can
go on, the second `Pause`. Only the slot of the last event can still be emptied.
-/
namespace TuiTetris.CorePauses
open CoreTypes CoreGameState CoreGameStateEffects LibTransition

/-- The operations that leave a paused game paused. -/
def waits : Op → Bool
  | .action .Pause => false
  | op => !op.restarts

def Frozen (s : GameState) : Prop := s.paused = true ∨ s.gameOver = true

/-- The state with its last event taken if one of the operations takes it. -/
def withEventTaken (ops : List Op) (s : GameState) : GameState :=
  if .takeEvent ∈ ops then { s with lastEvent := none } else s

theorem Frozen.congr {s u : GameState} (h : Frozen s) (hp : u.paused = s.paused)
    (hg : u.gameOver = s.gameOver) : Frozen u :=
  h.imp hp.trans hg.trans

theorem frozen_fallenState {s : GameState} (h : Frozen s) (elapsedMs : UInt32) (softDrop : Bool) :
    fallenState s elapsedMs softDrop = none := by
  unfold fallenState
  rcases h with h | h <;> simp [h]

theorem frozen_tick {s : GameState} (h : Frozen s) (elapsedMs : UInt32) (softDrop : Bool) :
    (s.tick elapsedMs softDrop).1 = s := by
  unfold GameState.tick
  rcases h with h | h <;> simp [h]

/-- What a frozen game ignores: any action it does not accept and every tick. -/
theorem frozen_step {s : GameState} (h : Frozen s) (op : Op)
    (hw : ∀ a, op = .action a → accepts s a = false) (hr : op.restarts = false) :
    op.apply s = withEventTaken [op] s ∧ op.marks s = [] := by
  cases op with
  | action a =>
    have ha := hw a rfl
    have hlock : (Op.action a).lockingState s = none := by
      cases a <;> simp_all [Op.lockingState]
    refine ⟨?_, by simp [Op.marks, hr, hlock]⟩
    change (s.applyAction a).1 = _
    rw [applyAction_rejected s a ha]
    simp [withEventTaken]
  | tick elapsedMs softDrop =>
    refine ⟨?_, by simp [Op.marks, Op.restarts, Op.lockingState, frozen_fallenState h]⟩
    change (s.tick elapsedMs softDrop).1 = _
    rw [frozen_tick h]
    simp [withEventTaken]
  | restart seed => cases hr
  | takeEvent => exact ⟨by simp [withEventTaken, Op.apply, GameState.takeLastEvent], rfl⟩

theorem withEventTaken_cons (op : Op) (ops : List Op) (s : GameState) :
    withEventTaken ops (withEventTaken [op] s) = withEventTaken (op :: ops) s := by
  by_cases ho : op = .takeEvent
  · by_cases hm : Op.takeEvent ∈ ops <;> simp [withEventTaken, ho, hm]
  · by_cases hm : Op.takeEvent ∈ ops <;> simp [withEventTaken, Ne.symm ho, hm]

theorem withEventTaken_flags (ops : List Op) (s : GameState) :
    (withEventTaken ops s).paused = s.paused ∧ (withEventTaken ops s).gameOver = s.gameOver := by
  unfold withEventTaken
  split <;> exact ⟨rfl, rfl⟩

/-- A run of operations that a frozen game ignores. -/
theorem frozen_run {s : GameState} (h : Frozen s) (ops : List Op)
    (hw : ∀ op ∈ ops, op.restarts = false ∧
      ∀ u a, u.paused = s.paused → u.gameOver = s.gameOver → op = .action a → accepts u a = false) :
    run Op.apply s ops = withEventTaken ops s ∧ trace Op.apply (fun s op => op.marks s) s ops = [] := by
  induction ops generalizing s with
  | nil => exact ⟨rfl, rfl⟩
  | cons op ops ih =>
    obtain ⟨hr, ha⟩ := hw op List.mem_cons_self
    obtain ⟨happly, hmarks⟩ := frozen_step h op (fun a => ha s a rfl rfl) hr
    obtain ⟨hp, hg⟩ := withEventTaken_flags [op] s
    obtain ⟨hrun, htrace⟩ := ih (h.congr hp hg) fun o ho =>
      ⟨(hw o (List.mem_cons_of_mem _ ho)).1, fun u a hup hug =>
        (hw o (List.mem_cons_of_mem _ ho)).2 u a (hup.trans hp) (hug.trans hg)⟩
    rw [run_cons, trace, happly, hmarks, hrun, htrace, withEventTaken_cons]
    exact ⟨rfl, rfl⟩

theorem waits_rejected {s : GameState} {op : Op} {a : GameAction} (hp : s.paused = true)
    (hw : waits op = true) (ha : op = .action a) : accepts s a = false := by
  subst ha
  cases a <;> simp_all [accepts, waits, Op.restarts]

theorem paused_run {s : GameState} (hp : s.paused = true) (ops : List Op)
    (hw : ∀ op ∈ ops, waits op = true) : run Op.apply s ops = withEventTaken ops s ∧
      trace Op.apply (fun s op => op.marks s) s ops = [] := by
  refine frozen_run (.inl hp) ops fun op hop => ⟨?_, fun u a hu _ =>
    waits_rejected (hu.trans hp) (hw op hop)⟩
  have h := hw op hop
  unfold waits at h
  split at h
  · rfl
  · simpa using h

/-- A game that is over stays as it is until a restart, whatever else is tried. -/
theorem over_run {s : GameState} (hg : s.gameOver = true) (ops : List Op)
    (hr : ∀ op ∈ ops, op.restarts = false) : run Op.apply s ops = withEventTaken ops s ∧
      trace Op.apply (fun s op => op.marks s) s ops = [] := by
  refine frozen_run (.inr hg) ops fun op hop => ⟨hr op hop, fun u a _ hu ha => ?_⟩
  have h := hr op hop
  subst ha
  have hu' := hu.trans hg
  cases a <;> simp_all [accepts, Op.restarts]

theorem pause_apply {s : GameState} (hp : s.paused = false) (hg : s.gameOver = false) :
    (Op.action .Pause).apply s =
      { s with paused := true, isSoftDropping := false, softDropTimerMs := 0 } := by
  simp [Op.apply, GameState.applyAction, GameState.togglePause, hp, hg]

theorem unpause_apply {s : GameState} (hp : s.paused = true) (hg : s.gameOver = false) :
    (Op.action .Pause).apply s = { s with paused := false } := by
  simp [Op.apply, GameState.applyAction, GameState.togglePause, hp, hg]

/-- Whatever is tried between two presses of `Pause`, only a running soft drop is lost; the game
goes on from where it was. -/
theorem pause_interlude (s : GameState) (hp : s.paused = false) (hg : s.gameOver = false)
    (ops rest : List Op) (hw : ∀ op ∈ ops, waits op = true) :
    let resumed := withEventTaken ops { s with isSoftDropping := false, softDropTimerMs := 0 }
    run Op.apply s (.action .Pause :: ops ++ .action .Pause :: rest) = run Op.apply resumed rest ∧
    trace Op.apply (fun s op => op.marks s) s (.action .Pause :: ops ++ .action .Pause :: rest) =
      trace Op.apply (fun s op => op.marks s) resumed rest := by
  intro resumed
  obtain ⟨hrun, htrace⟩ := paused_run
    (s := { s with paused := true, isSoftDropping := false, softDropTimerMs := 0 }) rfl ops hw
  have hback : (Op.action .Pause).apply (withEventTaken ops
      { s with paused := true, isSoftDropping := false, softDropTimerMs := 0 }) = resumed := by
    obtain ⟨hpaused, hover⟩ := withEventTaken_flags ops
      { s with paused := true, isSoftDropping := false, softDropTimerMs := 0 }
    rw [unpause_apply hpaused (hover.trans hg)]
    unfold resumed withEventTaken
    split <;> simp only [← hp]
  have hmarks (u : GameState) : (Op.action .Pause).marks u = [] := rfl
  constructor
  · rw [List.cons_append, run_cons, pause_apply hp hg, run_append, hrun, run_cons, hback]
  · rw [List.cons_append, trace, pause_apply hp hg, trace_append, hrun, htrace, trace, hback, hmarks,
      hmarks]
    rfl

/-- A pause right after a soft drop, with a few keys and ticks in it. -/
theorem pause_interlude_busy :
    let s := run Op.apply (GameState.new 1).start [.action .SoftDrop]
    let ops : List Op := [.action .MoveLeft, .tick 16 true, .takeEvent, .action .HardDrop]
    let resumed := withEventTaken ops { s with isSoftDropping := false, softDropTimerMs := 0 }
    run Op.apply s (.action .Pause :: ops ++ .action .Pause :: [.action .HardDrop]) =
        run Op.apply resumed [.action .HardDrop] ∧
      trace Op.apply (fun s op => op.marks s) s
          (.action .Pause :: ops ++ .action .Pause :: [.action .HardDrop]) =
        trace Op.apply (fun s op => op.marks s) resumed [.action .HardDrop] :=
  pause_interlude (run Op.apply (GameState.new 1).start [.action .SoftDrop]) (by decide +kernel)
    (by decide +kernel) [.action .MoveLeft, .tick 16 true, .takeEvent, .action .HardDrop]
    [.action .HardDrop] (by decide)

end TuiTetris.CorePauses
