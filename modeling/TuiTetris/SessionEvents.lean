import TuiTetris.SessionMarks

set_option autoImplicit false

/-!
# Which lock events a transition returns

The core has one slot for the last event. A later lock overwrites it and a
restart empties it, so the transition returns what the slot holds after the tick.
-/
namespace TuiTetris.SessionEvents
open CoreTypes CoreGameState CoreGameStateEffects CoreGameStateInvariant LibArrayVec
open SessionEngine SessionMarks LibTransition

def lockEvents (marks : List Mark) : List CoreLastEvent :=
  marks.filterMap fun
    | .lock _ event => some event
    | .restart => none

def isRestart : Mark → Bool
  | .restart => true
  | .lock _ _ => false

def slotAfter (_slot : Option CoreLastEvent) : Mark → Option CoreLastEvent
  | .lock _ event => some event
  | .restart => none

theorem slot_effect {s u : GameState} {op : Op} {marks : List Mark} (ho : op ≠ .takeEvent)
    (h : Effect s op marks u) : u.lastEvent = marks.foldl slotAfter s.lastEvent := by
  cases h with
  | glide h => exact h.lastEvent
  | taken ht => exact absurd ht ho
  | held p _ ha hp hc => exact (applyHold_board p hp hc).2.2
  | locked p e score h hp hg he => exact he
  | restarted seed hr =>
    rw [restartWithSeed_eq]
    exact (spawns_spawnPiece (freshState seed (s.episodeId + 1))).lastEvent

theorem slot_run (s : GameState) (ops : List Op) (h : Op.takeEvent ∉ ops) :
    (run Op.apply s ops).lastEvent = (trace Op.apply Op.marks s ops).foldl slotAfter s.lastEvent := by
  induction ops generalizing s with
  | nil => rfl
  | cons op ops ih =>
    have ho : op ≠ .takeEvent := fun he => h (he ▸ List.mem_cons_self)
    rw [run_cons, trace, List.foldl_append, ih _ (fun hm => h (List.mem_cons_of_mem _ hm)),
      slot_effect ho (effect s op)]

theorem transition_events {s : SessionRuntime} (hs : Sound s.game) (hl : s.game.lastEvent = none)
    (input : StepInput) : (s.transition input).2.events =
      ((stepMarks s.game input).foldl slotAfter none).toList := by
  obtain ⟨ops, hops, hrun, htrace⟩ := step_traced hs input
  have h := slot_run s.game ops hops
  rw [hrun, htrace, hl] at h
  exact congrArg Option.toList h

theorem lockEvents_append (as bs : List Mark) :
    lockEvents (as ++ bs) = lockEvents as ++ lockEvents bs := List.filterMap_append

theorem lockEvents_eq_nil (marks : List Mark) :
    lockEvents marks = [] ↔ marks.all isRestart = true := by
  unfold lockEvents
  rw [List.filterMap_eq_nil_iff, List.all_eq_true]
  refine forall_congr' fun mark => forall_congr' fun _ => ?_
  cases mark with
  | restart => exact ⟨fun _ => rfl, fun _ => rfl⟩
  | lock kind event => exact ⟨fun h => (nomatch h), fun h => (nomatch h)⟩

/-- The slot holds all lock events exactly when nothing follows a lock. -/
theorem slot_complete_iff (marks : List Mark) :
    (marks.foldl slotAfter none).toList = lockEvents marks ↔
      marks.dropLast.all isRestart = true := by
  rcases List.eq_nil_or_concat marks with rfl | ⟨init, last, rfl⟩
  · exact ⟨fun _ => rfl, fun _ => rfl⟩
  · rw [List.concat_eq_append, List.foldl_concat, lockEvents_append, List.dropLast_concat,
      ← lockEvents_eq_nil]
    cases last with
    | restart =>
      change [] = lockEvents init ++ [] ↔ _
      rw [List.append_nil]
      exact eq_comm
    | lock kind event =>
      change [event] = lockEvents init ++ [event] ↔ _
      exact List.self_eq_append_left

structure Emptied (s : SessionRuntime) : Prop where
  sound : Sound s.game
  lastEvent : s.game.lastEvent = none

theorem emptied_new (seed : UInt32) : Emptied (.new seed) := by
  refine ⟨sound_start seed, ?_⟩
  change (GameState.new seed).start.lastEvent = none
  rw [start_new]
  exact (spawns_spawnPiece (freshState seed 0)).lastEvent

theorem emptied_run {s : SessionRuntime} (h : Emptied s) (inputs : List StepInput) :
    Emptied (run (fun s input => (SessionRuntime.transition s input).1) s inputs) := by
  induction inputs generalizing s with
  | nil => exact h
  | cons input inputs ih => exact ih ⟨sound_transition h.sound input, rfl⟩

/-- A transition returns one event per locked piece exactly when neither another lock nor a
restart follows a lock in that step. -/
theorem events_complete_iff (seed : UInt32) (inputs : List StepInput) (input : StepInput) :
    let s := run (fun s input => (SessionRuntime.transition s input).1) (.new seed) inputs
    (s.transition input).2.events = lockEvents (stepMarks s.game input) ↔
      (stepMarks s.game input).dropLast.all isRestart = true := by
  have h := emptied_run (emptied_new seed) inputs
  intro s
  rw [transition_events h.sound h.lastEvent input]
  exact slot_complete_iff _

def doubleDrop : StepInput :=
  { StepInput.default with locals := ⟨[.HardDrop, .HardDrop], by decide⟩ }

/-- The locks of the step fit in the event list, and the transition returns them all. -/
def EventsComplete (s : SessionRuntime) (input : StepInput) : Prop :=
  (lockEvents (stepMarks s.game input)).length ≤ maxEventsPerStep →
    (s.transition input).2.events = lockEvents (stepMarks s.game input)

theorem doubleDrop_events :
    (lockEvents (stepMarks (SessionRuntime.new 1).game doubleDrop)).length = 2 ∧
      ((SessionRuntime.new 1).transition doubleDrop).2.events.length = 1 := by
  decide +kernel

/-- Two pieces lock, within the capacity of the event list, and one event is returned. -/
theorem doubleDrop_event_lost :
    ¬∀ (seed : UInt32) (inputs : List StepInput) (input : StepInput),
      EventsComplete
        (run (fun s input => (SessionRuntime.transition s input).1) (.new seed) inputs) input := by
  intro h
  obtain ⟨hlocks, hevents⟩ := doubleDrop_events
  have hc := h 1 [] doubleDrop
  rw [run_nil] at hc
  have hl := congrArg List.length (hc (by rw [hlocks]; decide))
  rw [hlocks, hevents] at hl
  cases hl

end TuiTetris.SessionEvents
