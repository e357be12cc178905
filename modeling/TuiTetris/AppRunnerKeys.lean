import TuiTetris.AppRunner
import TuiTetris.CorePauses
import TuiTetris.SessionMarks
import TuiTetris.TermAutoRepeat

set_option autoImplicit false

/-!
# What becomes of the keys

A press that asks for an action puts it into a buffer, and the first fixed step of a burst
empties the buffer. A game that stands still takes no action but the one that wakes it.
-/
namespace TuiTetris.AppRunnerKeys
open CoreTypes CoreGameState CoreGameStateEffects CorePauses LibArrayVec LibTransition
open SessionPlace SessionPlaceCorrect SessionEngine AdapterGameLoop TermInputHandler TermInputMap
open TermAutoRepeat AppRunner AppRunner.App

/-! ## What a turn buffers -/

/-- What the handler makes of a press, then what the map makes of it. -/
def pressActions (a : App) (keyTime : Instant) (key : KeyEvent) : List GameAction :=
  (a.inputHandler.handleKeyPress keyTime key.code.handlerCode).2.toList ++
    match mapInputCommand key with
    | some (.Action action) => if isMovement action then [] else [action]
    | _ => []

/-- Only these wake a game. -/
def wakingActions (key : KeyEvent) : List GameAction :=
  match mapInputCommand key with
  | some (.Action .Pause) => [.Pause]
  | some (.Action .Restart) => [.Restart]
  | _ => []

def actionsOf (a : App) (keyTime : Instant) (key : KeyEvent) : List GameAction :=
  match key.kind with
  | .Press =>
    if mapInputCommand key = some .Quit then []
    else if a.isStatic then wakingActions key
    else pressActions a keyTime key
  | _ => []

def keyActions (a : App) (e : Turn) : List GameAction :=
  match e.event with
  | some (.Key key) => actionsOf a e.keyTime key
  | _ => []

/-- The buffer after the given actions were tried; what does not fit is refused. -/
def Buffered (a : App) (keys : List GameAction) (b : App) : Prop :=
  b.pendingLocalActions.toList =
    (a.pendingLocalActions.toList ++ keys).take maxLocalActionsPerStep

theorem buffered_nil {a b : App} (h : b.pendingLocalActions = a.pendingLocalActions) :
    Buffered a [] b := by
  unfold Buffered
  rw [h, List.append_nil, ArrayVec.take_toList]

theorem buffered_push (a : App) (action : GameAction) : Buffered a [action] (a.push action) :=
  ArrayVec.push_toList_take _ _

theorem Buffered.trans {a b c : App} {xs ys : List GameAction} (h : Buffered a xs b)
    (k : Buffered b ys c) : Buffered a (xs ++ ys) c := by
  unfold Buffered at h k ⊢
  rw [k, h, take_append_take, List.append_assoc]

theorem Buffered.congr {a b c : App} {xs : List GameAction} (h : Buffered a xs b)
    (hc : c.pendingLocalActions = b.pendingLocalActions) : Buffered a xs c := by
  unfold Buffered at h ⊢
  rw [hc, h]

theorem buffered_pressStatic (a : App) (resetTime : Instant) (key : KeyEvent) :
    Buffered a (wakingActions key) (a.pressStatic resetTime (mapInputCommand key)) := by
  unfold wakingActions pressStatic
  cases mapInputCommand key with
  | none => exact buffered_nil rfl
  | some command =>
    cases command with
    | Quit => exact buffered_nil rfl
    | Action action =>
      cases action with
      | Pause | Restart => exact ArrayVec.push_toList_take _ _
      | _ => exact buffered_nil rfl

theorem buffered_pressHandled (a : App) (keyTime : Instant) (code : KeyCode) :
    Buffered a (a.inputHandler.handleKeyPress keyTime code).2.toList (a.pressHandled keyTime code) := by
  unfold pressHandled
  generalize a.inputHandler.handleKeyPress keyTime code = pressed
  obtain ⟨handler, action⟩ := pressed
  cases action with
  | none => exact buffered_nil rfl
  | some action => exact ArrayVec.push_toList_take _ _

theorem buffered_pressMapped (a : App) (resetTime : Instant) (key : KeyEvent) :
    Buffered a (match mapInputCommand key with
      | some (.Action action) => if isMovement action then [] else [action]
      | _ => []) (a.pressMapped resetTime (mapInputCommand key)) := by
  unfold pressMapped
  cases mapInputCommand key with
  | none => exact buffered_nil rfl
  | some command =>
    cases command with
    | Quit => exact buffered_nil rfl
    | Action action =>
      cases hm : isMovement action with
      | true =>
        simp only [hm, if_true]
        exact buffered_nil rfl
      | false =>
        simp only [hm, Bool.false_eq_true, if_false]
        split
        · exact (buffered_push a action).congr rfl
        · exact buffered_push a action

theorem buffered_press (a : App) (e : Turn) (key : KeyEvent) :
    Buffered a (pressActions a e.keyTime key)
      ((a.pressHandled e.keyTime key.code.handlerCode).pressMapped e.resetTime
        (mapInputCommand key)) :=
  (buffered_pressHandled a e.keyTime key.code.handlerCode).trans (buffered_pressMapped _ _ key)

theorem buffered_onKey (a : App) (e : Turn) (key : KeyEvent) :
    (a.onKey e key).All (Buffered a (actionsOf a e.keyTime key)) := by
  unfold onKey actionsOf
  cases key.kind with
  | Press =>
    simp only
    split
    · trivial
    · split
      · exact buffered_pressStatic a _ key
      · exact buffered_press a e key
  | Repeat =>
    simp only
    split
    · exact buffered_nil rfl
    · split <;> exact buffered_nil rfl
  | Release =>
    simp only
    split <;> exact buffered_nil rfl

/-- The event of a turn buffers its actions. -/
theorem buffered_onEvent (a : App) (e : Turn) : (a.onEvent e).All (Buffered a (keyActions a e)) := by
  unfold onEvent keyActions
  cases e.event with
  | none => exact buffered_nil rfl
  | some event =>
    cases event with
    | Key key => exact buffered_onKey a e key
    | Resize => exact buffered_nil rfl
    | other => exact buffered_nil rfl

theorem foldl_push_toList {α : Type} {cap : ℕ} (xs : List α) (v : ArrayVec α cap) :
    (xs.foldl ArrayVec.push v).toList = (v.toList ++ xs).take cap := by
  induction xs generalizing v with
  | nil => rw [List.foldl_nil, List.append_nil, ArrayVec.take_toList]
  | cons x xs ih =>
    rw [List.foldl_cons, ih, ArrayVec.push_toList_take, take_append_take, List.append_assoc]
    rfl

theorem frozen_rejects {s : GameState} (h : Frozen s) {action : GameAction}
    (hp : action ≠ .Pause) (hr : action ≠ .Restart) : accepts s action = false := by
  unfold accepts
  rcases h with h | h <;> simp [h, hp, hr]

theorem repeated_movement (handler : InputHandler) (now : Instant) (elapsedMs : UInt32)
    {action : GameAction} (h : action ∈ (handler.update now elapsedMs).2.toList) :
    isMovement action = true := by
  rw [update_actions] at h
  rcases List.mem_append.mp (List.mem_of_mem_take h) with h | h
  · obtain ⟨-, rfl⟩ := List.mem_replicate.mp h
    cases (handler.autoRelease now).horizontal <;> rfl
  · obtain ⟨-, rfl⟩ := List.mem_replicate.mp h
    rfl

/-- A placement is refused by a frozen game, so only actions can do harm. -/
def HarmlessCommand (s : GameState) : GameCommand → Prop
  | .Actions actions _ => ∀ action ∈ actions.toList, accepts s action = false
  | .Place _ _ _ => True

def Harmless (s : GameState) (inbound : InboundCommand) : Prop :=
  ∀ pending, inbound.pendingCommand = some pending → HarmlessCommand s pending.command

/-- Neither the buffer nor the queue holds anything that the game would take. -/
structure Still (s : GameState) (a : App) : Prop where
  game : a.game = s
  pending : ∀ action ∈ a.pendingLocalActions.toList, accepts s action = false
  queued : ∀ queue, a.adapter = some queue → ∀ inbound ∈ queue, Harmless s inbound

/-- No key and no message of the turn asks for what the game would take. -/
structure Calm (s : GameState) (e : Turn) : Prop where
  key : ∀ key, e.event = some (.Key key) → ∀ action ∈ wakingActions key, accepts s action = false
  arrivals : ∀ i, ∀ inbound ∈ e.arrivals i, Harmless s inbound

theorem accepts_restart (s : GameState) : accepts s .Restart = true := by simp [accepts]

theorem ignored_actions {s : GameState} (actions : List GameAction) (restartSeed : Option UInt32)
    (h : ∀ action ∈ actions, accepts s action = false) : applyActions actions restartSeed s = s := by
  induction actions with
  | nil => rfl
  | cons action actions ih =>
    have ha := h action List.mem_cons_self
    have hne : action ≠ .Restart := by
      rintro rfl
      rw [accepts_restart] at ha
      cases ha
    have htaken : takenSeed action restartSeed = none := if_neg hne
    unfold applyActions
    rw [htaken, applyAction_rejected s action ha]
    exact ih fun other ho => h other (List.mem_cons_of_mem _ ho)

theorem frozen_place {s : GameState} (h : Frozen s) (x : Int8) (rotation : Rotation)
    (useHold : Bool) : (applyPlace s x rotation useHold).1 = s := by
  have hflags : (s.paused || s.gameOver) = true := by
    rcases h with h | h <;> simp [h]
  have herror : (applyPlace s x rotation useHold).2 = .error .NotPlayable := by
    unfold applyPlace applyPlaceInPlace
    rw [if_pos hflags]
  exact applyPlace_error herror

theorem frozen_command {s : GameState} (hs : Frozen s) {command : GameCommand}
    (h : HarmlessCommand s command) : (applyGameCommand s command).1 = s := by
  cases command with
  | Actions actions restartSeed => exact ignored_actions actions.toList restartSeed h
  | Place x rotation useHold => exact frozen_place hs x rotation useHold

theorem frozen_remote {s : GameState} (hs : Frozen s) (commands : List GameCommand)
    (h : ∀ command ∈ commands, HarmlessCommand s command) : (applyRemote commands s).1 = s := by
  induction commands with
  | nil => rfl
  | cons command commands ih =>
    change (applyRemote commands (applyGameCommand s command).1).1 = s
    rw [frozen_command hs (h command List.mem_cons_self)]
    exact ih fun other ho => h other (List.mem_cons_of_mem _ ho)

theorem ignored_local {s : GameState} (actions : List GameAction)
    (h : ∀ action ∈ actions, accepts s action = false) : applyLocal actions s = s := by
  induction actions with
  | nil => rfl
  | cons action actions ih =>
    change applyLocal actions (s.applyAction action).1 = s
    rw [applyAction_rejected s action (h action List.mem_cons_self)]
    exact ih fun other ho => h other (List.mem_cons_of_mem _ ho)

/-- One step of the session leaves a frozen game as it is. -/
theorem frozen_transition {session : SessionRuntime} (hs : Frozen session.game)
    (he : session.game.lastEvent = none) (input : StepInput)
    (hr : ∀ command ∈ input.remote.toList, HarmlessCommand session.game command)
    (hl : ∀ action ∈ input.locals.toList, accepts session.game action = false) :
    (session.transition input).1.game = session.game := by
  change { ((applyLocal input.locals.toList (applyRemote input.remote.toList session.game).1).tick
    tickMs false).1 with lastEvent := none } = session.game
  rw [frozen_remote hs _ hr, ignored_local _ hl, frozen_tick hs, ← he]

/-- One step of the loop with nothing harmful in the queue. -/
theorem calm_stepSession {s : LoopState} (hs : Frozen s.session.game)
    (he : s.session.game.lastEvent = none) (adapter : Option (List InboundCommand))
    (hq : ∀ queue, adapter = some queue → ∀ inbound ∈ queue, Harmless s.session.game inbound)
    (locals : ArrayVec GameAction maxLocalActionsPerStep)
    (hl : ∀ action ∈ locals.toList, accepts s.session.game action = false) (streaming : Bool) :
    (stepSession adapter s locals streaming).state.session.game = s.session.game ∧
      ∀ queue, (stepSession adapter s locals streaming).queue = some queue →
        ∀ inbound ∈ queue, Harmless s.session.game inbound := by
  cases adapter with
  | none => exact ⟨frozen_transition hs he ⟨_, locals⟩ nofun hl, nofun⟩
  | some queue =>
    obtain ⟨hpending, hrest⟩ := drain_pending s.session AdapterGameLoop.maxCommandsPerStep queue
      (.start s.observations) (Nat.le_of_eq (Nat.zero_add _))
    refine ⟨frozen_transition hs he ⟨_, locals⟩ ?_ hl, ?_⟩
    · intro command hm
      obtain ⟨pending, hp, rfl⟩ := List.mem_map.mp hm
      rw [hpending] at hp
      obtain ⟨inbound, hin, hpc⟩ := List.mem_filterMap.mp hp
      exact hq queue rfl inbound (List.mem_of_mem_take hin) pending hpc
    · intro rest hr inbound hm
      cases hr
      rw [hrest] at hm
      exact hq queue rfl inbound (List.mem_of_mem_drop hm)

theorem calm_locals {a : App} (hs : Frozen a.game)
    (h : ∀ action ∈ a.pendingLocalActions.toList, accepts a.game action = false) (e : Turn) (i : ℕ) :
    ∀ action ∈ (a.fixedStep e i).2.locals.toList, accepts a.game action = false := by
  intro action hm
  have hfold : (a.fixedStep e i).2.locals.toList = _ := foldl_push_toList _ _
  rw [hfold] at hm
  rcases List.mem_append.mp (List.mem_of_mem_take hm) with hm | hm
  · by_cases hi : i = 0
    · rw [if_pos hi] at hm
      exact h action hm
    · rw [if_neg hi] at hm
      cases hm
  · have hmove := repeated_movement _ _ _ hm
    refine frozen_rejects hs ?_ ?_ <;> rintro rfl <;> cases hmove

theorem calm_fixedStep {s : GameState} (hs : Frozen s) (he : s.lastEvent = none) {a : App}
    (h : Still s a) {e : Turn} (hc : Calm s e) (i : ℕ) : Still s (a.fixedStep e i).1 := by
  obtain ⟨rfl, hpending, hqueued⟩ := h
  have harrived : ∀ queue, a.adapter.map (· ++ e.arrivals i) = some queue →
      ∀ inbound ∈ queue, Harmless a.game inbound := by
    intro queue hq inbound hm
    obtain ⟨before, hbefore, rfl⟩ := Option.map_eq_some_iff.mp hq
    rcases List.mem_append.mp hm with hm | hm
    · exact hqueued before hbefore inbound hm
    · exact hc.arrivals i inbound hm
  obtain ⟨hgame, hqueue⟩ := calm_stepSession (s := a.loop) hs he _ harrived
    (a.fixedStep e i).2.locals (calm_locals hs hpending e i) (a.adapterView.streamingCount > 0)
  refine ⟨hgame, ?_, hqueue⟩
  intro action hm
  by_cases hi : i = 0
  · have hempty : (a.fixedStep e i).1.pendingLocalActions = .empty := if_pos hi
    rw [hempty] at hm
    cases hm
  · have hsame : (a.fixedStep e i).1.pendingLocalActions = a.pendingLocalActions := if_neg hi
    rw [hsame] at hm
    exact hpending action hm

theorem calm_fixedSteps {s : GameState} (hs : Frozen s) (he : s.lastEvent = none) {a : App}
    (h : Still s a) {e : Turn} (hc : Calm s e) (n i : ℕ) : Still s (a.fixedSteps e n i).1 := by
  induction n generalizing a i with
  | zero => exact h
  | succ n ih => exact ih (calm_fixedStep hs he h hc i) (i + 1)

theorem Still.congr {s : GameState} {a b : App} (h : Still s a) (hl : b.loop = a.loop)
    (hp : b.pendingLocalActions = a.pendingLocalActions) (ha : b.adapter = a.adapter) : Still s b := by
  obtain ⟨hgame, hpending, hqueued⟩ := h
  refine ⟨?_, hp ▸ hpending, ha ▸ hqueued⟩
  unfold App.game
  rw [hl]
  exact hgame

theorem calm_keyActions {s : GameState} (hs : Frozen s) {a : App} (hg : a.game = s) {e : Turn}
    (hc : Calm s e) : ∀ action ∈ keyActions a e, accepts s action = false := by
  have hstatic : a.isStatic = true := by
    unfold isStatic
    rw [hg]
    rcases hs with h | h <;> simp [h]
  intro action hm
  unfold keyActions at hm
  cases he : e.event with
  | none =>
    rw [he] at hm
    cases hm
  | some event =>
    rw [he] at hm
    cases event with
    | Resize => cases hm
    | other => cases hm
    | Key key =>
      unfold actionsOf at hm
      simp only [hstatic, if_true] at hm
      split at hm
      · split at hm
        · cases hm
        · exact hc.key key he action hm
      · cases hm

theorem still_prepare {s : GameState} {a : App} (h : Still s a) (e : Turn) : Still s (a.prepare e) := by
  unfold prepare
  rw [takeStatuses_eq]
  exact h.congr rfl rfl rfl

theorem still_event {s : GameState} (hs : Frozen s) {a b : App} (h : Still s a) {e : Turn}
    (hc : Calm s e) (hk : Kept a b) (hb : Buffered a (keyActions a e) b) : Still s b := by
  refine ⟨?_, ?_, hk.adapter ▸ h.queued⟩
  · unfold App.game
    rw [hk.loop]
    exact h.game
  · intro action hm
    rw [hb] at hm
    rcases List.mem_append.mp (List.mem_of_mem_take hm) with hm | hm
    · exact h.pending action hm
    · exact calm_keyActions hs h.game hc action hm

theorem still_sample {s : GameState} (hs : Frozen s) (he : s.lastEvent = none) {a : App}
    (h : Still s a) {e : Turn} (hc : Calm s e) : Still s (a.sample e).1 := by
  have hsampled : Still s { a with
      clock := (advanced a.clock (e.sampleTime.saturatingSub a.lastSample)).clock
      lastSample := e.sampleTime } := h.congr rfl rfl rfl
  exact calm_fixedSteps hs he hsampled hc _ 0

theorem still_turn {s : GameState} (hs : Frozen s) (he : s.lastEvent = none) {a : App}
    (h : Still s a) {e : Turn} (hc : Calm s e) : Still s (a.turn e) := by
  have hp := still_prepare h e
  have hk := kept_onEvent (a.prepare e) e
  have hb := buffered_onEvent (a.prepare e) e
  unfold turn turnLogged
  split
  · exact h
  · cases hf : (a.prepare e).onEvent e with
    | quit => exact hp.congr rfl rfl rfl
    | skip b =>
      rw [hf] at hk hb
      exact still_event hs hp hc hk hb
    | proceed b =>
      rw [hf] at hk hb
      exact still_sample hs he (still_event hs hp hc hk hb) hc

/-- A game that is paused or over stays as it is, through any number of turns with keys and
messages in them, until one of them asks for what wakes it. -/
theorem still_run {a : App} (hs : Frozen a.game) (he : a.game.lastEvent = none)
    (hpending : ∀ action ∈ a.pendingLocalActions.toList, accepts a.game action = false)
    (hqueued : ∀ queue, a.adapter = some queue → ∀ inbound ∈ queue, Harmless a.game inbound)
    (turns : List Turn) (hc : ∀ e ∈ turns, Calm a.game e) : (run turn a turns).game = a.game := by
  suffices hall : ∀ (b : App), Still a.game b → Still a.game (run turn b turns) from
    (hall a ⟨rfl, hpending, hqueued⟩).game
  induction turns with
  | nil => exact fun _ h => h
  | cons e turns ih =>
    intro b h
    exact ih (fun f hf => hc f (List.mem_cons_of_mem _ hf)) _
      (still_turn hs he h (hc e List.mem_cons_self))

/-- A paused game with a client. -/
def pausedApp : App :=
  { App.start (some []) ⟨true, 1, some 1, 0, 1, none⟩ (.V4 (.replicate 4 0)) (.new .zero) 20 .zero with
    loop := ⟨.fromGame { GameState.new 1 with paused := true }, .new (GameState.new 1) 20⟩ }

/-- The left key is pressed, and the client places a piece and asks for an observation. -/
def calmTurn : Turn :=
  { statuses := [], viewport := ⟨80, 24⟩, renderMs := 0,
    event := some (.Key ⟨.plain .Left, false, .Press⟩), keyTime := .zero, resetTime := .zero,
    sampleTime := ⟨16000000, tickNanos_lt⟩, stepTimes := fun _ => .zero,
    arrivals := fun _ => [⟨1, 2, .Command (.Place 0 .North false)⟩, ⟨1, 3, .SnapshotRequest⟩] }

theorem still_run_paused :
    (run turn pausedApp [calmTurn, { calmTurn with event := none }]).game = pausedApp.game := by
  have hharmless : ∀ i, ∀ inbound ∈ calmTurn.arrivals i, Harmless pausedApp.game inbound := by
    intro i inbound hm pending hp
    rcases List.mem_cons.mp hm with rfl | hm
    · cases hp
      trivial
    · obtain rfl := List.mem_singleton.mp hm
      cases hp
  refine still_run (.inl rfl) rfl (fun _ hm => absurd hm List.not_mem_nil) ?_ _ ?_
  · intro queue hq inbound hm
    cases hq
    cases hm
  · intro e he
    rcases List.mem_cons.mp he with rfl | he
    · refine ⟨?_, hharmless⟩
      intro key hkey action hm
      cases hkey
      cases hm
    · obtain rfl := List.mem_singleton.mp he
      exact ⟨nofun, hharmless⟩

end TuiTetris.AppRunnerKeys
