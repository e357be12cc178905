import TuiTetris.AdapterEmitStatus
import TuiTetris.AdapterGameLoop
import TuiTetris.LibTransition
import TuiTetris.SessionFixedStep
import TuiTetris.TermGameView
import TuiTetris.TermInputMap
import TuiTetris.TermRenderThrottle

set_option autoImplicit false

/-!
# The program on the terminal

One turn of the loop takes in the status of the adapter, draws, reads at most one event and
then takes the fixed steps that are due. What the turn learns from outside, the times it reads
included, is its argument.
-/
namespace TuiTetris.AppRunner
open CoreTypes CoreGameState CoreSnapshot CoreStateHash LibArrayVec LibDuration LibTransition
open SessionEngine SessionFixedStep AdapterGameLoop TermGameView
open AdapterEmitStatus (AdapterStatus)
open TermInputHandler TermInputMap TermRenderThrottle

/-! ## The fingerprint of a frame -/

inductive IpAddr where
  | V4 (octets : Vector UInt8 4)
  | V6 (segments : Vector UInt16 8)
  deriving DecidableEq

def pieceIndex : PieceKind → UInt64
  | .I => 0
  | .O => 1
  | .T => 2
  | .S => 3
  | .Z => 4
  | .J => 5
  | .L => 6

def flagWord (b : Bool) : UInt64 := if b then 1 else 0

def addressWords : IpAddr → List UInt64
  | .V4 octets => 1 :: octets.toList.map UInt8.toUInt64
  | .V6 segments => 0 :: segments.toList.map UInt16.toUInt64

/-- What is pushed into the hash; the view keeps of the listen address only its port. -/
def fingerprintWords (game : GameState) (adapter : AdapterStatusView) (listenIp : IpAddr)
    (viewport : Viewport) : List UInt64 :=
  [UInt64.ofNat viewport.width, UInt64.ofNat viewport.height, game.boardId.toUInt64,
    game.episodeId.toUInt64, game.pieceId.toUInt64, game.activeId.toUInt64,
    game.stepInPiece.toUInt64, game.score.toUInt64, game.level.toUInt64, game.lines.toUInt64,
    flagWord game.canHold, flagWord game.paused, flagWord game.gameOver,
    (game.hold.map pieceIndex).getD (-1)] ++
  game.nextQueue.toList.map pieceIndex ++
  [flagWord adapter.enabled, UInt64.ofNat adapter.clientCount, UInt64.ofNat adapter.streamingCount,
    (adapter.controllerId.map UInt64.ofNat).getD (-1), adapter.pid.toUInt64] ++
  match adapter.listenPort with
  | some port => addressWords listenIp ++ [UInt64.ofNat port]
  | none => [-1]

def renderFingerprint (game : GameState) (adapter : AdapterStatusView) (listenIp : IpAddr)
    (viewport : Viewport) : UInt64 :=
  hashBytes offsetBasis ((fingerprintWords game adapter listenIp viewport).flatMap leBytes64)

/-! ## The state of the program -/

/-- A frame as it was drawn, and when. -/
structure Frame where
  game : GameState
  model : GameViewModel
  viewport : Viewport
  drawnMs : UInt64
  fingerprint : UInt64

/-- `adapter` is the queue of inbound messages, `ended` tells that the loop has returned. -/
structure App where
  loop : LoopState
  adapter : Option (List InboundCommand)
  adapterView : AdapterStatusView
  listenIp : IpAddr
  inputHandler : InputHandler
  renderThrottle : RenderThrottle
  shown : Option Frame
  pendingLocalActions : ArrayVec GameAction maxLocalActionsPerStep
  clock : FixedStepClock
  lastSample : Instant
  ended : Bool

def App.game (a : App) : GameState := a.loop.session.game

structure Turn where
  statuses : List AdapterStatus
  viewport : Viewport
  renderMs : UInt64
  event : Option TermEvent
  keyTime : Instant
  resetTime : Instant
  sampleTime : Instant
  stepTimes : ℕ → Instant
  arrivals : ℕ → List InboundCommand

theorem tickNanos_lt : 16000000 < nanosLimit := by decide

def tickDuration : Duration := ⟨16000000, tickNanos_lt⟩

def maxCatchUpSteps : UInt32 := 8

def startClock : FixedStepClock := ⟨tickDuration, maxCatchUpSteps, .zero, by decide, by decide⟩

namespace App

def start (adapter : Option (List InboundCommand)) (adapterView : AdapterStatusView)
    (listenIp : IpAddr) (inputHandler : InputHandler) (observationHz : UInt32) (now : Instant) :
    App :=
  { loop := .new 1 observationHz, adapter, adapterView, listenIp, inputHandler,
    renderThrottle := .new 250, shown := none, pendingLocalActions := .empty, clock := startClock,
    lastSample := now, ended := false }

def takeStatus (a : App) (status : AdapterStatus) : App :=
  { a with adapterView := { a.adapterView with
      enabled := true, clientCount := status.clientCount, controllerId := status.controllerId,
      streamingCount := status.streamingCount } }

/-- The updates that have come in; without an adapter there are none. -/
def takeStatuses (a : App) (statuses : List AdapterStatus) : App :=
  if a.adapter.isSome then statuses.foldl takeStatus a else a

def isStatic (a : App) : Bool := a.game.paused || a.game.gameOver

def fingerprint (a : App) (viewport : Viewport) : UInt64 :=
  renderFingerprint a.game a.adapterView a.listenIp viewport

/-- What a frame drawn now shows. -/
def frame (a : App) (viewport : Viewport) (nowMs : UInt64) : Frame :=
  ⟨a.game, ⟨a.loop.session.snapshot, some a.adapterView⟩, viewport, nowMs, a.fingerprint viewport⟩

def draw (a : App) (viewport : Viewport) (nowMs : UInt64) : App :=
  let decided := a.renderThrottle.shouldRender nowMs (a.fingerprint viewport) a.isStatic
  { a with
    renderThrottle := decided.1
    shown := if decided.2 then some (a.frame viewport nowMs) else a.shown }

/-! ## Keys -/

/-- What becomes of the rest of the turn: `skip` is the `continue` of the source. -/
inductive Flow where
  | quit
  | skip (a : App)
  | proceed (a : App)

def push (a : App) (action : GameAction) : App :=
  { a with pendingLocalActions := a.pendingLocalActions.push action }

/-- A press while the game is paused or over. -/
def pressStatic (a : App) (resetTime : Instant) (command : Option InputCommand) : App :=
  let a := { a with inputHandler := a.inputHandler.reset resetTime }
  match command with
  | some (.Action .Pause) => a.push .Pause
  | some (.Action .Restart) => a.push .Restart
  | _ => a

def pressHandled (a : App) (keyTime : Instant) (code : KeyCode) : App :=
  let pressed := a.inputHandler.handleKeyPress keyTime code
  let a := { a with inputHandler := pressed.1 }
  match pressed.2 with
  | some action => a.push action
  | none => a

/-- Movement is left to the handler. -/
def pressMapped (a : App) (resetTime : Instant) (command : Option InputCommand) : App :=
  match command with
  | some (.Action action) =>
    if isMovement action then a
    else
      let a := a.push action
      if action = .Pause ∨ action = .Restart then
        { a with inputHandler := a.inputHandler.reset resetTime }
      else a
  | _ => a

def onKey (a : App) (e : Turn) (key : KeyEvent) : Flow :=
  match key.kind with
  | .Press =>
    let command := mapInputCommand key
    if command = some .Quit then .quit
    else if a.isStatic then .skip (a.pressStatic e.resetTime command)
    else .proceed ((a.pressHandled e.keyTime key.code.handlerCode).pressMapped e.resetTime command)
  | .Repeat =>
    if a.isStatic then .skip a
    else if InputHandler.isMovementKey key.code.handlerCode then
      .proceed { a with inputHandler := a.inputHandler.handleKeyRepeat e.keyTime key.code.handlerCode }
    else .proceed a
  | .Release =>
    if a.isStatic then .skip a
    else .proceed { a with inputHandler := a.inputHandler.handleKeyRelease key.code.handlerCode }

def onEvent (a : App) (e : Turn) : Flow :=
  match e.event with
  | some (.Key key) => a.onKey e key
  | _ => .proceed a

/-! ## Steps -/

/-- The keys that a fixed step takes out of the buffer, the repeats that follow them, what the
session is given and what the clients are sent. -/
structure StepLog where
  keyed : ArrayVec GameAction maxLocalActionsPerStep
  repeated : Actions
  locals : ArrayVec GameAction maxLocalActionsPerStep
  sent : List Outbound

/-- The buffered keys go into the first step of a burst. -/
def fixedStep (a : App) (e : Turn) (i : ℕ) : App × StepLog :=
  let keyed := if i = 0 then a.pendingLocalActions else .empty
  let updated := a.inputHandler.update (e.stepTimes i) tickMs
  let locals := updated.2.toList.foldl ArrayVec.push keyed
  let stepped := stepSession (a.adapter.map (· ++ e.arrivals i)) a.loop locals
    (a.adapterView.streamingCount > 0)
  ({ a with
      loop := stepped.state
      adapter := stepped.queue
      inputHandler := updated.1
      pendingLocalActions := if i = 0 then .empty else a.pendingLocalActions },
    ⟨keyed, updated.2, locals, stepped.sent⟩)

/-- Step `i` and those after it, `n` in all. -/
def fixedSteps (a : App) (e : Turn) : ℕ → ℕ → App × List StepLog
  | 0, _ => (a, [])
  | n + 1, i =>
    let stepped := a.fixedStep e i
    let rest := fixedSteps stepped.1 e n (i + 1)
    (rest.1, stepped.2 :: rest.2)

end App

/-- `advance` never stops with a fault. -/
def advanced (c : FixedStepClock) (elapsed : Duration) : Advance :=
  (c.advance elapsed).toOption.get (by
    obtain ⟨called, h, -, -⟩ := advance_spec c elapsed
    rw [h]
    rfl)

theorem advanced_spec (c : FixedStepClock) (elapsed : Duration) :
    c.advance elapsed = .ok (advanced c elapsed) ∧ Bounded c (advanced c elapsed) ∧
      (advanced c elapsed).due.toNat * c.tick.asNanos +
          (advanced c elapsed).clock.backlog.asNanos =
        (c.backlog.saturatingAdd elapsed).asNanos := by
  obtain ⟨called, h, hbound, hmoved⟩ := advance_spec c elapsed
  have hcalled : advanced c elapsed = called := by
    unfold advanced
    simp only [h]
    rfl
  rw [hcalled]
  exact ⟨h, hbound, hmoved⟩

namespace App

def sample (a : App) (e : Turn) : App × List StepLog :=
  let called := advanced a.clock (e.sampleTime.saturatingSub a.lastSample)
  fixedSteps { a with clock := called.clock, lastSample := e.sampleTime } e called.due.toNat 0

/-- The app up to its event. -/
def prepare (a : App) (e : Turn) : App :=
  (a.takeStatuses e.statuses).draw e.viewport e.renderMs

def turnLogged (a : App) (e : Turn) : App × List StepLog :=
  if a.ended then (a, [])
  else
    match (a.prepare e).onEvent e with
    | .quit => ({ a.prepare e with ended := true }, [])
    | .skip a => (a, [])
    | .proceed a => a.sample e

def turn (a : App) (e : Turn) : App := (a.turnLogged e).1

def logs (a : App) (e : Turn) : List StepLog := (a.turnLogged e).2

/-! ## What the parts of a turn leave alone -/

/-- Only the input handler and the buffered keys differ. -/
structure Kept (a b : App) : Prop where
  loop : b.loop = a.loop
  adapter : b.adapter = a.adapter
  adapterView : b.adapterView = a.adapterView
  listenIp : b.listenIp = a.listenIp
  renderThrottle : b.renderThrottle = a.renderThrottle
  shown : b.shown = a.shown
  clock : b.clock = a.clock
  lastSample : b.lastSample = a.lastSample
  ended : b.ended = a.ended

theorem Kept.rfl {a : App} : Kept a a :=
  ⟨Eq.refl _, Eq.refl _, Eq.refl _, Eq.refl _, Eq.refl _, Eq.refl _, Eq.refl _, Eq.refl _, Eq.refl _⟩

theorem Kept.trans {a b c : App} (h : Kept a b) (k : Kept b c) : Kept a c :=
  ⟨k.loop.trans h.loop, k.adapter.trans h.adapter, k.adapterView.trans h.adapterView,
    k.listenIp.trans h.listenIp, k.renderThrottle.trans h.renderThrottle, k.shown.trans h.shown,
    k.clock.trans h.clock, k.lastSample.trans h.lastSample, k.ended.trans h.ended⟩

theorem kept_push (a : App) (action : GameAction) : Kept a (a.push action) := { Kept.rfl with }

theorem kept_handler (a : App) (handler : InputHandler) :
    Kept a { a with inputHandler := handler } := { Kept.rfl with }

theorem kept_pressStatic (a : App) (resetTime : Instant) (command : Option InputCommand) :
    Kept a (a.pressStatic resetTime command) := by
  unfold pressStatic
  split
  · exact (kept_handler a _).trans (kept_push _ _)
  · exact (kept_handler a _).trans (kept_push _ _)
  · exact kept_handler a _

theorem kept_pressHandled (a : App) (keyTime : Instant) (code : KeyCode) :
    Kept a (a.pressHandled keyTime code) := by
  unfold pressHandled
  simp only
  split
  · exact (kept_handler a _).trans (kept_push _ _)
  · exact kept_handler a _

theorem kept_pressMapped (a : App) (resetTime : Instant) (command : Option InputCommand) :
    Kept a (a.pressMapped resetTime command) := by
  unfold pressMapped
  split
  · split
    · exact .rfl
    · simp only
      split
      · exact (kept_push a _).trans (kept_handler _ _)
      · exact kept_push a _
  · exact .rfl

/-- A property of the app that a flow goes on with. -/
def Flow.All (P : App → Prop) : Flow → Prop
  | .quit => True
  | .skip a => P a
  | .proceed a => P a

theorem kept_onEvent (a : App) (e : Turn) : (a.onEvent e).All (Kept a) := by
  unfold onEvent
  split
  · next key _ =>
    unfold onKey
    split
    · simp only
      split
      · trivial
      · split
        · exact kept_pressStatic a _ _
        · exact (kept_pressHandled a _ _).trans (kept_pressMapped _ _ _)
    · split
      · exact .rfl
      · split
        · exact kept_handler a _
        · exact .rfl
    · split
      · exact .rfl
      · exact kept_handler a _
  · exact .rfl

/-- The steps change neither the screen nor the clock. -/
structure Stepped (a b : App) : Prop where
  adapterView : b.adapterView = a.adapterView
  listenIp : b.listenIp = a.listenIp
  renderThrottle : b.renderThrottle = a.renderThrottle
  shown : b.shown = a.shown
  clock : b.clock = a.clock
  lastSample : b.lastSample = a.lastSample
  ended : b.ended = a.ended

theorem stepped_fixedSteps (a : App) (e : Turn) (n i : ℕ) : Stepped a (a.fixedSteps e n i).1 := by
  induction n generalizing a i with
  | zero => exact ⟨rfl, rfl, rfl, rfl, rfl, rfl, rfl⟩
  | succ n ih =>
    obtain ⟨h1, h2, h3, h4, h5, h6, h7⟩ := ih (a.fixedStep e i).1 (i + 1)
    exact ⟨h1, h2, h3, h4, h5, h6, h7⟩

/-- What a status update can change. -/
theorem takeStatuses_eq (a : App) (statuses : List AdapterStatus) :
    a.takeStatuses statuses =
      { a with adapterView := (a.takeStatuses statuses).adapterView } := by
  have hfold : ∀ b : App, statuses.foldl takeStatus b =
      { b with adapterView := (statuses.foldl takeStatus b).adapterView } := by
    induction statuses with
    | nil => exact fun _ => rfl
    | cons status statuses ih => exact fun b => (ih (b.takeStatus status)).trans rfl
  unfold takeStatuses
  split
  · exact hfold a
  · rfl

/-! ## The frame on the screen -/

/-- The throttle remembers of the shown frame what it compares. -/
structure Drawn (a : App) : Prop where
  interval : a.renderThrottle.minStaticIntervalMs = 250
  rendered : a.renderThrottle.hasRendered = a.shown.isSome
  fingerprint : ∀ f, a.shown = some f → f.fingerprint = a.renderThrottle.lastFingerprint
  drawnMs : ∀ f, a.shown = some f → f.drawnMs = a.renderThrottle.lastRenderMs
  own : ∀ f, a.shown = some f → ∃ view, f.model.adapter = some view ∧
    f.fingerprint = renderFingerprint f.game view a.listenIp f.viewport

theorem Drawn.congr {a b : App} (h : Drawn a) (ht : b.renderThrottle = a.renderThrottle)
    (hs : b.shown = a.shown) (hi : b.listenIp = a.listenIp) : Drawn b := by
  constructor
  · rw [ht]
    exact h.interval
  · rw [ht, hs]
    exact h.rendered
  · rw [ht, hs]
    exact h.fingerprint
  · rw [ht, hs]
    exact h.drawnMs
  · rw [hs, hi]
    exact h.own

/-- The frame shows the present, or the present is still and its frame recent. -/
def Fresh (a : App) (viewport : Viewport) (nowMs : UInt64) (f : Frame) : Prop :=
  f.fingerprint = a.fingerprint viewport ∧
    (f = a.frame viewport nowMs ∨ a.isStatic = true ∧ nowMs.toNat < f.drawnMs.toNat + 250)

theorem drawn_draw {a : App} (h : Drawn a) (viewport : Viewport) (nowMs : UInt64) :
    Drawn (a.draw viewport nowMs) ∧
      ∃ f, (a.draw viewport nowMs).shown = some f ∧ Fresh a viewport nowMs f := by
  unfold draw
  rcases a.renderThrottle.shouldRender_cases nowMs (a.fingerprint viewport) a.isStatic with
    hd | ⟨hd, hrendered, hstatic, hsame, hrecent⟩
  · rw [hd]
    refine ⟨⟨h.interval, rfl, ?_, ?_, ?_⟩, a.frame viewport nowMs, rfl, rfl, .inl rfl⟩
    · intro f hf
      cases hf
      rfl
    · intro f hf
      cases hf
      rfl
    · intro f hf
      cases hf
      exact ⟨a.adapterView, rfl, rfl⟩
  · rw [hd]
    refine ⟨h.congr rfl rfl rfl, ?_⟩
    obtain ⟨f, hf⟩ := Option.isSome_iff_exists.mp (h.rendered.symm.trans hrendered)
    refine ⟨f, hf, (h.fingerprint f hf).trans hsame.symm, .inr ⟨hstatic, ?_⟩⟩
    rw [h.interval, RenderThrottle.sinceLast, ← h.drawnMs f hf, UInt64.lt_iff_toNat_lt] at hrecent
    split at hrecent
    · next hle =>
      rw [UInt64.toNat_sub_of_le _ _ hle] at hrecent
      have hlimit : (250 : UInt64).toNat = 250 := rfl
      omega
    · next hlt =>
      have hless := UInt64.lt_iff_toNat_lt.mp (UInt64.not_le.mp hlt)
      omega

theorem drawn_takeStatuses {a : App} (h : Drawn a) (statuses : List AdapterStatus) :
    Drawn (a.takeStatuses statuses) := by
  rw [takeStatuses_eq]
  exact h.congr rfl rfl rfl

theorem drawn_prepare {a : App} (h : Drawn a) (e : Turn) : Drawn (a.prepare e) :=
  (drawn_draw (drawn_takeStatuses h e.statuses) e.viewport e.renderMs).1

theorem drawn_sample {a : App} (h : Drawn a) (e : Turn) : Drawn (a.sample e).1 := by
  have hs := stepped_fixedSteps { a with
    clock := (advanced a.clock (e.sampleTime.saturatingSub a.lastSample)).clock
    lastSample := e.sampleTime } e
    (advanced a.clock (e.sampleTime.saturatingSub a.lastSample)).due.toNat 0
  exact h.congr hs.renderThrottle hs.shown hs.listenIp

theorem drawn_turn {a : App} (h : Drawn a) (e : Turn) : Drawn (a.turn e) := by
  have hp := drawn_prepare h e
  have hk := kept_onEvent (a.prepare e) e
  unfold turn turnLogged
  split
  · exact h
  · cases hf : (a.prepare e).onEvent e with
    | quit => exact hp.congr rfl rfl rfl
    | skip b =>
      rw [hf] at hk
      exact hp.congr hk.renderThrottle hk.shown hk.listenIp
    | proceed b =>
      rw [hf] at hk
      exact drawn_sample (hp.congr hk.renderThrottle hk.shown hk.listenIp) e

theorem drawn_run {a : App} (h : Drawn a) (turns : List Turn) : Drawn (run turn a turns) :=
  run_invariant (I := Drawn) (fun _ e h => drawn_turn h e) h turns

end App

end TuiTetris.AppRunner
