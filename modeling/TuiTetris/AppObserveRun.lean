import TuiTetris.AppObserve
import TuiTetris.LibTransition
import TuiTetris.TermInputMap

set_option autoImplicit false

/-!
# The observer over many connections

It connects until a server welcomes it, follows that connection, and connects again when the
connection fails. What the network does is the argument of each step.
-/
namespace TuiTetris.AppObserveRun
open CoreSnapshot LibDecimal LibText LibTransition AdapterObservation AdapterProtocol
open AppObserve
open TermGameView (Viewport)
open TermInputMap

/-! ## Connecting -/

/-- A connection that was refused, or one with all that its thread will ever report; `waits` tells
of each wait whether something came in time. -/
inductive Attempt where
  | refused (error : Text)
  | connected (events : List ObserveEvent) (waits : List Bool)

/-- The deadline has passed, or the loop has what it waits for. -/
def welcomed (gotWelcome : Bool) (firstObs : Option ObservationMessage) (rx : List ObserveEvent) :
    Except Text (Option ObservationMessage × List ObserveEvent) :=
  if gotWelcome then .ok (firstObs, rx) else .error "observe: did not receive welcome".toList

def waitForWelcome : List Bool → Bool → Option ObservationMessage → List ObserveEvent →
    Except Text (Option ObservationMessage × List ObserveEvent)
  | [], gotWelcome, firstObs, rx => welcomed gotWelcome firstObs rx
  | false :: waits, gotWelcome, firstObs, rx => waitForWelcome waits gotWelcome firstObs rx
  | true :: _, _, _, [] => .error "observe: event channel disconnected".toList
  | true :: waits, gotWelcome, firstObs, event :: rx =>
    match event with
    | .Welcome =>
      if firstObs.isSome then welcomed true firstObs rx else waitForWelcome waits true firstObs rx
    | .Observation obs =>
      if gotWelcome then welcomed gotWelcome (some obs) rx
      else waitForWelcome waits gotWelcome (some obs) rx
    | .Error msg => .error msg
    | .Closed => .error "observe: connection closed".toList

/-- A connection that has welcomed the observer. `taken` has been received from it, `rx` has not. -/
structure Connection where
  events : List ObserveEvent
  taken : List ObserveEvent
  rx : List ObserveEvent
  firstObs : Option ObservationMessage

/-- What the wait has left of the events. -/
def Connection.waited (events : List ObserveEvent)
    (r : Option ObservationMessage × List ObserveEvent) : Connection :=
  ⟨events, events.take (events.length - r.2.length), r.2, r.1⟩

def Attempt.connect : Attempt → Except Text Connection
  | .refused error => .error error
  | .connected events waits => (waitForWelcome waits false none events).map (.waited events)

def connectLoop (maxAttempts : ℕ) (attempts : ℕ → Attempt) : ℕ → ℕ → Text → Except Text Connection
  | 0, _, lastError =>
    .error ("observe: reconnect failed after ".toList ++ decimal maxAttempts ++
      " attempts: ".toList ++ lastError)
  | n + 1, attempt, _ =>
    match (attempts attempt).connect with
    | .ok c => .ok c
    | .error e => connectLoop maxAttempts attempts n (attempt + 1) e

def connectObserverWithRetry (maxAttempts : ℕ) (attempts : ℕ → Attempt) : Except Text Connection :=
  connectLoop (max maxAttempts 1) attempts (max maxAttempts 1) 0
    "observe: reconnect attempts exhausted".toList

/-! ## The loop -/

/-- What a frame was drawn from. -/
structure ObserveFrame where
  obs : Option ObservationMessage
  snap : GameSnapshot
  viewport : Viewport

/-- `earlier` has been received from the connections before this one. -/
structure Observer where
  connection : Connection
  earlier : List ObserveEvent
  latestObs : Option ObservationMessage
  snap : GameSnapshot
  lastTermSize : Viewport
  dirty : Bool
  shown : Option ObserveFrame
  ended : Bool

def defaultAttempts : ℕ := 20

/-- Of each event that is polled: what connecting anew would meet with. -/
structure ObserveTurn where
  polls : List (ℕ → Attempt)
  size : Viewport
  event : Option TermEvent

def quits (key : KeyEvent) : Bool := key.kind = .Press && mapInputCommand key = some .Quit

namespace Observer

def start (c : Connection) : Observer :=
  { connection := c, earlier := [], latestObs := c.firstObs,
    snap := (c.firstObs.map snapshotFromObservation).getD .default, lastTermSize := ⟨0, 0⟩,
    dirty := true, shown := none, ended := false }

def observe (o : Observer) (obs : ObservationMessage) : Observer :=
  { o with latestObs := some obs, snap := snapshotFromObservation obs, dirty := true }

/-- Without a first observation the old picture stays. -/
def reconnect (o : Observer) (attempts : ℕ → Attempt) : Observer :=
  match connectObserverWithRetry defaultAttempts attempts with
  | .ok c =>
    { o with
      connection := c, earlier := o.earlier ++ o.connection.taken, latestObs := c.firstObs,
      snap := (c.firstObs.map snapshotFromObservation).getD o.snap, dirty := true }
  | .error _ => { o with ended := true }

/-- The next event is received. -/
def receive (o : Observer) (event : ObserveEvent) (rx : List ObserveEvent) : Observer :=
  { o with connection := { o.connection with taken := o.connection.taken ++ [event], rx } }

def poll (o : Observer) (attempts : ℕ → Attempt) : Observer :=
  if o.ended then o
  else
    match o.connection.rx with
    | [] => o
    | event :: rx =>
      match event with
      | .Observation obs => (o.receive event rx).observe obs
      | .Error _ | .Closed => (o.receive event rx).reconnect attempts
      | .Welcome => o.receive event rx

def resize (o : Observer) (size : Viewport) : Observer :=
  if size = o.lastTermSize then o else { o with lastTermSize := size, dirty := true }

def draw (o : Observer) (size : Viewport) : Observer :=
  if o.dirty then { o with shown := some ⟨o.latestObs, o.snap, size⟩, dirty := false } else o

def onEvent (o : Observer) : Option TermEvent → Observer
  | some .Resize => { o with dirty := true }
  | some (.Key key) => if quits key then { o with ended := true } else o
  | _ => o

def turn (o : Observer) (e : ObserveTurn) : Observer :=
  let o := run poll o e.polls
  if o.ended then o else ((o.resize e.size).draw e.size).onEvent e.event

end Observer

/-! ## The wait for a welcome -/

def observation? : ObserveEvent → Option ObservationMessage
  | .Observation obs => some obs
  | _ => none

def lastObservation (events : List ObserveEvent) : Option ObservationMessage :=
  (events.filterMap observation?).getLast?

theorem lastObservation_append (es fs : List ObserveEvent) :
    lastObservation (es ++ fs) = (lastObservation fs).or (lastObservation es) := by
  unfold lastObservation
  rw [List.filterMap_append, List.getLast?_append]

theorem lastObservation_cons (e : ObserveEvent) (es : List ObserveEvent) :
    lastObservation (e :: es) = (lastObservation es).or (observation? e) := by
  rw [← List.singleton_append, lastObservation_append]
  cases e <;> rfl

/-- What the wait has received of the events, and what it makes of that. -/
structure Waited (gotWelcome : Bool) (firstObs obs : Option ObservationMessage)
    (events taken rest : List ObserveEvent) : Prop where
  split : taken ++ rest = events
  observed : obs = (lastObservation taken).or firstObs
  greeted : gotWelcome = true ∨ .Welcome ∈ taken

theorem Waited.welcomed {gotWelcome : Bool} {firstObs obs : Option ObservationMessage}
    {rx rest : List ObserveEvent} (h : welcomed gotWelcome firstObs rx = .ok (obs, rest)) :
    Waited gotWelcome firstObs obs rx [] rest := by
  unfold AppObserveRun.welcomed at h
  split at h
  · next hg =>
    cases h
    exact ⟨rfl, rfl, .inl hg⟩
  · cases h

/-- One more event before the rest of the wait. -/
theorem Waited.cons {gotWelcome : Bool} {firstObs next obs : Option ObservationMessage}
    {event : ObserveEvent} {rx taken rest : List ObserveEvent}
    (h : Waited gotWelcome next obs rx taken rest) (hn : next = (observation? event).or firstObs) :
    Waited gotWelcome firstObs obs (event :: rx) (event :: taken) rest := by
  refine ⟨congrArg (event :: ·) h.split, ?_, h.greeted.imp_right (List.mem_cons_of_mem _)⟩
  rw [h.observed, hn, lastObservation_cons, Option.or_assoc]

theorem waitForWelcome_spec {waits : List Bool} {gotWelcome : Bool}
    {firstObs obs : Option ObservationMessage} {rx rest : List ObserveEvent}
    (h : waitForWelcome waits gotWelcome firstObs rx = .ok (obs, rest)) :
    ∃ taken, Waited gotWelcome firstObs obs rx taken rest := by
  induction waits generalizing gotWelcome firstObs rx with
  | nil => exact ⟨[], .welcomed h⟩
  | cons wait waits ih =>
    cases wait with
    | false => exact ih h
    | true =>
      cases rx with
      | nil => cases h
      | cons event rx =>
        cases event with
        | Welcome =>
          have hgreeted {taken : List ObserveEvent} (hw : Waited true firstObs obs rx taken rest) :
              Waited gotWelcome firstObs obs (.Welcome :: rx) (.Welcome :: taken) rest :=
            ⟨(hw.cons rfl).split, (hw.cons rfl).observed, .inr List.mem_cons_self⟩
          simp only [waitForWelcome] at h
          split at h
          · exact ⟨_, hgreeted (.welcomed h)⟩
          · obtain ⟨taken, hw⟩ := ih h
            exact ⟨_, hgreeted hw⟩
        | Observation first =>
          simp only [waitForWelcome] at h
          split at h
          · exact ⟨_, (Waited.welcomed h).cons rfl⟩
          · obtain ⟨taken, hw⟩ := ih h
            exact ⟨_, hw.cons rfl⟩
        | Error msg => cases h
        | Closed => cases h

/-- A connection as `connect` leaves it. -/
structure Connection.Welcomed (c : Connection) : Prop where
  split : c.taken ++ c.rx = c.events
  observed : c.firstObs = lastObservation c.taken
  greeted : .Welcome ∈ c.taken

theorem connect_welcomed {a : Attempt} {c : Connection} (h : a.connect = .ok c) : c.Welcomed := by
  cases a with
  | refused error => cases h
  | connected events waits =>
    unfold Attempt.connect at h
    cases hw : waitForWelcome waits false none events with
    | error e =>
      simp only [hw] at h
      cases h
    | ok r =>
      obtain ⟨obs, rest⟩ := r
      simp only [hw] at h
      cases h
      obtain ⟨taken, hsplit, hobs, hg⟩ := waitForWelcome_spec hw
      have htaken : (Connection.waited events (obs, rest)).taken = taken := by
        unfold Connection.waited
        rw [← hsplit, List.length_append, Nat.add_sub_cancel, List.take_left]
      exact ⟨htaken.symm ▸ hsplit, htaken.symm ▸ hobs.trans Option.or_none,
        htaken.symm ▸ hg.resolve_left Bool.false_ne_true⟩

/-! ## Trying again -/

theorem connectLoop_ok {maxAttempts n k : ℕ} {attempts : ℕ → Attempt} {lastError : Text}
    {c : Connection} (h : connectLoop maxAttempts attempts n k lastError = .ok c) :
    ∃ i, (attempts i).connect = .ok c := by
  induction n generalizing k lastError with
  | zero => cases h
  | succ n ih =>
    rw [connectLoop] at h
    cases ha : (attempts k).connect with
    | ok d =>
      rw [ha] at h
      cases h
      exact ⟨k, ha⟩
    | error e =>
      rw [ha] at h
      exact ih h

/-- It gives up only after as many failures as it may have attempts. -/
theorem connectLoop_error {maxAttempts n k : ℕ} {attempts : ℕ → Attempt} {lastError text : Text}
    (h : connectLoop maxAttempts attempts n k lastError = .error text) {i : ℕ} (hi : k ≤ i)
    (hn : i < k + n) : ∃ e, (attempts i).connect = .error e := by
  induction n generalizing k lastError with
  | zero => omega
  | succ n ih =>
    rw [connectLoop] at h
    cases ha : (attempts k).connect with
    | ok d =>
      rw [ha] at h
      cases h
    | error e =>
      rw [ha] at h
      rcases Nat.eq_or_lt_of_le hi with rfl | hlt
      · exact ⟨e, ha⟩
      · exact ih h hlt (by omega)

/-! ## Every run -/

/-- The picture is that of the last observation received, from whichever connection; what is told
beside it belongs to the present one. -/
structure Following (o : Observer) : Prop where
  split : o.connection.taken ++ o.connection.rx = o.connection.events
  greeted : .Welcome ∈ o.connection.taken
  latestObs : o.latestObs = lastObservation o.connection.taken
  snap : o.snap = ((lastObservation (o.earlier ++ o.connection.taken)).map
    snapshotFromObservation).getD .default
  shown : o.dirty = true ∨ o.shown = some ⟨o.latestObs, o.snap, o.lastTermSize⟩

theorem connect_retry {n : ℕ} {attempts : ℕ → Attempt} {c : Connection}
    (h : connectObserverWithRetry n attempts = .ok c) : c.Welcomed := by
  obtain ⟨i, hi⟩ := connectLoop_ok h
  exact connect_welcomed hi

theorem following_start {c : Connection} (h : c.Welcomed) : Following (.start c) :=
  ⟨h.split, h.greeted, h.observed, congrArg (fun o => (Option.map snapshotFromObservation o).getD _)
    h.observed, .inl rfl⟩

theorem following_end {o : Observer} (h : Following o) : Following { o with ended := true } :=
  ⟨h.split, h.greeted, h.latestObs, h.snap, h.shown⟩

/-- An event that is no observation changes nothing. -/
theorem following_receive {o : Observer} (h : Following o) {event : ObserveEvent}
    {rx : List ObserveEvent} (hrx : o.connection.rx = event :: rx) (hn : observation? event = none) :
    Following (o.receive event rx) := by
  have hlast : lastObservation [event] = none := by
    rw [lastObservation_cons, hn]
    rfl
  refine ⟨?_, List.mem_append_left _ h.greeted, ?_, ?_, h.shown⟩
  · change (o.connection.taken ++ [event]) ++ rx = _
    rw [List.append_assoc, List.singleton_append, ← hrx]
    exact h.split
  · change o.latestObs = lastObservation (o.connection.taken ++ [event])
    rw [lastObservation_append, hlast, Option.none_or]
    exact h.latestObs
  · change o.snap = ((lastObservation (o.earlier ++ (o.connection.taken ++ [event]))).map _).getD _
    rw [← List.append_assoc, lastObservation_append, hlast, Option.none_or]
    exact h.snap

theorem following_observe {o : Observer} (h : Following o) {obs : ObservationMessage}
    {rx : List ObserveEvent} (hrx : o.connection.rx = .Observation obs :: rx) :
    Following ((o.receive (.Observation obs) rx).observe obs) := by
  refine ⟨?_, List.mem_append_left _ h.greeted, ?_, ?_, .inl rfl⟩
  · change (o.connection.taken ++ [_]) ++ rx = _
    rw [List.append_assoc, List.singleton_append, ← hrx]
    exact h.split
  · change some obs = lastObservation (o.connection.taken ++ [_])
    rw [lastObservation_append]
    rfl
  · change _ = ((lastObservation (o.earlier ++ (o.connection.taken ++ [_]))).map _).getD _
    rw [← List.append_assoc, lastObservation_append]
    rfl

theorem following_reconnect {o : Observer} (h : Following o) (attempts : ℕ → Attempt) :
    Following (o.reconnect attempts) := by
  unfold Observer.reconnect
  split
  · next c hc =>
    obtain ⟨hsplit, hobs, hg⟩ := connect_retry hc
    refine ⟨hsplit, hg, hobs, ?_, .inl rfl⟩
    change (c.firstObs.map _).getD o.snap =
      ((lastObservation (o.earlier ++ o.connection.taken ++ c.taken)).map _).getD _
    rw [lastObservation_append, hobs, h.snap]
    cases lastObservation c.taken <;> rfl
  · exact following_end h

theorem following_poll {o : Observer} (h : Following o) (attempts : ℕ → Attempt) :
    Following (o.poll attempts) := by
  unfold Observer.poll
  split
  · exact h
  · split
    · exact h
    · next event rx hrx =>
      cases event with
      | Observation obs => exact following_observe h hrx
      | Welcome => exact following_receive h hrx rfl
      | Error msg => exact following_reconnect (following_receive h hrx rfl) attempts
      | Closed => exact following_reconnect (following_receive h hrx rfl) attempts

theorem following_resize {o : Observer} (h : Following o) (size : Viewport) :
    Following (o.resize size) ∧ (o.resize size).lastTermSize = size := by
  unfold Observer.resize
  split
  · next hs => exact ⟨h, hs.symm⟩
  · exact ⟨⟨h.split, h.greeted, h.latestObs, h.snap, .inl rfl⟩, rfl⟩

/-- After drawing, the frame is that of the present. -/
theorem following_draw {o : Observer} (h : Following o) {size : Viewport} (hs : o.lastTermSize = size) :
    Following (o.draw size) ∧ (o.draw size).shown = some ⟨(o.draw size).latestObs, (o.draw size).snap, size⟩ := by
  unfold Observer.draw
  split
  · exact ⟨⟨h.split, h.greeted, h.latestObs, h.snap, .inr (by rw [hs])⟩, rfl⟩
  · next hd =>
    have hshown := h.shown.resolve_left hd
    rw [hs] at hshown
    exact ⟨h, hshown⟩

theorem following_onEvent {o : Observer} (h : Following o) (event : Option TermEvent) :
    Following (o.onEvent event) := by
  unfold Observer.onEvent
  split
  · exact ⟨h.split, h.greeted, h.latestObs, h.snap, .inl rfl⟩
  · split
    · exact following_end h
    · exact h
  · exact h

theorem following_turn {o : Observer} (h : Following o) (e : ObserveTurn) : Following (o.turn e) := by
  have hp : Following (run Observer.poll o e.polls) :=
    run_invariant (I := Following) (fun _ a h => following_poll h a) h e.polls
  unfold Observer.turn
  simp only
  split
  · exact hp
  · obtain ⟨hr, hs⟩ := following_resize hp e.size
    exact following_onEvent (following_draw hr hs).1 e.event

theorem onEvent_frame (o : Observer) (event : Option TermEvent) :
    (o.onEvent event).shown = o.shown ∧ (o.onEvent event).latestObs = o.latestObs ∧
      (o.onEvent event).snap = o.snap := by
  unfold Observer.onEvent
  split
  · exact ⟨rfl, rfl, rfl⟩
  · split <;> exact ⟨rfl, rfl, rfl⟩
  · exact ⟨rfl, rfl, rfl⟩

theorem turn_shown {o : Observer} (h : Following o) {e : ObserveTurn}
    (he : (o.turn e).ended = false) :
    (o.turn e).shown = some ⟨(o.turn e).latestObs, (o.turn e).snap, e.size⟩ := by
  have hp : Following (run Observer.poll o e.polls) :=
    run_invariant (I := Following) (fun _ a h => following_poll h a) h e.polls
  unfold Observer.turn at he ⊢
  simp only at he ⊢
  split at he
  · next hended => exact absurd he (Bool.not_eq_false _ ▸ hended)
  · next hended =>
    rw [if_neg hended]
    obtain ⟨hr, hs⟩ := following_resize hp e.size
    obtain ⟨hshown, hobs, hsnap⟩ :=
      onEvent_frame (((run Observer.poll o e.polls).resize e.size).draw e.size) e.event
    rw [hshown, hobs, hsnap]
    exact (following_draw hr hs).2

/-- What the observer has received is what the server had sent up to some message. -/
theorem taken_sent {sent : List ServerMessage} {taken rx : List ObserveEvent}
    (h : taken ++ rx = sent.filterMap ServerMessage.event ++ [.Closed]) :
    ∃ n, lastObservation taken = lastObservation ((sent.take n).filterMap ServerMessage.event) := by
  have hp : taken <+: sent.filterMap ServerMessage.event ++ [.Closed] := ⟨rx, h⟩
  rcases List.prefix_concat_iff.mp hp with rfl | hp
  · refine ⟨sent.length, ?_⟩
    rw [List.take_length, lastObservation_append]
    rfl
  · obtain ⟨front, hfront, rfl⟩ := List.prefix_filterMap_iff.mp hp
    exact ⟨front.length, by rw [← List.prefix_iff_eq_take.mp hfront]⟩

/-- Whatever the network does, after every turn the observer shows the last observation it has
received on any connection, and what it tells beside the picture is of the present connection;
there it has received what the server had sent up to some message. -/
theorem observer_follows {maxAttempts : ℕ} {attempts : ℕ → Attempt} {c : Connection}
    (hc : connectObserverWithRetry maxAttempts attempts = .ok c) (turns : List ObserveTurn)
    (e : ObserveTurn) :
    let o := run Observer.turn (.start c) (turns ++ [e])
    let taken := o.connection.taken
    (o.ended = false → o.shown = some ⟨lastObservation taken,
      ((lastObservation (o.earlier ++ taken)).map snapshotFromObservation).getD .default, e.size⟩) ∧
    .Welcome ∈ taken ∧ taken <+: o.connection.events ∧
    ∀ sent : List ServerMessage, o.connection.events = sent.filterMap ServerMessage.event ++ [.Closed] →
      ∃ n, lastObservation taken = lastObservation ((sent.take n).filterMap ServerMessage.event) := by
  intro o taken
  have hbefore : Following (run Observer.turn (.start c) turns) :=
    run_invariant (I := Following) (fun _ e h => following_turn h e) (following_start (connect_retry hc))
      turns
  have hlast : o = (run Observer.turn (.start c) turns).turn e := run_append _ _ turns [e]
  have h : Following o := hlast ▸ following_turn hbefore e
  refine ⟨fun he => ?_, h.greeted, ⟨_, h.split⟩, fun sent hsent => taken_sent (h.split.trans hsent)⟩
  rw [hlast] at he
  have hshown := turn_shown hbefore he
  rw [← hlast, h.latestObs, h.snap] at hshown
  exact hshown

/-- A first attempt that is refused, and one that brings a welcome and an observation. -/
def secondAttempt (obs : ObservationMessage) (attempt : ℕ) : Attempt :=
  if attempt = 0 then .refused "observe: refused".toList
  else .connected [.Welcome, .Observation obs, .Closed] [true, false, true]

theorem observer_follows_second :
    let obs := buildObservation 1 0 .default .empty
    let c : Connection := .waited [.Welcome, .Observation obs, .Closed] (some obs, [.Closed])
    (run Observer.turn (.start c) [⟨[secondAttempt obs], ⟨80, 24⟩, none⟩]).shown =
      some ⟨some obs, snapshotFromObservation obs, ⟨80, 24⟩⟩ := by
  intro obs c
  have hc : connectObserverWithRetry defaultAttempts (secondAttempt obs) = .ok c := rfl
  exact (observer_follows hc [] ⟨[secondAttempt obs], ⟨80, 24⟩, none⟩).1 rfl

/-! ## The end of a run -/

theorem connect_error {n : ℕ} {attempts : ℕ → Attempt} {text : Text}
    (h : connectObserverWithRetry n attempts = .error text) {i : ℕ} (hi : i < max n 1) :
    ∃ e, (attempts i).connect = .error e :=
  connectLoop_error h (Nat.zero_le i) (by omega)

/-- One of the attempts that it makes finds a server that welcomes it. -/
def Reconnects (attempts : ℕ → Attempt) : Prop :=
  ∃ i < defaultAttempts, ∃ c, (attempts i).connect = .ok c

theorem reconnect_alive {o : Observer} (h : o.ended = false) {attempts : ℕ → Attempt}
    (hr : Reconnects attempts) : (o.reconnect attempts).ended = false := by
  obtain ⟨i, hi, c, hc⟩ := hr
  unfold Observer.reconnect
  split
  · exact h
  · next text herror =>
    obtain ⟨e, he⟩ := connect_error herror (hi.trans_le (Nat.le_max_left _ _))
    rw [hc] at he
    cases he

theorem poll_alive {o : Observer} (h : o.ended = false) {attempts : ℕ → Attempt}
    (hr : Reconnects attempts) : (o.poll attempts).ended = false := by
  unfold Observer.poll
  split
  · exact h
  · split
    · exact h
    · next event rx _ =>
      cases event with
      | Observation obs => exact h
      | Welcome => exact h
      | Error msg => exact reconnect_alive (o := o.receive (.Error msg) rx) h hr
      | Closed => exact reconnect_alive (o := o.receive .Closed rx) h hr

theorem polls_alive {o : Observer} (h : o.ended = false) {polls : List (ℕ → Attempt)}
    (hr : ∀ attempts ∈ polls, Reconnects attempts) : (run Observer.poll o polls).ended = false := by
  induction polls generalizing o with
  | nil => exact h
  | cons attempts polls ih =>
    exact ih (poll_alive h (hr attempts List.mem_cons_self)) fun a ha =>
      hr a (List.mem_cons_of_mem attempts ha)

theorem turn_alive {o : Observer} (h : o.ended = false) {e : ObserveTurn}
    (hr : ∀ attempts ∈ e.polls, Reconnects attempts) (hq : ∀ key, e.event = some (.Key key) → quits key = false) :
    (o.turn e).ended = false := by
  have hp := polls_alive h hr
  have hd : (((run Observer.poll o e.polls).resize e.size).draw e.size).ended = false := by
    unfold Observer.draw Observer.resize
    split <;> split <;> exact hp
  unfold Observer.turn
  simp only [hp, Bool.false_eq_true, if_false]
  unfold Observer.onEvent
  split
  · exact hd
  · next key hkey =>
    rw [hq key hkey]
    exact hd
  · exact hd

/-- The observer stays as long as nobody quits and each time a connection fails one of its next
attempts is welcomed. -/
theorem observer_survives {o : Observer} (h : o.ended = false) (turns : List ObserveTurn)
    (hr : ∀ e ∈ turns, ∀ attempts ∈ e.polls, Reconnects attempts)
    (hq : ∀ e ∈ turns, ∀ key, e.event = some (.Key key) → quits key = false) :
    (run Observer.turn o turns).ended = false := by
  induction turns generalizing o with
  | nil => exact h
  | cons e turns ih =>
    exact ih (turn_alive h (hr e List.mem_cons_self) (hq e List.mem_cons_self))
      (fun f hf => hr f (List.mem_cons_of_mem e hf)) fun f hf => hq f (List.mem_cons_of_mem e hf)

theorem observer_survives_closed :
    let obs := buildObservation 1 0 .default .empty
    let e : ObserveTurn := ⟨[secondAttempt obs, secondAttempt obs], ⟨80, 24⟩, some (.Key ⟨.Up, false, .Press⟩)⟩
    (run Observer.turn (.start ⟨[.Welcome, .Closed], [.Welcome], [.Closed], none⟩) [e, e]).ended =
      false := by
  intro obs e
  refine observer_survives rfl [e, e] (fun f hf attempts ha => ?_) fun f hf key hk => ?_
  · obtain rfl : f = e := by simpa using hf
    obtain rfl : attempts = secondAttempt obs := by simpa [e] using ha
    exact ⟨1, by decide, _, rfl⟩
  · obtain rfl : f = e := by simpa using hf
    cases hk
    rfl

end TuiTetris.AppObserveRun
