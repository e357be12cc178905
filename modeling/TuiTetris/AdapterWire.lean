import TuiTetris.AdapterMessages
import TuiTetris.LibJsonRecord

set_option autoImplicit false

/-!
# Messages on the wire

How the messages are written to JSON and read from it, as their attributes and their own
readers and writers say. Readers that borrow a string refuse one with escapes.
-/
namespace TuiTetris.AdapterWire
open CoreSnapshot LibJson LibJsonRecord LibText AdapterBroker AdapterMessages AdapterProtocol

/-! ## Names -/

def pieceName : PieceKindLower → Text
  | .I => "i".toList
  | .O => "o".toList
  | .T => "t".toList
  | .S => "s".toList
  | .Z => "z".toList
  | .J => "j".toList
  | .L => "l".toList

def rotationName : RotationLower → Text
  | .North => "north".toList
  | .East => "east".toList
  | .South => "south".toList
  | .West => "west".toList

def tspinName : TSpinLower → Text
  | .Mini => "mini".toList
  | .Full => "full".toList

def assignedRoleName : AssignedRole → Text
  | .Controller => "controller".toList
  | .Observer => "observer".toList

def errorCodeName : ErrorCode → Text
  | .HandshakeRequired => "handshake_required".toList
  | .ProtocolMismatch => "protocol_mismatch".toList
  | .NotController => "not_controller".toList
  | .ControllerActive => "controller_active".toList
  | .InvalidCommand => "invalid_command".toList
  | .InvalidPlace => "invalid_place".toList
  | .HoldUnavailable => "hold_unavailable".toList
  | .SnapshotRequired => "snapshot_required".toList
  | .Backpressure => "backpressure".toList

def named {α : Type} (name : α → Text) (values : List α) : List (Text × α) :=
  values.map fun a => (name a, a)

/-- A type with one value has one name. -/
def asTag (name : Text) : Json → Option Unit := asVariant [(name, ())]

def asPieceKind : Json → Option PieceKindLower :=
  asVariant (named pieceName [.I, .O, .T, .S, .Z, .J, .L])

def asRotation : Json → Option RotationLower :=
  asWord (named rotationName [.North, .East, .South, .West])

def asTSpin : Json → Option TSpinLower := asVariant (named tspinName [.Mini, .Full])

/-- `n` digits of `v`, the lowest last, before those that are there. -/
def hexLoop : ℕ → UInt64 → Text → Text
  | 0, _, buf => buf
  | n + 1, v, buf => hexLoop n (v >>> 4) (hexDigit (v &&& 0x0f).toNat :: buf)

def ofStateHash (h : StateHash) : Json := .text (hexLoop 16 h.value [])

def trim (t : Text) : Text :=
  ((t.dropWhile isWhitespace).reverse.dropWhile isWhitespace).reverse

/-- Digits beyond the sixteenth push the first ones out. -/
def readHex (v : UInt64) : Text → Option UInt64
  | [] => some v
  | c :: t => (hexValue c).bind fun d => readHex ((v <<< 4) ||| UInt64.ofNat d) t

def asStateHash (v : Json) : Option StateHash :=
  (asBorrowed v).bind fun s => (readHex 0 (trim s)).map StateHash.mk

/-! ## Observations -/

def eventKeys : List Text :=
  ["locked".toList, "lines_cleared".toList, "line_clear_score".toList, "tspin".toList, "combo".toList,
    "back_to_back".toList]

def eventMembers (e : TransitionEvent) : List (Text × Option Json) :=
  [("locked".toList, some (.bool e.locked)), ("lines_cleared".toList, some (ofU32 e.linesCleared)),
    ("line_clear_score".toList, some (ofU32 e.lineClearScore)),
    ("tspin".toList, e.tspin.map fun t => .text (tspinName t)),
    ("combo".toList, some (ofI32 e.combo)), ("back_to_back".toList, some (.bool e.backToBack))]

def ofEvent (e : TransitionEvent) : Json := ofRecord (eventMembers e)

def asEvent (v : Json) : Option TransitionEvent := do
  let f ← record eventKeys v
  return {
    locked := ← f.required "locked".toList asBool
    linesCleared := ← f.required "lines_cleared".toList asU32
    lineClearScore := ← f.required "line_clear_score".toList asU32
    tspin := ← f.optional "tspin".toList asTSpin
    combo := ← f.required "combo".toList asI32
    backToBack := ← f.required "back_to_back".toList asBool }

def boardKeys : List Text := ["width".toList, "height".toList, "cells".toList]

def boardMembers (b : BoardSnapshot) : List (Text × Option Json) :=
  [("width".toList, some (ofU8 b.width)), ("height".toList, some (ofU8 b.height)),
    ("cells".toList, some (ofList (fun row => ofList ofU8 row.toList) b.cells.toList))]

def ofBoard (b : BoardSnapshot) : Json := ofRecord (boardMembers b)

def asBoard (v : Json) : Option BoardSnapshot := do
  let f ← record boardKeys v
  return {
    width := ← f.required "width".toList asU8
    height := ← f.required "height".toList asU8
    cells := ← f.required "cells".toList (asVector 20 (asVector 10 asU8)) }

def activeKeys : List Text := ["kind".toList, "rotation".toList, "x".toList, "y".toList]

def activeMembers (a : ActivePieceSnapshot) : List (Text × Option Json) :=
  [("kind".toList, some (.text (pieceName a.kind))),
    ("rotation".toList, some (.text (rotationName a.rotation))),
    ("x".toList, some (ofI8 a.x)), ("y".toList, some (ofI8 a.y))]

def ofActivePiece (a : ActivePieceSnapshot) : Json := ofRecord (activeMembers a)

def asActivePiece (v : Json) : Option ActivePieceSnapshot := do
  let f ← record activeKeys v
  return {
    kind := ← f.required "kind".toList asPieceKind
    rotation := ← f.required "rotation".toList asRotation
    x := ← f.required "x".toList asI8
    y := ← f.required "y".toList asI8 }

def timerKeys : List Text := ["drop_ms".toList, "lock_ms".toList, "line_clear_ms".toList]

def timerMembers (t : TimersSnapshot) : List (Text × Option Json) :=
  [("drop_ms".toList, some (ofU32 t.dropMs)), ("lock_ms".toList, some (ofU32 t.lockMs)),
    ("line_clear_ms".toList, some (ofU32 t.lineClearMs))]

def ofTimers (t : TimersSnapshot) : Json := ofRecord (timerMembers t)

def asTimers (v : Json) : Option TimersSnapshot := do
  let f ← record timerKeys v
  return {
    dropMs := ← f.required "drop_ms".toList asU32
    lockMs := ← f.required "lock_ms".toList asU32
    lineClearMs := ← f.required "line_clear_ms".toList asU32 }

def observationKeys : List Text :=
  ["type".toList, "seq".toList, "ts".toList, "logical_step".toList, "playable".toList, "paused".toList,
    "game_over".toList, "episode_id".toList, "seed".toList, "piece_id".toList, "step_in_piece".toList,
    "board".toList, "board_id".toList, "active".toList, "ghost_y".toList, "next".toList,
    "next_queue".toList, "hold".toList, "can_hold".toList, "events".toList, "state_hash".toList,
    "score".toList, "level".toList, "lines".toList, "timers".toList]

/-- `ts` is the time stamp, which the messages of the model leave out. -/
def observationMembers (ts : UInt64) (m : ObservationMessage) : List (Text × Option Json) :=
  [("type".toList, some (.text "observation".toList)), ("seq".toList, some (ofU64 m.seq)),
    ("ts".toList, some (ofU64 ts)), ("logical_step".toList, some (ofU64 m.logicalStep)),
    ("playable".toList, some (.bool m.playable)), ("paused".toList, some (.bool m.paused)),
    ("game_over".toList, some (.bool m.gameOver)),
    ("episode_id".toList, some (ofU32 m.episodeId)), ("seed".toList, some (ofU32 m.seed)),
    ("piece_id".toList, some (ofU32 m.pieceId)),
    ("step_in_piece".toList, some (ofU32 m.stepInPiece)), ("board".toList, some (ofBoard m.board)),
    ("board_id".toList, some (ofU32 m.boardId)), ("active".toList, m.active.map ofActivePiece),
    ("ghost_y".toList, m.ghostY.map ofI8), ("next".toList, some (.text (pieceName m.next))),
    ("next_queue".toList, some (ofList (fun k => .text (pieceName k)) m.nextQueue.toList)),
    ("hold".toList, m.hold.map fun k => .text (pieceName k)),
    ("can_hold".toList, some (.bool m.canHold)),
    ("events".toList, some (ofList ofEvent m.events.toList)),
    ("state_hash".toList, some (ofStateHash m.stateHash)), ("score".toList, some (ofU32 m.score)),
    ("level".toList, some (ofU32 m.level)), ("lines".toList, some (ofU32 m.lines)),
    ("timers".toList, some (ofTimers m.timers))]

def ofObservation (ts : UInt64) (m : ObservationMessage) : Json := ofRecord (observationMembers ts m)

def asObservation (v : Json) : Option ObservationMessage := do
  let f ← record observationKeys v
  let _ ← f.required "type".toList (asTag "observation".toList)
  let _ ← f.required "ts".toList asU64
  return {
    seq := ← f.required "seq".toList asU64
    logicalStep := ← f.required "logical_step".toList asU64
    playable := ← f.required "playable".toList asBool
    paused := ← f.required "paused".toList asBool
    gameOver := ← f.required "game_over".toList asBool
    episodeId := ← f.required "episode_id".toList asU32
    seed := ← f.required "seed".toList asU32
    pieceId := ← f.required "piece_id".toList asU32
    stepInPiece := ← f.required "step_in_piece".toList asU32
    board := ← f.required "board".toList asBoard
    boardId := ← f.required "board_id".toList asU32
    active := ← f.optional "active".toList asActivePiece
    ghostY := ← f.optional "ghost_y".toList asI8
    next := ← f.required "next".toList asPieceKind
    nextQueue := ← f.required "next_queue".toList (asVector 5 asPieceKind)
    hold := ← f.optional "hold".toList asPieceKind
    canHold := ← f.required "can_hold".toList asBool
    events := ← f.required "events".toList (asArrayVec 4 asEvent)
    stateHash := ← f.required "state_hash".toList asStateHash
    score := ← f.required "score".toList asU32
    level := ← f.required "level".toList asU32
    lines := ← f.required "lines".toList asU32
    timers := ← f.required "timers".toList asTimers }

/-! ## Replies -/

def words (names : List String) : Json := ofList (fun s : String => Json.text s.toList) names

/-- The tables of `create_welcome`. -/
def capabilities : Json :=
  ofRecord
    [("formats".toList, some (words ["json"])),
      ("command_modes".toList, some (words ["action", "place"])),
      ("features".toList, some (words ["hold", "next", "next_queue", "can_hold", "ghost_y", "board_id",
        "events", "logical_step", "state_hash", "score", "timers", "events", "logical_step"])),
      ("features_always".toList, some (words ["next", "next_queue", "can_hold", "board_id",
        "state_hash", "score", "timers"])),
      ("features_optional".toList, some (words ["hold", "ghost_y"])),
      ("control_policy".toList, some (ofRecord
        [("auto_promote_on_disconnect".toList, some (.bool true)),
          ("promotion_order".toList, some (.text "lowest_client_id".toList))]))]

def welcomeKeys : List Text :=
  ["type".toList, "seq".toList, "ts".toList, "protocol_version".toList, "client_id".toList,
    "role".toList, "controller_id".toList, "game_id".toList, "capabilities".toList]

def welcomeMembers (ts : UInt64) (m : WelcomeMessage) : List (Text × Option Json) :=
  [("type".toList, some (.text "welcome".toList)), ("seq".toList, some (ofU64 m.seq)),
    ("ts".toList, some (ofU64 ts)),
    ("protocol_version".toList, some (.text m.protocolVersion.toList)),
    ("client_id".toList, some (ofU64 (UInt64.ofNat m.clientId))),
    ("role".toList, some (.text (assignedRoleName m.role))),
    ("controller_id".toList, some (ofNullable ofU64 (m.controllerId.map UInt64.ofNat))),
    ("game_id".toList, some (.text m.gameId.toList)), ("capabilities".toList, some capabilities)]

def ofWelcome (ts : UInt64) (m : WelcomeMessage) : Json := ofRecord (welcomeMembers ts m)

def ackKeys : List Text :=
  ["type".toList, "seq".toList, "ts".toList, "status".toList, "correlation_seq".toList,
    "applied_step".toList, "state_hash".toList]

def ackMembers (ts : UInt64) (m : AckMessage) : List (Text × Option Json) :=
  [("type".toList, some (.text "ack".toList)), ("seq".toList, some (ofU64 m.seq)),
    ("ts".toList, some (ofU64 ts)), ("status".toList, some (.text "ok".toList)),
    ("correlation_seq".toList, some (ofU64 m.correlationSeq)),
    ("applied_step".toList, m.appliedStep.map ofU64),
    ("state_hash".toList, m.stateHash.map ofStateHash)]

def ofAck (ts : UInt64) (m : AckMessage) : Json := ofRecord (ackMembers ts m)

def errorKeys : List Text :=
  ["type".toList, "seq".toList, "ts".toList, "code".toList, "message".toList, "retry_after_ms".toList]

def errorMembers (ts : UInt64) (m : ErrorMessage) : List (Text × Option Json) :=
  [("type".toList, some (.text "error".toList)), ("seq".toList, some (ofU64 m.seq)),
    ("ts".toList, some (ofU64 ts)), ("code".toList, some (.text (errorCodeName m.code))),
    ("message".toList, some (.text m.message.toList)),
    ("retry_after_ms".toList, m.retryAfterMs.map ofU64)]

def ofError (ts : UInt64) (m : ErrorMessage) : Json := ofRecord (errorMembers ts m)

def ofOutbound (ts : UInt64) : ClientOutbound → Json
  | .Ack m => ofAck ts m
  | .Error m => ofError ts m
  | .Welcome m => ofWelcome ts m

/-! ## Names and hashes come back -/

theorem lawful_pieceKind : Lawful (fun k => .text (pieceName k)) asPieceKind :=
  lawful_variant fun k => by cases k <;> rfl

theorem lawful_rotation : Lawful (fun r => .text (rotationName r)) asRotation :=
  lawful_word fun r => by cases r <;> exact ⟨rfl, rfl⟩

theorem lawful_tspin : Lawful (fun t => .text (tspinName t)) asTSpin :=
  lawful_variant fun t => by cases t <;> rfl

theorem hexDigit_clean : ∀ d < 16, isWhitespace (hexDigit d) = false ∧ escape (hexDigit d) = [hexDigit d] := by
  decide

theorem and_15 (v : UInt64) : (v &&& 0x0f).toNat = v.toNat % 16 := by
  rw [UInt64.toNat_and]
  exact Nat.and_two_pow_sub_one_eq_mod v.toNat 4

theorem hexLoop_digits (n : ℕ) (v : UInt64) (buf : Text) :
    ∀ c ∈ hexLoop n v buf, c ∈ buf ∨ ∃ d < 16, c = hexDigit d := by
  induction n generalizing v buf with
  | zero => exact fun c hc => .inl hc
  | succ n ih =>
    intro c hc
    rcases ih _ _ c hc with h | h
    · rcases List.mem_cons.mp h with rfl | h
      · exact .inr ⟨_, by rw [and_15]; exact Nat.mod_lt _ (by decide), rfl⟩
      · exact .inl h
    · exact .inr h

theorem dropWhile_none {p : Char → Bool} {t : Text} (h : ∀ c ∈ t, p c = false) : t.dropWhile p = t := by
  cases t with
  | nil => rfl
  | cons c t => exact List.dropWhile_cons_of_neg (by simp [h c List.mem_cons_self])

theorem trim_clean {t : Text} (h : ∀ c ∈ t, isWhitespace c = false) : trim t = t := by
  unfold trim
  rw [dropWhile_none h, dropWhile_none fun c hc => h c (List.mem_reverse.mp hc), List.reverse_reverse]

theorem shift_digit (a : ℕ) {d : ℕ} (hd : d < 16) :
    (UInt64.ofNat a <<< 4) ||| UInt64.ofNat d = UInt64.ofNat (16 * a + d) := by
  apply UInt64.toNat_inj.mp
  have h4 : (4 : UInt64).toNat % 64 = 4 := rfl
  rw [UInt64.toNat_or, UInt64.toNat_shiftLeft, h4, UInt64.toNat_ofNat', UInt64.toNat_ofNat',
    UInt64.toNat_ofNat', Nat.mod_eq_of_lt (by omega : d < 2 ^ 64)]
  have hs : (a % 2 ^ 64) <<< 4 % 2 ^ 64 = (a % 2 ^ 60) <<< 4 := by
    rw [Nat.shiftLeft_eq, Nat.shiftLeft_eq]
    omega
  rw [hs, ← Nat.shiftLeft_add_eq_or_of_lt hd, Nat.shiftLeft_eq]
  omega

/-- The value of the digits in front of a text is the start value of the rest. -/
theorem readHex_loop (n a v : ℕ) (buf : Text) (hv : v < 2 ^ 64) :
    readHex (UInt64.ofNat a) (hexLoop n (UInt64.ofNat v) buf) =
      readHex (UInt64.ofNat (a * 16 ^ n + v % 16 ^ n)) buf := by
  induction n generalizing v buf with
  | zero => rw [Nat.pow_zero, Nat.mod_one, Nat.mul_one, Nat.add_zero, hexLoop]
  | succ n ih =>
    have hshift : UInt64.ofNat v >>> 4 = UInt64.ofNat (v / 16) := by
      apply UInt64.toNat_inj.mp
      have h4 : (4 : UInt64).toNat % 64 = 4 := rfl
      rw [UInt64.toNat_shiftRight, h4, UInt64.toNat_ofNat', UInt64.toNat_ofNat', Nat.shiftRight_eq_div_pow]
      omega
    have hlow : (UInt64.ofNat v &&& 0x0f).toNat = v % 16 := by
      rw [and_15, UInt64.toNat_ofNat', Nat.mod_eq_of_lt hv]
    have hd : v % 16 < 16 := Nat.mod_lt _ (by decide)
    have hsum : 16 * (a * 16 ^ n + v / 16 % 16 ^ n) + v % 16 = a * 16 ^ (n + 1) + v % 16 ^ (n + 1) := by
      rw [Nat.pow_succ', Nat.mod_mul, Nat.mul_add, Nat.mul_left_comm]
      omega
    rw [hexLoop, hshift, hlow, ih (v / 16) _ (by omega), readHex, hexValue_hexDigit _ hd,
      Option.bind_some, shift_digit _ hd, hsum]

theorem lawful_stateHash : Lawful ofStateHash asStateHash := by
  refine ⟨fun h => ?_, fun _ => plain_text _, fun _ => nofun⟩
  have hdigits (c : Char) (hc : c ∈ hexLoop 16 h.value []) : ∃ d < 16, c = hexDigit d :=
    (hexLoop_digits 16 h.value [] c hc).resolve_left List.not_mem_nil
  have hclean : needsEscape (hexLoop 16 h.value []) = false := by
    refine List.any_eq_false.mpr fun c hc => ?_
    obtain ⟨d, hd, rfl⟩ := hdigits c hc
    simpa using (hexDigit_clean d hd).2
  have htrim : trim (hexLoop 16 h.value []) = hexLoop 16 h.value [] := trim_clean fun c hc => by
    obtain ⟨d, hd, rfl⟩ := hdigits c hc
    exact (hexDigit_clean d hd).1
  have hread := readHex_loop 16 0 h.value.toNat [] h.value.toNat_lt
  have hvalue : h.value.toNat < 16 ^ 16 := h.value.toNat_lt
  rw [UInt64.ofNat_toNat, Nat.zero_mul, Nat.zero_add, Nat.mod_eq_of_lt hvalue,
    UInt64.ofNat_toNat] at hread
  unfold asStateHash ofStateHash Json.text
  rw [hclean]
  change (readHex 0 (trim _)).map StateHash.mk = _
  rw [htrim]
  exact congrArg (Option.map StateHash.mk) hread

/-! ## Records come back -/

theorem lawful_timers : Lawful ofTimers asTimers := by
  refine ⟨fun t => ?_, fun t => plain_ofRecord ?_, fun _ => nofun⟩
  · have hn : ((timerMembers t).map Prod.fst).Nodup := (by decide : timerKeys.Nodup)
    have hrecord : record timerKeys (ofTimers t) = some ⟨false, written (timerMembers t)⟩ :=
      record_ofRecord hn
    have hdrop := required_written hn lawful_u32
      (rfl : (timerMembers t).lookup "drop_ms".toList = some (some (ofU32 t.dropMs)))
    have hlock := required_written hn lawful_u32
      (rfl : (timerMembers t).lookup "lock_ms".toList = some (some (ofU32 t.lockMs)))
    have hclear := required_written hn lawful_u32
      (rfl : (timerMembers t).lookup "line_clear_ms".toList = some (some (ofU32 t.lineClearMs)))
    simp only [asTimers, hrecord, hdrop, hlock, hclear, Option.bind_eq_bind, Option.bind_some,
      Option.pure_def]
  · have hn (n : UInt32) := plain_some lawful_u32 n
    exact ⟨hn _, hn _, hn _⟩

theorem lawful_board : Lawful ofBoard asBoard := by
  have hcells := lawful_vector (lawful_vector lawful_u8 10) 20
  refine ⟨fun b => ?_, fun b => plain_ofRecord ?_, fun _ => nofun⟩
  · have hn : ((boardMembers b).map Prod.fst).Nodup := (by decide : boardKeys.Nodup)
    have hrecord : record boardKeys (ofBoard b) = some ⟨false, written (boardMembers b)⟩ :=
      record_ofRecord hn
    have hwidth := required_written hn lawful_u8
      (rfl : (boardMembers b).lookup "width".toList = some (some (ofU8 b.width)))
    have hheight := required_written hn lawful_u8
      (rfl : (boardMembers b).lookup "height".toList = some (some (ofU8 b.height)))
    have hgrid := required_written hn hcells (a := b.cells)
      (rfl : (boardMembers b).lookup "cells".toList = _)
    simp only [asBoard, hrecord, hwidth, hheight, hgrid, Option.bind_eq_bind, Option.bind_some,
      Option.pure_def]
  · exact ⟨plain_some lawful_u8 _, plain_some lawful_u8 _, plain_some hcells b.cells⟩

theorem lawful_activePiece : Lawful ofActivePiece asActivePiece := by
  refine ⟨fun a => ?_, fun a => plain_ofRecord ?_, fun _ => nofun⟩
  · have hn : ((activeMembers a).map Prod.fst).Nodup := (by decide : activeKeys.Nodup)
    have hrecord : record activeKeys (ofActivePiece a) = some ⟨false, written (activeMembers a)⟩ :=
      record_ofRecord hn
    have hkind := required_written hn lawful_pieceKind (a := a.kind)
      (rfl : (activeMembers a).lookup "kind".toList = _)
    have hrotation := required_written hn lawful_rotation (a := a.rotation)
      (rfl : (activeMembers a).lookup "rotation".toList = _)
    have hx := required_written hn lawful_i8
      (rfl : (activeMembers a).lookup "x".toList = some (some (ofI8 a.x)))
    have hy := required_written hn lawful_i8
      (rfl : (activeMembers a).lookup "y".toList = some (some (ofI8 a.y)))
    simp only [asActivePiece, hrecord, hkind, hrotation, hx, hy, Option.bind_eq_bind,
      Option.bind_some, Option.pure_def]
  · exact ⟨plain_some lawful_pieceKind a.kind, plain_some lawful_rotation a.rotation,
      plain_some lawful_i8 _, plain_some lawful_i8 _⟩

theorem lawful_event : Lawful ofEvent asEvent := by
  refine ⟨fun e => ?_, fun e => plain_ofRecord ?_, fun _ => nofun⟩
  · have hn : ((eventMembers e).map Prod.fst).Nodup := (by decide : eventKeys.Nodup)
    have hrecord : record eventKeys (ofEvent e) = some ⟨false, written (eventMembers e)⟩ :=
      record_ofRecord hn
    have hlocked := required_written hn lawful_bool
      (rfl : (eventMembers e).lookup "locked".toList = some (some (.bool e.locked)))
    have hlines := required_written hn lawful_u32
      (rfl : (eventMembers e).lookup "lines_cleared".toList = some (some (ofU32 e.linesCleared)))
    have hscore := required_written hn lawful_u32
      (rfl : (eventMembers e).lookup "line_clear_score".toList = some (some (ofU32 e.lineClearScore)))
    have htspin := optional_written hn lawful_tspin (o := e.tspin)
      (rfl : (eventMembers e).lookup "tspin".toList = _)
    have hcombo := required_written hn lawful_i32
      (rfl : (eventMembers e).lookup "combo".toList = some (some (ofI32 e.combo)))
    have hchain := required_written hn lawful_bool
      (rfl : (eventMembers e).lookup "back_to_back".toList = some (some (.bool e.backToBack)))
    simp only [asEvent, hrecord, hlocked, hlines, hscore, htspin, hcombo, hchain,
      Option.bind_eq_bind, Option.bind_some, Option.pure_def]
  · exact ⟨plain_some lawful_bool _, plain_some lawful_u32 _, plain_some lawful_u32 _,
      plain_map lawful_tspin e.tspin, plain_some lawful_i32 _, plain_some lawful_bool _⟩

theorem lawful_tag (name : Text) : Lawful (fun _ => .text name) (asTag name) :=
  lawful_variant fun _ => List.lookup_cons_self

theorem lawful_observation (ts : UInt64) : Lawful (ofObservation ts) asObservation := by
  have hqueue := lawful_vector lawful_pieceKind 5
  have hlist := lawful_arrayVec lawful_event 4
  refine ⟨fun m => ?_, fun m => plain_ofRecord ?_, fun _ => nofun⟩
  · have hn : ((observationMembers ts m).map Prod.fst).Nodup := (by decide : observationKeys.Nodup)
    have hrecord : record observationKeys (ofObservation ts m) =
        some ⟨false, written (observationMembers ts m)⟩ := record_ofRecord hn
    have htag := required_written hn (lawful_tag "observation".toList) (a := ())
      (rfl : (observationMembers ts m).lookup "type".toList = _)
    have hts := required_written hn lawful_u64
      (rfl : (observationMembers ts m).lookup "ts".toList = some (some (ofU64 ts)))
    have hseq := required_written hn lawful_u64
      (rfl : (observationMembers ts m).lookup "seq".toList = some (some (ofU64 m.seq)))
    have hlogicalStep := required_written hn lawful_u64
      (rfl : (observationMembers ts m).lookup "logical_step".toList = some (some (ofU64 m.logicalStep)))
    have hplayable := required_written hn lawful_bool
      (rfl : (observationMembers ts m).lookup "playable".toList = some (some (.bool m.playable)))
    have hpaused := required_written hn lawful_bool
      (rfl : (observationMembers ts m).lookup "paused".toList = some (some (.bool m.paused)))
    have hgameOver := required_written hn lawful_bool
      (rfl : (observationMembers ts m).lookup "game_over".toList = some (some (.bool m.gameOver)))
    have hepisodeId := required_written hn lawful_u32
      (rfl : (observationMembers ts m).lookup "episode_id".toList = some (some (ofU32 m.episodeId)))
    have hseed := required_written hn lawful_u32
      (rfl : (observationMembers ts m).lookup "seed".toList = some (some (ofU32 m.seed)))
    have hpieceId := required_written hn lawful_u32
      (rfl : (observationMembers ts m).lookup "piece_id".toList = some (some (ofU32 m.pieceId)))
    have hstepInPiece := required_written hn lawful_u32
      (rfl : (observationMembers ts m).lookup "step_in_piece".toList = some (some (ofU32 m.stepInPiece)))
    have hboard := required_written hn lawful_board
      (rfl : (observationMembers ts m).lookup "board".toList = some (some (ofBoard m.board)))
    have hboardId := required_written hn lawful_u32
      (rfl : (observationMembers ts m).lookup "board_id".toList = some (some (ofU32 m.boardId)))
    have hcanHold := required_written hn lawful_bool
      (rfl : (observationMembers ts m).lookup "can_hold".toList = some (some (.bool m.canHold)))
    have hstateHash := required_written hn lawful_stateHash
      (rfl : (observationMembers ts m).lookup "state_hash".toList = some (some (ofStateHash m.stateHash)))
    have hscore := required_written hn lawful_u32
      (rfl : (observationMembers ts m).lookup "score".toList = some (some (ofU32 m.score)))
    have hlevel := required_written hn lawful_u32
      (rfl : (observationMembers ts m).lookup "level".toList = some (some (ofU32 m.level)))
    have hlines := required_written hn lawful_u32
      (rfl : (observationMembers ts m).lookup "lines".toList = some (some (ofU32 m.lines)))
    have htimers := required_written hn lawful_timers
      (rfl : (observationMembers ts m).lookup "timers".toList = some (some (ofTimers m.timers)))
    have hactive := optional_written hn lawful_activePiece (o := m.active)
      (rfl : (observationMembers ts m).lookup "active".toList = _)
    have hghost := optional_written hn lawful_i8 (o := m.ghostY)
      (rfl : (observationMembers ts m).lookup "ghost_y".toList = _)
    have hhold := optional_written hn lawful_pieceKind (o := m.hold)
      (rfl : (observationMembers ts m).lookup "hold".toList = _)
    have hnext := required_written hn lawful_pieceKind (a := m.next)
      (rfl : (observationMembers ts m).lookup "next".toList = _)
    have hnextQueue := required_written hn hqueue (a := m.nextQueue)
      (rfl : (observationMembers ts m).lookup "next_queue".toList = _)
    have hevents := required_written hn hlist (a := m.events)
      (rfl : (observationMembers ts m).lookup "events".toList = _)
    rw [asObservation, hrecord, Option.bind_eq_bind, Option.bind_some, htag, hts, hseq,
      hlogicalStep, hplayable, hpaused, hgameOver, hepisodeId, hseed, hpieceId, hstepInPiece,
      hboard, hboardId, hcanHold, hstateHash, hscore, hlevel, hlines, htimers, hactive, hghost,
      hhold, hnext, hnextQueue, hevents]
    rfl
  · have ht (t : Text) := plain_some lawful_text t
    have hu (n : UInt64) := plain_some lawful_u64 n
    have hb (b : Bool) := plain_some lawful_bool b
    have hn (n : UInt32) := plain_some lawful_u32 n
    exact ⟨ht _, hu _, hu _, hu _, hb _, hb _, hb _, hn _, hn _, hn _, hn _,
      plain_some lawful_board m.board, hn _, plain_map lawful_activePiece m.active,
      plain_map lawful_i8 m.ghostY, ht _, plain_some hqueue m.nextQueue,
      plain_map lawful_pieceKind m.hold, hb _, plain_some hlist m.events,
      plain_some lawful_stateHash m.stateHash, hn _, hn _, hn _, plain_some lawful_timers m.timers⟩

theorem plain_words (names : List String) : ∀ v ∈ some (words names), v.plain = true := by
  rintro v ⟨⟩
  have h := plainItems_map lawful_text (names.map String.toList)
  rwa [List.map_map] at h

theorem plain_capabilities : capabilities.plain = true := by
  refine plain_ofRecord ⟨plain_words _, plain_words _, plain_words _, plain_words _, plain_words _, ?_⟩
  rintro v ⟨⟩
  exact plain_ofRecord ⟨plain_some lawful_bool true, plain_some lawful_text _⟩

theorem plain_outbound (ts : UInt64) (m : ClientOutbound) : (ofOutbound ts m).plain = true := by
  have ht (t : Text) := plain_some lawful_text t
  have hu (n : UInt64) := plain_some lawful_u64 n
  cases m with
  | Ack m =>
    exact plain_ofRecord ⟨ht _, hu _, hu _, ht _, hu _, plain_map lawful_u64 m.appliedStep,
      plain_map lawful_stateHash m.stateHash⟩
  | Error m =>
    exact plain_ofRecord ⟨ht _, hu _, hu _, ht _, ht _, plain_map lawful_u64 m.retryAfterMs⟩
  | Welcome m =>
    refine plain_ofRecord ⟨ht _, hu _, hu _, ht _, hu _, ht _, plain_ofNullable lawful_u64 _, ht _, ?_⟩
    rintro v ⟨⟩
    exact plain_capabilities

end TuiTetris.AdapterWire
