import TuiTetris.AdapterObservation
import TuiTetris.AdapterWire
import TuiTetris.TermGameViewPicture

set_option autoImplicit false

/-!
# The observer

A second terminal that follows a game over the wire. Its snapshot comes from the last
observation it has read; nothing it draws depends on what the message leaves out.
-/
namespace TuiTetris.AppObserve
open CoreTypes hiding Cell
open CoreSnapshot LibArrayVec LibDecimal LibJson LibJsonRecord LibText AdapterMessages
open AdapterObservation AdapterProtocol AdapterWire TermFrameBuffer TermGameView
open TermGameViewPicture

structure ObserveConfig where
  host : Text
  port : ℕ

inductive ObserveEvent where
  | Welcome
  | Observation (obs : ObservationMessage)
  | Error (message : Text)
  | Closed

/-! ## Reading a line of the server -/

/-- What a line says that is JSON. -/
def serverEvent (explained : Text) (value : Json) : Option ObserveEvent :=
  let msgType := ((member "type".toList value).bind asText).getD []
  if msgType = "welcome".toList then some .Welcome
  else if msgType = "observation".toList then
    match asObservation value with
    | some obs => some (.Observation obs)
    | none => some (.Error ("observe: invalid observation: ".toList ++ explained))
  else if msgType = "error".toList then
    let code := ((member "code".toList value).bind asText).getD "unknown".toList
    let msg := ((member "message".toList value).bind asText).getD []
    some (.Error ("observe: server error ".toList ++ code ++ ' ' :: msg))
  else none

def parseServerLine (json : JsonText) (line : Text) : Option ObserveEvent :=
  match json.read line with
  | some value => serverEvent (json.explain line) value
  | none => some (.Error ("observe: invalid json: ".toList ++ json.explain line))

theorem parseServerLine_print (json : JsonText) {v : Json} (h : v.plain = true) :
    parseServerLine json (json.print v) = serverEvent (json.explain (json.print v)) v := by
  unfold parseServerLine
  rw [json.read_print v h]

/-- What the reading thread makes of all that a connection delivers. -/
def receivedEvents (json : JsonText) (stream : Text) : List ObserveEvent :=
  (lines stream).filterMap (fun line =>
    if line.all isWhitespace then none else parseServerLine json line) ++ [.Closed]

/-! ## What the server sends -/

inductive ServerMessage where
  | reply (message : ClientOutbound)
  | observation (message : ObservationMessage)

def ServerMessage.toJson (ts : UInt64) : ServerMessage → Json
  | .reply m => ofOutbound ts m
  | .observation m => ofObservation ts m

/-- An acknowledgment is nothing to an observer. -/
def ServerMessage.event : ServerMessage → Option ObserveEvent
  | .observation m => some (.Observation m)
  | .reply (.Welcome _) => some .Welcome
  | .reply (.Error m) =>
    some (.Error ("observe: server error ".toList ++ errorCodeName m.code ++ ' ' :: m.message.toList))
  | .reply (.Ack _) => none

theorem plain_serverMessage (ts : UInt64) (m : ServerMessage) : (m.toJson ts).plain = true := by
  cases m with
  | reply m => exact plain_outbound ts m
  | observation m => exact (lawful_observation ts).plain m

theorem serverEvent_message (explained : Text) (ts : UInt64) (m : ServerMessage) :
    serverEvent explained (m.toJson ts) = m.event := by
  unfold serverEvent
  match m with
  | .observation m =>
    have hn : ((observationMembers ts m).map Prod.fst).Nodup := (by decide : observationKeys.Nodup)
    have htype : member "type".toList (ofObservation ts m) = some (.text "observation".toList) :=
      member_ofRecord hn "type".toList
    rw [ServerMessage.toJson, htype, (lawful_observation ts).decode_encode m]
    rfl
  | .reply (.Ack m) =>
    have hn : ((ackMembers ts m).map Prod.fst).Nodup := (by decide : ackKeys.Nodup)
    have htype : member "type".toList (ofAck ts m) = some (.text "ack".toList) :=
      member_ofRecord hn "type".toList
    rw [ServerMessage.toJson, ofOutbound, htype]
    rfl
  | .reply (.Error m) =>
    have hn : ((errorMembers ts m).map Prod.fst).Nodup := (by decide : errorKeys.Nodup)
    have htype : member "type".toList (ofError ts m) = some (.text "error".toList) :=
      member_ofRecord hn "type".toList
    have hcode : member "code".toList (ofError ts m) = some (.text (errorCodeName m.code)) :=
      member_ofRecord hn "code".toList
    have hmessage : member "message".toList (ofError ts m) = some (.text m.message.toList) :=
      member_ofRecord hn "message".toList
    rw [ServerMessage.toJson, ofOutbound, htype, hcode, hmessage]
    rfl
  | .reply (.Welcome m) =>
    have hn : ((welcomeMembers ts m).map Prod.fst).Nodup := (by decide : welcomeKeys.Nodup)
    have htype : member "type".toList (ofWelcome ts m) = some (.text "welcome".toList) :=
      member_ofRecord hn "type".toList
    rw [ServerMessage.toJson, ofOutbound, htype]
    rfl

theorem parseServerLine_message (json : JsonText) (ts : UInt64) (m : ServerMessage) :
    parseServerLine json (json.print (m.toJson ts)) = m.event := by
  rw [parseServerLine_print json (plain_serverMessage ts m)]
  exact serverEvent_message _ ts m

/-- Whatever the server sends, the observer receives just that, message by message. -/
theorem stream_understood (json : JsonText) (sent : List (UInt64 × ServerMessage)) :
    receivedEvents json (unlines (sent.map fun m => json.print (m.2.toJson m.1))) =
      sent.filterMap (fun m => m.2.event) ++ [.Closed] := by
  have hline : ∀ l ∈ sent.map fun m => json.print (m.2.toJson m.1), OneLine l := by
    intro l hl
    obtain ⟨m, -, rfl⟩ := List.mem_map.mp hl
    exact json.oneLine_print _ (plain_serverMessage m.1 m.2)
  rw [receivedEvents, lines_unlines hline, List.filterMap_map]
  congr 2
  funext m
  have hsolid := json.print_solid (plain_serverMessage m.1 m.2)
  exact (if_neg (Bool.not_eq_true _ ▸ hsolid)).trans (parseServerLine_message json m.1 m.2)

/-! ## The snapshot of an observation -/

def pieceKindFromLower : PieceKindLower → PieceKind
  | .I => .I
  | .O => .O
  | .T => .T
  | .S => .S
  | .Z => .Z
  | .J => .J
  | .L => .L

def rotationFromLower : RotationLower → Rotation
  | .North => .North
  | .East => .East
  | .South => .South
  | .West => .West

def snapshotFromObservation (obs : ObservationMessage) : GameSnapshot :=
  { board := obs.board.cells, boardId := obs.boardId, boardHash := 0,
    active := obs.active.map fun a =>
      ⟨pieceKindFromLower a.kind, rotationFromLower a.rotation, a.x, a.y⟩,
    ghostY := obs.ghostY, hold := obs.hold.map pieceKindFromLower,
    nextQueue := obs.nextQueue.map pieceKindFromLower, canHold := obs.canHold, paused := obs.paused,
    gameOver := obs.gameOver, episodeId := obs.episodeId, seed := obs.seed, pieceId := obs.pieceId,
    stepInPiece := obs.stepInPiece, score := obs.score, level := obs.level, lines := obs.lines,
    timers := obs.timers }

end TuiTetris.AppObserve
