import Mathlib.Logic.Function.Basic
import TuiTetris.AdapterMessages

set_option autoImplicit false

/-!
# The handler of a connection

`handle_client` as a task that waits, between two lines or inside one, for the
broker lock or for the command queue; a step is what one task does without giving
way to another. Any line may come next. What the handlers do is kept in
`history`; replies of the game loop are not among it.
-/
namespace TuiTetris.AdapterHandler
open AdapterBroker AdapterProtocol AdapterGameLoop AdapterMessages

structure ServerConfig where
  protocolVersion : String
  maxPendingCommands : ℕ

/-- A message that goes through `check_and_update_seq` once its client has said hello. -/
inductive Request where
  | command (command : CommandMessage)
  | control (control : ControlMessage)
  | unknown (seq : UInt64)
  deriving DecidableEq

def Request.seq : Request → UInt64
  | .command message => message.seq
  | .control message => message.seq
  | .unknown n => n

/-- What the task does next. A hello is checked, recorded, given its role, and may wait for room
for its snapshot request. -/
inductive Task where
  | absent
  | starting
  | reading
  | helloCheck (hello : HelloMessage)
  | helloSeq (hello : HelloMessage)
  | helloRecord (hello : HelloMessage)
  | helloAssign (hello : HelloMessage)
  | helloSnapshot (hello : HelloMessage)
  | check (request : Request)
  | seq (request : Request)
  | command (command : CommandMessage)
  | trySend (inbound : InboundCommand)
  | claim (seq : UInt64)
  | release (seq : UInt64)
  | leaving
  | ended
  deriving DecidableEq

inductive Event where
  | greeted (hello : HelloMessage)
  | submitted (message : ClientOutbound)
  | enqueued (inbound : InboundCommand)
  deriving DecidableEq

structure Server where
  broker : BrokerState
  clientIdCounter : ℕ
  tasks : ℕ → Task
  commandQueue : List InboundCommand
  history : List (ℕ × Event)

def Server.initial : Server := ⟨⟨[], none⟩, 0, fun _ => .absent, [], []⟩

def clientError (seq : UInt64) (code : ErrorCode) (message : String) : Event :=
  .submitted (.Error (createError seq code message))

def acknowledge (seq : UInt64) : Event := .submitted (.Ack (createAck seq seq))

namespace Server

def setBroker (s : Server) (broker : BrokerState) : Server := { s with broker }

/-- The task of `id` goes on as `task`, having done `events`. -/
def become (s : Server) (id : ℕ) (task : Task) (events : List Event) : Server :=
  { s with
    tasks := Function.update s.tasks id task
    history := s.history ++ events.map (Prod.mk id) }

/-- The first look at a line. -/
def dispatch (s : Server) (id : ℕ) : Line → Server
  | .parsed (.Hello hello) =>
    if hello.seq ≠ 1 then
      s.become id .reading [clientError hello.seq .InvalidCommand "hello seq must be 1"]
    else s.become id (.helloCheck hello) []
  | .parsed (.Command command) => s.become id (.check (.command command)) []
  | .parsed (.Control control) => s.become id (.check (.control control)) []
  | .parsed (.Unknown seq) => s.become id (.check (.unknown seq)) []
  | .unparsable text error =>
    s.become id .reading
      [clientError ((extractSeqBestEffort text).getD 0) .InvalidCommand ("JSON parse error: " ++ error)]

/-- The checks of a hello that need no lock. -/
def validate (s : Server) (id : ℕ) (hello : HelloMessage) : Server :=
  if !isCompatibleProtocolVersion hello.protocolVersion then
    s.become id .leaving [clientError hello.seq .ProtocolMismatch
      ("Protocol version " ++ String.ofList hello.protocolVersion ++ " not supported")]
  else if !hello.json then
    s.become id .reading [clientError hello.seq .InvalidCommand "formats must include json"]
  else s.become id (.helloRecord hello) []

def outOfSeq (s : Server) (id : ℕ) (seq : UInt64) : Server :=
  s.become id .reading [clientError seq .InvalidCommand "seq must be strictly increasing"]

/-- A message before hello; one of unknown type is rejected as such. -/
def ungreeted (s : Server) (id : ℕ) : Request → Server
  | .command command =>
    s.become id .reading [clientError command.seq .HandshakeRequired "Send hello before command"]
  | .control control =>
    s.become id .reading [clientError control.seq .HandshakeRequired "Send hello before control"]
  | .unknown seq => s.become id .reading [clientError seq .InvalidCommand "Unknown message type"]

/-- What follows the sequence check. -/
def proceed (s : Server) (id : ℕ) : Request → Server
  | .command command => s.become id (.command command) []
  | .control ⟨seq, .Claim⟩ => s.become id (.claim seq) []
  | .control ⟨seq, .Release⟩ => s.become id (.release seq) []
  | .unknown seq => s.become id .reading [clientError seq .InvalidCommand "Unknown message type"]

def welcome (config : ServerConfig) (b : BrokerState) (id : ℕ) (hello : HelloMessage) : Event :=
  .submitted (.Welcome (createWelcome hello.seq config.protocolVersion id
    (if b.isController id then .Controller else .Observer) b.controllerId))

/-- The map of a command that its controller sends. -/
def prepare (s : Server) (id : ℕ) (command : CommandMessage) : Server :=
  match mapCommand command with
  | .ok mapped => s.become id (.trySend ⟨id, command.seq, .Command mapped⟩) []
  | .error (code, message) => s.become id .reading [clientError command.seq code message]

/-- One section of the task under the broker lock, `none` where it waits for something else. -/
def runSection (config : ServerConfig) (s : Server) (id : ℕ) : Option Server :=
  match s.tasks id with
  | .starting =>
    some ((s.setBroker { s.broker with clients := s.broker.clients ++ [.new id] }).become id .reading [])
  | .helloCheck hello =>
    if s.broker.isHandshaken id then some (s.become id (.helloSeq hello) [])
    else some (s.validate id hello)
  | .helloSeq hello =>
    let r := s.broker.checkAndUpdateSeq id hello.seq.toNat
    if r.2 then some ((s.setBroker r.1).validate id hello) else some (s.outOfSeq id hello.seq)
  | .helloRecord hello =>
    some ((s.setBroker (recordHello s.broker id hello.requested)).become id (.helloAssign hello)
      [.greeted hello])
  | .helloAssign hello =>
    let b := assignController s.broker id hello.requested
    some ((s.setBroker b).become id
      (if hello.requested.streamObservations then .helloSnapshot hello else .reading)
      [welcome config b id hello])
  | .check request =>
    if s.broker.isHandshaken id then some (s.become id (.seq request) [])
    else some (s.ungreeted id request)
  | .seq request =>
    let r := s.broker.checkAndUpdateSeq id request.seq.toNat
    if r.2 then some ((s.setBroker r.1).proceed id request) else some (s.outOfSeq id request.seq)
  | .command command =>
    if s.broker.isController id then some (s.prepare id command)
    else some (s.become id .reading
      [clientError command.seq .NotController "Only controller may send commands"])
  | .claim seq =>
    let r := AdapterBroker.claim s.broker id
    some ((s.setBroker r.1).become id .reading
      [if r.2 then acknowledge seq
        else clientError seq .ControllerActive "Controller already assigned"])
  | .release seq =>
    some ((s.setBroker (AdapterBroker.release s.broker id)).become id .reading
      [if s.broker.isController id then acknowledge seq
        else clientError seq .NotController "Only controller may release"])
  | .leaving => some ((s.setBroker (s.broker.removeAndPromote id)).become id .ended [])
  | _ => none

/-- The entry of the task is put into the command queue. -/
def enqueue (s : Server) (id : ℕ) : Option Server :=
  match s.tasks id with
  | .trySend inbound =>
    some ({ s with commandQueue := s.commandQueue ++ [inbound] }.become id .reading [.enqueued inbound])
  | .helloSnapshot hello =>
    let inbound : InboundCommand := ⟨id, hello.seq, .SnapshotRequest⟩
    some ({ s with commandQueue := s.commandQueue ++ [inbound] }.become id .reading [.enqueued inbound])
  | _ => none

/-- The queue is full or closed for a command, or closed for a snapshot request. -/
def refuse (s : Server) (id : ℕ) : Option Server :=
  match s.tasks id with
  | .trySend inbound =>
    some (s.become id .reading
      [.submitted (.Error (createBackpressureError inbound.seq "Command queue is full" 50))])
  | .helloSnapshot _ => some (s.become id .leaving [])
  | _ => none

end Server

inductive ServerStep where
  | accept
  | runSection (id : ℕ)
  | line (id : ℕ) (line : Line)
  | leave (id : ℕ)
  | enqueue (id : ℕ)
  | refuse (id : ℕ)
  | takeCommand
  | die (id : ℕ)
  deriving DecidableEq

/-- One atomic step, `none` where no task can take it. A reader leaves at the end of the input, at
a line that is too long or not UTF-8, and at a shutdown. -/
def Server.step (config : ServerConfig) (s : Server) : ServerStep → Option Server
  | .accept =>
    some ({ s with clientIdCounter := s.clientIdCounter + 1 }.become (s.clientIdCounter + 1) .starting [])
  | .runSection id => s.runSection config id
  | .line id line => if s.tasks id = .reading then some (s.dispatch id line) else none
  | .leave id => if s.tasks id = .reading then some (s.become id .leaving []) else none
  | .enqueue id =>
    if s.commandQueue.length < max config.maxPendingCommands 1 then s.enqueue id else none
  | .refuse id => s.refuse id
  | .takeCommand => if s.commandQueue.isEmpty then none else some { s with commandQueue := s.commandQueue.tail }
  | .die id => some (s.setBroker (s.broker.update id fun c => { c with live := false }))

end TuiTetris.AdapterHandler
