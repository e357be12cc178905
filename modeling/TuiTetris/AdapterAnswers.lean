import TuiTetris.AdapterHandshake

set_option autoImplicit false

/-!
# One answer to each line

The handler answers the lines of its client in order, each one once and by the number that the
line came with. A command that it hands on counts as answered; the game loop replies to it.
-/
namespace TuiTetris.AdapterAnswers
open AdapterBroker AdapterHandler AdapterMessages
open AdapterHandshake (Invariant invariant_step repeatedServer repeatedServer_reached)

/-- The number that a step of the handler answers to. -/
def answer : Event → Option UInt64
  | .submitted (.Ack ack) => some ack.correlationSeq
  | .submitted (.Error error) => some error.seq
  | .submitted (.Welcome welcome) => some welcome.seq
  | .enqueued ⟨_, seq, .Command _⟩ => some seq
  | .enqueued ⟨_, _, .SnapshotRequest⟩ => none
  | .greeted _ => none

def answers (s : Server) (id : ℕ) : List UInt64 :=
  s.history.filterMap fun h => if h.1 = id then answer h.2 else none

end TuiTetris.AdapterAnswers
