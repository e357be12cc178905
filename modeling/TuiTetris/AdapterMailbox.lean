import TuiTetris.AdapterMessages
import TuiTetris.LibTransition

set_option autoImplicit false

/-!
# The reliable mailbox of a client

Any holder of the sender may send at any moment; the one writer takes messages
out until it ends. A message that finds the queue full is dropped and asks for
the connection to be closed, which the handler notices later.
-/
namespace TuiTetris.AdapterMailbox
open LibTransition AdapterProtocol AdapterMessages

def clientReliableQueueCapacity : ℕ := 32

/-- `shutdown` is the flag of the watch channel, `closed` says that the receiver is gone.
`submitted` and `written` are records beside the state. -/
structure Mailbox where
  queue : List ClientOutbound
  shutdown : Bool
  closed : Bool
  submitted : List ClientOutbound
  written : List ClientOutbound
  deriving DecidableEq

def Mailbox.empty : Mailbox := ⟨[], false, false, [], []⟩

namespace Mailbox

def isFull (m : Mailbox) : Bool := clientReliableQueueCapacity ≤ m.queue.length

def isLive (m : Mailbox) : Bool := !m.shutdown && !m.closed

def requestShutdown (m : Mailbox) : Mailbox := { m with shutdown := true }

/-- `try_send` fails when the channel is closed or full; the shutdown flag is not looked at. -/
def trySendReliable (m : Mailbox) (message : ClientOutbound) : Mailbox × Bool :=
  let m := { m with submitted := m.submitted ++ [message] }
  if m.closed then (m, false)
  else if m.isFull then (m.requestShutdown, false)
  else ({ m with queue := m.queue ++ [message] }, true)

/-- What `publish_observation` does here; its own slot is another one. -/
def publishObservation (m : Mailbox) (receiving : Bool) : Mailbox × Bool :=
  if !m.isLive || !receiving then (m.requestShutdown, false) else (m, true)

end Mailbox

inductive MailboxStep where
  | trySend (message : ClientOutbound)
  | publish (receiving : Bool)
  | write
  | writerExit
  deriving DecidableEq

/-- One step, `none` where the writer has nothing to take. A writer that ends drops what is left in
the queue, and the message it could not write. -/
def Mailbox.step (m : Mailbox) : MailboxStep → Option Mailbox
  | .trySend message => some (m.trySendReliable message).1
  | .publish receiving => some (m.publishObservation receiving).1
  | .write =>
    if m.closed then none
    else
      match m.queue with
      | [] => none
      | message :: queue => some { m with queue, written := m.written ++ [message] }
  | .writerExit => some { m with closed := true }

/-- Nothing is sent while the shutdown flag is up and the queue would take it. -/
def quiet (m : Mailbox) : MailboxStep → Bool
  | .trySend _ => !m.shutdown || m.closed || m.isFull
  | _ => true

/-- What is written or still queued is what was submitted first; nothing is missing until the flag
is up or the receiver is gone. -/
structure InOrder (m : Mailbox) : Prop where
  prefixed : m.written ++ m.queue <+: m.submitted
  complete : m.shutdown = false → m.closed = false → m.written ++ m.queue = m.submitted

theorem inOrder_dropped {m u : Mailbox} (h : InOrder m) {message : ClientOutbound}
    (hw : u.written = m.written) (hq : u.queue = m.queue) (hs : u.submitted = m.submitted ++ [message])
    (hd : u.shutdown = true ∨ u.closed = true) : InOrder u := by
  constructor
  · rw [hw, hq, hs]
    exact h.prefixed.trans (List.prefix_append _ _)
  · intro hn hc
    rcases hd with hd | hd
    · exact absurd hd (by rw [hn]; exact Bool.false_ne_true)
    · exact absurd hd (by rw [hc]; exact Bool.false_ne_true)

theorem inOrder_trySend {m : Mailbox} (h : InOrder m) (message : ClientOutbound)
    (hq : quiet m (.trySend message) = true) : InOrder (m.trySendReliable message).1 := by
  unfold Mailbox.trySendReliable
  simp only
  split
  · next hc => exact inOrder_dropped h rfl rfl rfl (.inr hc)
  · next hc =>
    split
    · exact inOrder_dropped h rfl rfl rfl (.inl rfl)
    · next hf =>
      -- the message is taken, so the flag is down and all before it went the same way
      have hopen : m.closed = false := by simpa using hc
      have hroom : m.isFull = false := by simpa [Mailbox.isFull] using hf
      have hdown : m.shutdown = false := by simpa [quiet, hopen, hroom] using hq
      have hall := h.complete hdown hopen
      have htaken : m.written ++ (m.queue ++ [message]) = m.submitted ++ [message] := by
        rw [← List.append_assoc, hall]
      exact ⟨htaken ▸ List.prefix_rfl, fun _ _ => htaken⟩

theorem inOrder_publish {m : Mailbox} (h : InOrder m) (receiving : Bool) :
    InOrder (m.publishObservation receiving).1 := by
  unfold Mailbox.publishObservation
  split
  · exact ⟨h.prefixed, fun hs => (nomatch hs)⟩
  · exact h

theorem inOrder_step {m u : Mailbox} {step : MailboxStep} (h : InOrder m)
    (hq : quiet m step = true) (hu : m.step step = some u) : InOrder u := by
  cases step with
  | trySend message =>
    cases hu
    exact inOrder_trySend h message hq
  | publish receiving =>
    cases hu
    exact inOrder_publish h receiving
  | write =>
    obtain ⟨-, hu⟩ := Option.ite_none_left_eq_some.mp hu
    cases hm : m.queue with
    | nil =>
      rw [hm] at hu
      cases hu
    | cons message queue =>
      rw [hm] at hu
      cases hu
      have hsplit : m.written ++ [message] ++ queue = m.written ++ m.queue := by
        rw [hm, List.append_assoc]
        rfl
      exact ⟨hsplit ▸ h.prefixed, fun hs hc => hsplit.trans (h.complete hs hc)⟩
  | writerExit =>
    cases hu
    exact ⟨h.prefixed, fun _ hc => (nomatch hc)⟩

/-- Runs in which no message is taken between an overflow and the end of the connection. -/
def Quiet : Mailbox → Prop :=
  Reach (fun m => m = .empty) (fun m step u => quiet m step = true ∧ m.step step = some u)

theorem written_prefix {m : Mailbox} (h : Quiet m) : m.written <+: m.submitted := by
  have hi : InOrder m := by
    refine Reach.invariant h ?_ fun m step u hm hstep => inOrder_step hm hstep.1 hstep.2
    rintro _ rfl
    exact ⟨List.prefix_rfl, fun _ _ => rfl⟩
  exact (List.prefix_append _ _).trans hi.prefixed

def numbered (n : ℕ) : ClientOutbound := .Ack (createAck (UInt64.ofNat n) (UInt64.ofNat n))

/-- The queue overflows, the writer takes what is in it and ends, and a last message comes too late. -/
def overflow : List MailboxStep :=
  (List.range 33).map (fun n => .trySend (numbered n)) ++
    List.replicate 32 .write ++ [.writerExit, .trySend (numbered 33)]

def overflowed : Mailbox := (overflow.foldlM (guarded quiet Mailbox.step) .empty).getD .empty

theorem overflow_reached : overflow.foldlM (guarded quiet Mailbox.step) .empty = some overflowed :=
  (Option.getD_of_ne_none (by decide +kernel) _).symm

theorem written_prefix_overflow :
    overflowed.shutdown = true ∧ overflowed.submitted.length = 34 ∧
      overflowed.written.length = 32 ∧ overflowed.written <+: overflowed.submitted :=
  ⟨by decide +kernel, by decide +kernel, by decide +kernel,
    written_prefix (.foldlM_guarded (.init rfl) overflow overflow_reached)⟩

/-- The queue overflows, the writer takes one message, and another one is sent; then all is
written. -/
def lateAck : List MailboxStep :=
  (List.range 33).map (fun n => .trySend (numbered n)) ++
    .write :: .trySend (numbered 33) :: List.replicate 32 .write

theorem lateAck_gap : (lateAck.foldlM Mailbox.step .empty).any
    (fun m => !decide (m.written <+: m.submitted)) = true := by
  decide +kernel

/-- The dropped ack is missing between two that arrive. -/
theorem lateAck_not_prefix :
    ¬∀ m, Reach (fun m => m = Mailbox.empty) (fun m step u => Mailbox.step m step = some u) m →
      m.written <+: m.submitted := by
  intro h
  obtain ⟨m, hm, hgap⟩ := (Option.any_eq_true _ _).mp lateAck_gap
  have hp := h m (Reach.foldlM (.init rfl) lateAck hm)
  rw [decide_eq_true hp] at hgap
  cases hgap

end TuiTetris.AdapterMailbox
