import Mathlib.Data.List.TakeWhile

set_option autoImplicit false

/-!
# Frames of a buffered stream

A reader hands out its stream in chunks of any size. Frames end with a mark and
have a bounded payload; which frames a stream has is said of the stream alone.
-/
namespace TuiTetris.LibFraming

variable {α : Type}

/-! ## Readers -/

abbrev Chunk (α : Type) := {bytes : List α // bytes ≠ []}

/-- The chunks still to come; the first is what the buffer holds. -/
structure Reader (α : Type) where
  chunks : List (Chunk α)

namespace Reader

def stream (r : Reader α) : List α := r.chunks.flatMap Subtype.val

/-- Nothing but the end of the stream leaves the buffer empty. -/
def fillBuf (r : Reader α) : List α :=
  match r.chunks with
  | [] => []
  | c :: _ => c.val

def consume (r : Reader α) (amount : ℕ) : Reader α :=
  match r.chunks with
  | [] => r
  | c :: cs => if h : c.val.drop amount ≠ [] then ⟨⟨c.val.drop amount, h⟩ :: cs⟩ else ⟨cs⟩

theorem fillBuf_nil {r : Reader α} (h : r.fillBuf = []) : r.stream = [] := by
  obtain ⟨chunks⟩ := r
  cases chunks with
  | nil => rfl
  | cons c cs => exact absurd h c.property

/-- The buffer is a prefix of the stream, and consuming a part of it drops that part. -/
theorem stream_consume (r : Reader α) (amount : ℕ) (h : amount ≤ r.fillBuf.length) :
    r.stream = r.fillBuf.take amount ++ (r.consume amount).stream := by
  obtain ⟨chunks⟩ := r
  cases chunks with
  | nil => simp [stream, fillBuf, consume]
  | cons c cs =>
    have hsplit : c.val = c.val.take amount ++ c.val.drop amount :=
      (List.take_append_drop amount c.val).symm
    simp only [stream, fillBuf, consume, List.flatMap_cons]
    split
    · rw [List.flatMap_cons, ← List.append_assoc, ← hsplit]
    · next hdrop =>
      rw [not_not.mp hdrop, List.append_nil] at hsplit
      rw [← hsplit]

theorem consume_all {r : Reader α} (h : r.fillBuf ≠ []) :
    (r.consume r.fillBuf.length).chunks.length + 1 = r.chunks.length := by
  obtain ⟨chunks⟩ := r
  cases chunks with
  | nil => exact absurd rfl h
  | cons c cs => simp [fillBuf, consume]

end Reader

/-! ## Frames -/

inductive Frame (α : Type) where
  | line (bytes : List α)
  | tooLong
  | eof
  deriving DecidableEq, Repr

def Frame.bytes : Frame α → List α
  | .line bytes => bytes
  | _ => []

variable [DecidableEq α] (mark : α) (limit : ℕ)

/-- The first frame of a stream and the stream after it. A frame is as long as its payload, the
mark not counted; what is left before the end is a frame without a mark. -/
def firstFrame (stream : List α) : Frame α × List α :=
  let payload := stream.takeWhile (· ≠ mark)
  if limit < payload.length then (.tooLong, [])
  else
    match stream.dropWhile (· ≠ mark) with
    | m :: rest => (.line (payload ++ [m]), rest)
    | [] => (if payload.isEmpty then .eof else .line payload, [])

/-- The first `n` frames of a stream; none comes after its end or after one that is too long. -/
def frames : ℕ → List α → List (Frame α)
  | 0, _ => []
  | n + 1, stream =>
    match firstFrame mark limit stream with
    | (.line bytes, rest) => .line bytes :: frames n rest
    | (frame, _) => [frame]

variable {mark limit} {payload rest : List α}

theorem ne_mark (h : mark ∉ payload) : ∀ a ∈ payload, (decide (a ≠ mark)) = true :=
  fun _ ha => decide_eq_true fun he => h (he ▸ ha)

theorem takeWhile_payload (h : mark ∉ payload) (rest : List α) :
    (payload ++ mark :: rest).takeWhile (· ≠ mark) = payload ∧
      (payload ++ mark :: rest).dropWhile (· ≠ mark) = mark :: rest := by
  rw [List.takeWhile_append_of_pos (ne_mark h), List.dropWhile_append_of_pos (ne_mark h)]
  simp

theorem firstFrame_line (h : mark ∉ payload) (hl : payload.length ≤ limit) :
    firstFrame mark limit (payload ++ mark :: rest) = (.line (payload ++ [mark]), rest) := by
  obtain ⟨htake, hdrop⟩ := takeWhile_payload h rest
  simp only [firstFrame, htake, hdrop, if_neg (Nat.not_lt.mpr hl)]

theorem firstFrame_last (h : mark ∉ payload) (hl : payload.length ≤ limit) :
    firstFrame mark limit payload = (if payload.isEmpty then .eof else .line payload, []) := by
  have htake := List.takeWhile_eq_self_iff.mpr (ne_mark h)
  have hdrop := List.dropWhile_eq_nil_iff.mpr (ne_mark h)
  simp only [firstFrame, htake, hdrop, if_neg (Nat.not_lt.mpr hl)]

/-- Bytes without a mark past the limit decide that the frame is too long. -/
theorem firstFrame_tooLong (h : mark ∉ payload) (hl : limit < payload.length) :
    firstFrame mark limit (payload ++ rest) = (.tooLong, []) := by
  have hlong : limit < ((payload ++ rest).takeWhile (· ≠ mark)).length := by
    rw [List.takeWhile_append_of_pos (ne_mark h), List.length_append]
    omega
  exact if_pos hlong

theorem firstFrame_prefix (mark : α) (limit : ℕ) (stream : List α) :
    (firstFrame mark limit stream).1.bytes ++ (firstFrame mark limit stream).2 <+: stream := by
  have hsplit : stream.takeWhile (· ≠ mark) ++ stream.dropWhile (· ≠ mark) = stream :=
    List.takeWhile_append_dropWhile
  simp only [firstFrame]
  split
  · exact List.nil_prefix
  · split
    · next m rest hdrop =>
      rw [hdrop] at hsplit
      exact ⟨[], by simpa [Frame.bytes] using hsplit⟩
    · next hdrop =>
      rw [hdrop] at hsplit
      split
      · exact List.nil_prefix
      · exact ⟨[], by simpa [Frame.bytes] using hsplit⟩

/-- The frames are cut from the stream in order, and no byte of it is skipped. -/
theorem frames_prefix (mark : α) (limit n : ℕ) (stream : List α) :
    (frames mark limit n stream).flatMap Frame.bytes <+: stream := by
  induction n generalizing stream with
  | zero => exact List.nil_prefix
  | succ n ih =>
    have hfirst := firstFrame_prefix mark limit stream
    unfold frames
    split
    · next bytes rest h =>
      rw [h] at hfirst
      rw [List.flatMap_cons]
      exact ((List.prefix_append_right_inj bytes).mpr (ih rest)).trans hfirst
    · next frame rest _ h =>
      rw [h] at hfirst
      simpa using (List.prefix_append frame.bytes rest).trans hfirst

/-! ## The position of the mark -/

theorem findIdx_absent (h : mark ∉ payload) : payload.findIdx? (· == mark) = none := by
  rw [List.findIdx?_eq_none_iff]
  intro a ha
  exact beq_eq_false_iff_ne.mpr fun he => h (he ▸ ha)

theorem findIdx_mark (h : mark ∉ payload) :
    (payload ++ mark :: rest).findIdx? (· == mark) = some payload.length := by
  rw [List.findIdx?_append, findIdx_absent h]
  simp [List.findIdx?_cons]

end TuiTetris.LibFraming
