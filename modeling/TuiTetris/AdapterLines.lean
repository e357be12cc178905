import TuiTetris.LibFraming

set_option autoImplicit false

/-!
# Bounded lines

The reader of inbound lines takes what the buffer holds, up to a newline, and
gives up where the payload would pass the limit. Errors of the transport end the
connection and are left out.
-/
namespace TuiTetris.AdapterLines
open LibFraming

def newline : UInt8 := 10

def maxInboundLineBytes : ℕ := 64 * 1024

inductive BoundedLineRead where
  | Eof | Line | TooLong
  deriving DecidableEq, Repr

/-- What one turn of the loop of `read_bounded_line` does. -/
inductive Turn where
  | again (line : List UInt8) (reader : Reader UInt8)
  | returned (result : BoundedLineRead) (line : List UInt8) (reader : Reader UInt8)

def readTurn (line : List UInt8) (reader : Reader UInt8) : Turn :=
  let available := reader.fillBuf
  if available.isEmpty then .returned (if line.isEmpty then .Eof else .Line) line reader
  else
    let position := available.findIdx? (· == newline)
    let payloadLen := position.getD available.length
    if line.length + payloadLen > maxInboundLineBytes then .returned .TooLong line reader
    else
      let consumed := position.elim available.length (· + 1)
      let line := line ++ available.take consumed
      let reader := reader.consume consumed
      if position.isSome then .returned .Line line reader else .again line reader

def readLoop : ℕ → List UInt8 → Reader UInt8 →
    Option (BoundedLineRead × List UInt8 × Reader UInt8)
  | 0, _, _ => none
  | fuel + 1, line, reader =>
    match readTurn line reader with
    | .again line reader => readLoop fuel line reader
    | .returned result line reader => some (result, line, reader)

/-- The line buffer is cleared first; every turn but the last takes a whole chunk. -/
def readBoundedLine (reader : Reader UInt8) : Option (BoundedLineRead × List UInt8 × Reader UInt8) :=
  readLoop (reader.chunks.length + 1) [] reader

/-- What the first `n` calls report; the caller stops at the end and at a line that is too long. -/
def readLines : ℕ → Reader UInt8 → List (Frame UInt8)
  | 0, _ => []
  | n + 1, reader =>
    match readBoundedLine reader with
    | some (.Line, line, reader) => .line line :: readLines n reader
    | some (.Eof, _, _) => [.eof]
    | some (.TooLong, _, _) => [.tooLong]
    | none => []

/-- The contents that the line buffer takes on in a call. -/
def loopBuffers : ℕ → List UInt8 → Reader UInt8 → List (List UInt8)
  | 0, line, _ => [line]
  | fuel + 1, line, reader =>
    line :: match readTurn line reader with
      | .again line reader => loopBuffers fuel line reader
      | .returned _ line _ => [line]

def lineBuffers : ℕ → Reader UInt8 → List (List UInt8)
  | 0, _ => []
  | n + 1, reader =>
    loopBuffers (reader.chunks.length + 1) [] reader ++
      match readBoundedLine reader with
      | some (.Line, _, reader) => lineBuffers n reader
      | _ => []

/-! ## One turn -/

/-- The call has found the first frame of the stream and left the reader after it. -/
def Found (stream : List UInt8) : BoundedLineRead → List UInt8 → Reader UInt8 → Prop
  | .Eof, _, _ => firstFrame newline maxInboundLineBytes stream = (.eof, [])
  | .Line, line, reader =>
    firstFrame newline maxInboundLineBytes stream = (.line line, reader.stream)
  | .TooLong, _, _ => firstFrame newline maxInboundLineBytes stream = (.tooLong, [])

/-- An open line: its newline has not come, and its payload is within the limit. -/
def Open (line : List UInt8) : Prop := newline ∉ line ∧ line.length ≤ maxInboundLineBytes

/-- A turn that goes on has moved a whole chunk to the line; one that returns has found the frame. -/
def TurnDone (line : List UInt8) (reader : Reader UInt8) : Turn → Prop
  | .again line' reader' => line' ++ reader'.stream = line ++ reader.stream ∧ Open line' ∧
      reader'.chunks.length + 1 = reader.chunks.length
  | .returned result line' reader' => Found (line ++ reader.stream) result line' reader' ∧
      line'.length ≤ maxInboundLineBytes + 1

theorem readTurn_end {line : List UInt8} (h : Open line) {reader : Reader UInt8}
    (hb : reader.fillBuf = []) : TurnDone line reader (readTurn line reader) := by
  have hstream := Reader.fillBuf_nil hb
  have hlast := firstFrame_last h.1 h.2
  have hturn : readTurn line reader =
      .returned (if line.isEmpty then .Eof else .Line) line reader := by
    unfold readTurn
    rw [hb]
    rfl
  rw [hturn]
  unfold TurnDone
  rw [hstream, List.append_nil]
  refine ⟨?_, Nat.le_succ_of_le h.2⟩
  cases hl : line.isEmpty with
  | true =>
    rw [hl, if_pos rfl] at hlast
    rw [if_pos rfl]
    exact hlast
  | false =>
    rw [hl, if_neg (by decide)] at hlast
    rw [if_neg (by decide)]
    exact hlast.trans (by rw [hstream])

theorem readTurn_absent {line : List UInt8} (h : Open line) {reader : Reader UInt8}
    (hb : reader.fillBuf ≠ []) (hn : newline ∉ reader.fillBuf) :
    TurnDone line reader (readTurn line reader) := by
  have hstream := reader.stream_consume reader.fillBuf.length (Nat.le_refl _)
  rw [List.take_length] at hstream
  have hopen : newline ∉ line ++ reader.fillBuf := by
    rw [List.mem_append, not_or]
    exact ⟨h.1, hn⟩
  have hempty : reader.fillBuf.isEmpty = false := by simpa using hb
  unfold readTurn
  simp only [hempty, findIdx_absent hn, Option.getD_none, Option.elim_none, List.take_length,
    Bool.false_eq_true, if_false, Option.isSome_none]
  split
  · next hlong =>
    refine ⟨?_, Nat.le_succ_of_le h.2⟩
    unfold Found
    rw [hstream, ← List.append_assoc]
    exact firstFrame_tooLong hopen (by rw [List.length_append]; exact hlong)
  · next hshort =>
    refine ⟨?_, ⟨hopen, ?_⟩, Reader.consume_all hb⟩
    · rw [hstream, List.append_assoc]
    · rw [List.length_append]
      omega

theorem readTurn_found {line : List UInt8} (h : Open line) {reader : Reader UInt8}
    {payload rest : List UInt8} (hb : reader.fillBuf = payload ++ newline :: rest)
    (hn : newline ∉ payload) : TurnDone line reader (readTurn line reader) := by
  have hlen : payload.length + 1 ≤ reader.fillBuf.length := by
    rw [hb]
    simp
  have hstream := reader.stream_consume (payload.length + 1) hlen
  have htake : reader.fillBuf.take (payload.length + 1) = payload ++ [newline] := by
    have hjoin : payload ++ newline :: rest = (payload ++ [newline]) ++ rest := by simp
    rw [hb, hjoin]
    exact List.take_left' (by simp)
  rw [htake] at hstream
  have hopen : newline ∉ line ++ payload := by
    rw [List.mem_append, not_or]
    exact ⟨h.1, hn⟩
  have hempty : reader.fillBuf.isEmpty = false := by
    rw [hb]
    simp
  have hposition : reader.fillBuf.findIdx? (· == newline) = some payload.length := by
    rw [hb]
    exact findIdx_mark hn
  unfold readTurn
  simp only [hempty, hposition, Option.getD_some, Option.elim_some, Bool.false_eq_true, if_false,
    Option.isSome_some, if_true, htake]
  have hjoin : line ++ reader.stream =
      (line ++ payload) ++ newline :: (reader.consume (payload.length + 1)).stream := by
    rw [hstream]
    simp
  split
  · next hlong =>
    refine ⟨?_, Nat.le_succ_of_le h.2⟩
    unfold Found
    rw [hjoin]
    exact firstFrame_tooLong hopen (by rw [List.length_append]; exact hlong)
  · next hshort =>
    have hfit : (line ++ payload).length ≤ maxInboundLineBytes := by
      rw [List.length_append]
      omega
    refine ⟨?_, ?_⟩
    · unfold Found
      rw [hjoin, firstFrame_line hopen hfit, List.append_assoc]
    · rw [← List.append_assoc, List.length_append, List.length_singleton]
      omega

/-- A newline may come at any place of the chunk, its first byte and its last included. -/
theorem readTurn_done {line : List UInt8} (h : Open line) (reader : Reader UInt8) :
    TurnDone line reader (readTurn line reader) := by
  by_cases hb : reader.fillBuf = []
  · exact readTurn_end h hb
  · by_cases hn : newline ∈ reader.fillBuf
    · obtain ⟨payload, rest, hsplit, hpayload⟩ := List.eq_append_cons_of_mem hn
      exact readTurn_found h hsplit hpayload
    · exact readTurn_absent h hb hn

/-! ## One call -/

/-- The call ends with the first frame of what its line and the stream make together. -/
theorem readLoop_found {fuel : ℕ} {line : List UInt8} {reader : Reader UInt8} (h : Open line)
    (hf : reader.chunks.length < fuel) : ∃ result line' reader',
      readLoop fuel line reader = some (result, line', reader') ∧
        Found (line ++ reader.stream) result line' reader' := by
  induction fuel generalizing line reader with
  | zero => omega
  | succ fuel ih =>
    have hturn := readTurn_done h reader
    unfold readLoop
    cases ht : readTurn line reader with
    | again line' reader' =>
      rw [ht] at hturn
      obtain ⟨hstream, hopen, hchunks⟩ := hturn
      rw [← hstream]
      exact ih hopen (by omega)
    | returned result line' reader' =>
      rw [ht] at hturn
      exact ⟨result, line', reader', rfl, hturn.1⟩

theorem loopBuffers_bounded {fuel : ℕ} {line : List UInt8} {reader : Reader UInt8} (h : Open line) :
    ∀ buffer ∈ loopBuffers fuel line reader, buffer.length ≤ maxInboundLineBytes + 1 := by
  induction fuel generalizing line reader with
  | zero =>
    intro buffer hb
    rw [List.mem_singleton.mp hb]
    exact Nat.le_succ_of_le h.2
  | succ fuel ih =>
    intro buffer hb
    have hturn := readTurn_done h reader
    rcases List.mem_cons.mp hb with rfl | hb
    · exact Nat.le_succ_of_le h.2
    · cases ht : readTurn line reader with
      | again line' reader' =>
        rw [ht] at hturn hb
        exact ih hturn.2.1 buffer hb
      | returned result line' reader' =>
        rw [ht] at hturn hb
        rw [List.mem_singleton.mp hb]
        exact hturn.2

theorem open_nil : Open [] := ⟨List.not_mem_nil, Nat.zero_le _⟩

theorem readBoundedLine_found (reader : Reader UInt8) : ∃ result line reader',
    readBoundedLine reader = some (result, line, reader') ∧ Found reader.stream result line reader' :=
  readLoop_found open_nil (Nat.lt_succ_self _)

/-! ## Repeated calls -/

theorem readLines_frames (n : ℕ) (reader : Reader UInt8) :
    readLines n reader = frames newline maxInboundLineBytes n reader.stream := by
  induction n generalizing reader with
  | zero => rfl
  | succ n ih =>
    obtain ⟨result, line, reader', hread, hfound⟩ := readBoundedLine_found reader
    unfold readLines frames
    rw [hread]
    cases result with
    | Eof =>
      have hframe : firstFrame newline maxInboundLineBytes reader.stream = (.eof, []) := hfound
      rw [hframe]
    | Line =>
      have hframe : firstFrame newline maxInboundLineBytes reader.stream =
          (.line line, reader'.stream) := hfound
      simp only [hframe, ih]
    | TooLong =>
      have hframe : firstFrame newline maxInboundLineBytes reader.stream = (.tooLong, []) := hfound
      rw [hframe]

theorem lineBuffers_bounded (n : ℕ) (reader : Reader UInt8) :
    ∀ buffer ∈ lineBuffers n reader, buffer.length ≤ maxInboundLineBytes + 1 := by
  induction n generalizing reader with
  | zero => nofun
  | succ n ih =>
    intro buffer hb
    rcases List.mem_append.mp hb with hb | hb
    · exact loopBuffers_bounded open_nil buffer hb
    · split at hb
      · exact ih _ buffer hb
      · cases hb

/-- However the stream is cut into chunks, the calls report its frames, byte for byte, and the
line buffer holds no more than the limit and a newline. -/
theorem framing_independent (reader : Reader UInt8) (n : ℕ) :
    readLines n reader = frames newline maxInboundLineBytes n reader.stream ∧
      (readLines n reader).flatMap Frame.bytes <+: reader.stream ∧
      ∀ buffer ∈ lineBuffers n reader, buffer.length ≤ maxInboundLineBytes + 1 := by
  refine ⟨readLines_frames n reader, ?_, lineBuffers_bounded n reader⟩
  rw [readLines_frames]
  exact frames_prefix newline maxInboundLineBytes n reader.stream

end TuiTetris.AdapterLines
