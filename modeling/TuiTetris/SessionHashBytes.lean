import TuiTetris.LibEncoding
import TuiTetris.SessionReplay

set_option autoImplicit false

/-!
# The bytes under the hashes

Both hashes run FNV over a sequence of bytes. The optional parts have no length of
their own; their marks, the fixed widths and the counts make the sequence readable
in one way.
-/
namespace TuiTetris.SessionHashBytes
open CoreTypes CoreSnapshot CoreStateHash SessionEngine SessionReplay LibEncoding

/-! ## Codes -/

theorem leBytes64_injective : Function.Injective leBytes64 := by
  intro a b h
  have ha := a.toNat_lt
  have hb := b.toNat_lt
  have hbytes := congrArg (List.map UInt8.toNat) h
  simp only [leBytes64, List.map_cons, List.map_nil, List.cons.injEq, and_true,
    UInt64.toNat_toUInt8, UInt64.toNat_shiftRight, Nat.shiftRight_eq_div_pow, UInt64.reduceToNat,
    Nat.reduceMod, Nat.reducePow] at hbytes
  apply UInt64.toNat_inj.mp
  omega

theorem leBytes32_injective : Function.Injective leBytes32 := by
  intro a b h
  have ha := a.toNat_lt
  have hb := b.toNat_lt
  have hbytes := congrArg (List.map UInt8.toNat) h
  simp only [leBytes32, List.map_cons, List.map_nil, List.cons.injEq, and_true,
    UInt32.toNat_toUInt8, UInt32.toNat_shiftRight, Nat.shiftRight_eq_div_pow, UInt32.reduceToNat,
    Nat.reduceMod, Nat.reducePow] at hbytes
  apply UInt32.toNat_inj.mp
  omega

theorem leBytes64_ends : SelfEnding leBytes64 :=
  .of_length (n := 8) (fun _ => rfl) leBytes64_injective

theorem leBytes32_ends : SelfEnding leBytes32 :=
  .of_length (n := 4) (fun _ => rfl) leBytes32_injective

theorem flag_injective : Function.Injective flag :=
  injective_of_nodup [false, true] (by decide) (by decide)

theorem piece_injective : Function.Injective piece :=
  injective_of_nodup [.I, .O, .T, .S, .Z, .J, .L] (by rintro (_ | _) <;> decide) (by decide)

theorem rotation_injective : Function.Injective CoreStateHash.rotation :=
  injective_of_nodup [.North, .East, .South, .West] (by rintro (_ | _) <;> decide) (by decide)

theorem tspinCode_injective : Function.Injective tspinCode :=
  injective_of_nodup [.None, .Mini, .Full] (by rintro (_ | _) <;> decide) (by decide)

theorem outcomeCode_injective : Function.Injective outcomeCode :=
  injective_of_nodup [.ok (), .error .HoldUnavailable, .error .RotationBlocked, .error .XOutOfBounds,
    .error .XBlocked, .error .NotPlayable, .error .NoActive]
    (by rintro ((_ | _) | _) <;> simp) (by decide)

/-- The length of a list in eight bytes. -/
def countBytes (n : ℕ) : List UInt8 := leBytes64 (UInt64.ofNat n)

theorem countBytes_ends : SelfEnding fun n : Fin (2 ^ 64) => countBytes n.val := by
  refine leBytes64_ends.comp fun m n h => Fin.ext ?_
  have hnat := congrArg UInt64.toNat h
  simp only [UInt64.toNat_ofNat', Nat.mod_eq_of_lt m.isLt, Nat.mod_eq_of_lt n.isLt] at hnat
  exact hnat

/-! ## The parts of a state -/

theorem flag_ends : SelfEnding fun b => [flag b] := .symbol flag_injective

theorem piece_ends : SelfEnding fun k => [piece k] := .symbol piece_injective

theorem int8_injective : Function.Injective Int8.toUInt8 := by
  rintro ⟨a⟩ ⟨b⟩ h
  exact congrArg Int8.ofUInt8 h

theorem int32_injective : Function.Injective Int32.toUInt32 := by
  rintro ⟨a⟩ ⟨b⟩ h
  exact congrArg Int32.ofUInt32 h

theorem mark_ne : (0 : UInt8) ≠ 1 := by decide

theorem activeBytes_ends : SelfEnding activeBytes := by
  have hcode : SelfEnding fun a : ActiveSnapshot =>
      [piece a.kind, CoreStateHash.rotation a.rotation, a.x.toUInt8, a.y.toUInt8] := by
    refine .of_length (n := 4) (fun _ => rfl) fun a b h => ?_
    obtain ⟨kind, turn, x, y⟩ := a
    simp only [List.cons.injEq, and_true] at h
    rw [piece_injective h.1, rotation_injective h.2.1, int8_injective h.2.2.1,
      int8_injective h.2.2.2]
  refine (hcode.marked mark_ne).congr fun a => ?_
  cases a <;> rfl

theorem holdBytes_ends : SelfEnding holdBytes := by
  refine (piece_ends.marked mark_ne).congr fun k => ?_
  cases k <;> rfl

theorem tspinBytes_ends : SelfEnding tspinBytes := by
  refine ((SelfEnding.symbol tspinCode_injective).marked mark_ne).congr fun t => ?_
  cases t <;> rfl

/-- The fields of an event in the order of the encoding. -/
def eventParts (e : CoreLastEvent) : Bool × UInt32 × UInt32 × Option TSpinKind × Int32 × Bool :=
  (e.locked, e.linesCleared, e.lineClearScore, e.tspin, e.combo, e.backToBack)

theorem eventParts_injective : Function.Injective eventParts := by
  rintro ⟨⟩ ⟨⟩ h
  simp only [eventParts, Prod.mk.injEq] at h
  obtain ⟨rfl, rfl, rfl, rfl, rfl, rfl⟩ := h
  rfl

theorem eventBytes_ends : SelfEnding eventBytes := by
  have hcode := (flag_ends.pair (leBytes32_ends.pair (leBytes32_ends.pair (tspinBytes_ends.pair
    ((leBytes32_ends.comp int32_injective).pair flag_ends))))).comp eventParts_injective
  refine (hcode.marked mark_ne).congr fun e => ?_
  cases e with
  | none => rfl
  | some e => simp [eventBytes, marked, pair, eventParts]

/-- The fields of a snapshot in the order of the encoding. The board goes by its hash, and the
ghost follows from the other fields. -/
abbrev SnapshotParts := UInt64 × UInt32 × Option ActiveSnapshot × Option PieceKind × Bool ×
  Vector PieceKind 5 × Bool × Bool × Vector UInt32 10

def snapshotParts (s : GameSnapshot) : SnapshotParts :=
  (s.boardHash, s.boardId, s.active, s.hold, s.canHold, s.nextQueue, s.paused, s.gameOver,
    #v[s.episodeId, s.pieceId, s.stepInPiece, s.seed, s.score, s.level, s.lines,
      s.timers.dropMs, s.timers.lockMs, s.timers.lineClearMs])

/-- The snapshots agree in everything but the board and the ghost. -/
def SameHashed (s u : GameSnapshot) : Prop := { s with board := u.board, ghostY := u.ghostY } = u

theorem snapshotParts_eq_iff (s u : GameSnapshot) :
    snapshotParts s = snapshotParts u ↔ SameHashed s u := by
  obtain ⟨_, _, _, _, _, _, _, _, _, _, _, _, _, _, _, _, _, ⟨⟩⟩ := s
  obtain ⟨_, _, _, _, _, _, _, _, _, _, _, _, _, _, _, _, _, ⟨⟩⟩ := u
  simp only [snapshotParts, SameHashed, Prod.mk.injEq, GameSnapshot.mk.injEq,
    TimersSnapshot.mk.injEq, Vector.mk_eq, Array.mk.injEq, List.cons.injEq]
  grind

def partsBytes : SnapshotParts → List UInt8 :=
  pair leBytes64 <| pair leBytes32 <| pair activeBytes <| pair holdBytes <|
    pair (fun b => [flag b]) <| pair (fun q => q.toList.flatMap fun k => [piece k]) <|
    pair (fun b => [flag b]) <| pair (fun b => [flag b]) fun xs => xs.toList.flatMap leBytes32

theorem partsBytes_ends : SelfEnding partsBytes :=
  leBytes64_ends.pair <| leBytes32_ends.pair <| activeBytes_ends.pair <| holdBytes_ends.pair <|
    flag_ends.pair <| piece_ends.vector.pair <| flag_ends.pair <| flag_ends.pair leBytes32_ends.vector

theorem snapshotBytes_parts (s : GameSnapshot) : snapshotBytes s = partsBytes (snapshotParts s) := by
  simp [snapshotBytes, partsBytes, snapshotParts, pair, List.map_eq_flatMap]

/-! ## The hashes -/

/-- What `stable_state_hash` writes. -/
def stateBytes (s : GameSnapshot) (event : Option CoreLastEvent) : List UInt8 :=
  snapshotBytes s ++ eventBytes event

theorem stateBytes_split {s u : GameSnapshot} {e f : Option CoreLastEvent} {v w : List UInt8} :
    stateBytes s e ++ v = stateBytes u f ++ w ↔ SameHashed s u ∧ e = f ∧ v = w := by
  unfold stateBytes
  rw [List.append_assoc, List.append_assoc, snapshotBytes_parts, snapshotBytes_parts,
    partsBytes_ends.split_iff, eventBytes_ends.split_iff, snapshotParts_eq_iff]

/-- A slice, whose length is a `usize`. -/
abbrev Slice (α : Type) := Counted α (2 ^ 64)

/-- What `transition_hash` writes after the state. -/
def transitionBytes (logicalStep : UInt64) (eventHashes : List UInt64)
    (outcomes : List CommandOutcome) : List UInt8 :=
  leBytes64 logicalStep ++ countBytes eventHashes.length ++ eventHashes.flatMap leBytes64 ++
    countBytes outcomes.length ++ outcomes.map outcomeCode

/-- The logical step, the event hashes and the outcomes of a transition. -/
abbrev Appended := UInt64 × Slice UInt64 × Slice CommandOutcome

def Appended.bytes (p : Appended) : List UInt8 := transitionBytes p.1 p.2.1.val p.2.2.val

theorem appended_ends : SelfEnding Appended.bytes := by
  have hends := leBytes64_ends.pair <| (leBytes64_ends.counted countBytes_ends).pair <|
    (SelfEnding.symbol outcomeCode_injective).counted countBytes_ends
  refine hends.congr fun p => ?_
  simp [Appended.bytes, transitionBytes, pair, counted, List.map_eq_flatMap]

theorem hashBytes_append (hash : UInt64) (u v : List UInt8) :
    hashBytes hash (u ++ v) = hashBytes (hashBytes hash u) v := by
  unfold hashBytes
  exact List.foldl_append

/-- The hash that stands for an event in a transition. -/
def eventHash (s : GameSnapshot) (event : CoreLastEvent) : UInt64 := stableStateHash s (some event)

theorem transitionHash_bytes (s : GameSnapshot) (logicalStep : UInt64) (events : List CoreLastEvent)
    (outcomes : List CommandOutcome) : transitionHash s logicalStep events outcomes =
      hashBytes offsetBasis
        (stateBytes s none ++ transitionBytes logicalStep (events.map (eventHash s)) outcomes) := by
  rw [hashBytes_append]
  unfold transitionHash transitionBytes countBytes
  rw [List.flatMap_map, List.length_map]
  rfl

/-- The hashes run FNV over bytes from which the state, the event, the step, the event hashes and
the outcomes can be read back. -/
theorem encodings_unambiguous :
    (∀ s event, stableStateHash s event = hashBytes offsetBasis (stateBytes s event)) ∧
    (∀ s u e f, stateBytes s e = stateBytes u f ↔ SameHashed s u ∧ e = f) ∧
    (∀ s step events outcomes, transitionHash s step events outcomes = hashBytes offsetBasis
      (stateBytes s none ++ transitionBytes step (events.map (eventHash s)) outcomes)) ∧
    Function.Injective Appended.bytes ∧
    (∀ s u p q, stateBytes s none ++ Appended.bytes p = stateBytes u none ++ Appended.bytes q ↔
      SameHashed s u ∧ p = q) := by
  refine ⟨fun _ _ => rfl, fun s u e f => ?_, transitionHash_bytes, appended_ends.injective,
    fun s u p q => ?_⟩
  · have hsplit := stateBytes_split (s := s) (u := u) (e := e) (f := f) (v := []) (w := [])
    simpa only [List.append_nil, and_true] using hsplit
  · rw [stateBytes_split, appended_ends.injective.eq_iff]
    simp only [true_and]

end TuiTetris.SessionHashBytes
