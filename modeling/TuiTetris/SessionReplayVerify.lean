import Mathlib.Order.Bounds.Defs
import TuiTetris.SessionReplayRoundTrip

set_option autoImplicit false

/-!
# What the verification of a tape looks at

`replay_and_verify` compares the recorded hashes with those of a new simulation,
one after the other, and stops at the first that differs. The step numbers of
the records are read by nothing.
-/
namespace TuiTetris.SessionReplayVerify
open SessionEngine SessionReplay SessionReplayRoundTrip

/-- The records that recording the tape's own inputs from its own seed gives. -/
def simulated (t : ReplayTape) : List StepRecord :=
  (ReplayTape.record t.seed (t.records.map StepRecord.input)).records

/-- What the verification compares of a record. -/
def checkedPart (r : StepRecord) : StepInput × UInt64 := (r.input, r.stateHash)

def hashesFrom (session : SessionRuntime) : List StepInput → List UInt64
  | [] => []
  | input :: inputs =>
    resultHash (session.transition input) :: hashesFrom (session.transition input).1 inputs

theorem recordFrom_hashes (session : SessionRuntime) (step : ℕ) (inputs : List StepInput) :
    (recordFrom session step inputs).1.map StepRecord.stateHash = hashesFrom session inputs := by
  induction inputs generalizing session step with
  | nil => rfl
  | cons input inputs ih => exact congrArg (_ :: ·) (ih _ _)

theorem recordFrom_step (session : SessionRuntime) (step : ℕ) (inputs : List StepInput) (i : ℕ) :
    ((recordFrom session step inputs).1[i]?).map StepRecord.step =
      (inputs[i]?).map fun _ => UInt64.ofNat (step + i) := by
  induction inputs generalizing session step i with
  | nil => rfl
  | cons input inputs ih =>
    cases i with
    | zero => rfl
    | succ i =>
      have hs : step + (i + 1) = step + 1 + i := by omega
      simpa [recordFrom, hs] using ih (session.transition input).1 (step + 1) i

theorem simulated_inputs (t : ReplayTape) :
    (simulated t).map StepRecord.input = t.records.map StepRecord.input :=
  recordFrom_inputs _ _ _

theorem simulated_hashes (t : ReplayTape) : (simulated t).map StepRecord.stateHash =
    hashesFrom (.new t.seed) (t.records.map StepRecord.input) :=
  recordFrom_hashes _ _ _

/-- The loop ends well exactly when all hashes agree. -/
theorem verifyFrom_ok_iff (session : SessionRuntime) (index : ℕ) (records : List StepRecord) :
    (∃ u, verifyFrom session index records = .ok u) ↔
      records.map StepRecord.stateHash = hashesFrom session (records.map StepRecord.input) := by
  induction records generalizing session index with
  | nil => simp [verifyFrom, hashesFrom]
  | cons r records ih =>
    simp only [verifyFrom, List.map_cons, hashesFrom, List.cons.injEq]
    by_cases hh : resultHash (session.transition r.input) = r.stateHash
    · simp [hh, ih]
    · simp [hh, Ne.symm hh]

/-- The loop stops at the first hash that differs; up to there it would end well. -/
theorem verifyFrom_error {session : SessionRuntime} {index : ℕ} {records : List StepRecord}
    {m : ReplayMismatch} (h : verifyFrom session index records = .error m) :
    ∃ k, m.step = index + k ∧ (records[k]?).map StepRecord.stateHash = some m.expected ∧
      (hashesFrom session (records.map StepRecord.input))[k]? = some m.actual ∧
      m.expected ≠ m.actual ∧ verifyFrom session index (records.take (k + 1)) = .error m ∧
      ∃ u, verifyFrom session index (records.take k) = .ok u := by
  induction records generalizing session index with
  | nil => cases h
  | cons r records ih =>
    unfold verifyFrom at h
    simp only at h
    split at h
    · next hne =>
      cases h
      exact ⟨0, rfl, rfl, rfl, Ne.symm hne, if_pos hne, _, rfl⟩
    · next heq =>
      obtain ⟨k, hk, hexpected, hactual, hne, hcut, u, hu⟩ := ih h
      refine ⟨k + 1, by omega, hexpected, hactual, hne, ?_, u, ?_⟩
      · exact (if_neg heq).trans hcut
      · exact (if_neg heq).trans hu

theorem replay_ok_iff (t : ReplayTape) : (∃ session, replayAndVerify t = .ok session) ↔
    t.records.map StepRecord.stateHash = (simulated t).map StepRecord.stateHash := by
  rw [simulated_hashes]
  exact verifyFrom_ok_iff _ _ _

theorem records_eq {xs ys : List StepRecord} (hp : xs.map checkedPart = ys.map checkedPart)
    (hs : ∀ i : ℕ, (xs[i]?).map StepRecord.step = (ys[i]?).map StepRecord.step) : xs = ys := by
  apply List.ext_getElem?
  intro i
  have hpart : (xs[i]?).map checkedPart = (ys[i]?).map checkedPart := by
    simpa using congrArg (fun l => l[i]?) hp
  have hstep := hs i
  cases hx : xs[i]? with
  | none =>
    rw [hx] at hpart
    simpa using hpart.symm
  | some r =>
    rw [hx] at hpart hstep
    obtain ⟨q, hq, hqp⟩ := Option.map_eq_some_iff.mp hpart.symm
    rw [hq] at hstep ⊢
    obtain ⟨step, input, stateHash⟩ := r
    obtain ⟨step', input', stateHash'⟩ := q
    simp_all [checkedPart]

theorem simulated_step (t : ReplayTape) (i : ℕ) : ((simulated t)[i]?).map StepRecord.step =
    (t.records[i]?).map fun _ => UInt64.ofNat i := by
  have hs := recordFrom_step (.new t.seed) 0 (t.records.map StepRecord.input) i
  rw [List.getElem?_map, Option.map_map, Nat.zero_add] at hs
  exact hs

theorem checkedPart_iff (t : ReplayTape) : t.records.map checkedPart = (simulated t).map checkedPart ↔
    t.records.map StepRecord.stateHash = (simulated t).map StepRecord.stateHash := by
  have hsplit : ∀ rs : List StepRecord, rs.map checkedPart =
      (rs.map StepRecord.input).zip (rs.map StepRecord.stateHash) := fun rs => by
    simp [List.zip_map', checkedPart]
  constructor
  · intro h
    simpa [Function.comp_def, checkedPart] using congrArg (List.map Prod.snd) h
  · intro h
    rw [hsplit, hsplit, simulated_inputs, h]

/-- A tape verifies exactly when its inputs and hashes are those of a new recording; it is that
recording when its step numbers count from zero as well. -/
theorem replay_exact (t : ReplayTape) :
    ((∃ session, replayAndVerify t = .ok session) ↔
      t.records.map checkedPart = (simulated t).map checkedPart) ∧
    (t.records = simulated t ↔ (∃ session, replayAndVerify t = .ok session) ∧
      ∀ (i : ℕ) (r : StepRecord), t.records[i]? = some r → r.step = UInt64.ofNat i) := by
  have hok : (∃ session, replayAndVerify t = .ok session) ↔
      t.records.map checkedPart = (simulated t).map checkedPart := by
    rw [replay_ok_iff, checkedPart_iff]
  refine ⟨hok, fun h => ⟨hok.mpr (congrArg _ h), fun i r hr => ?_⟩, fun h => ?_⟩
  · have hs := simulated_step t i
    rw [← h, hr] at hs
    exact Option.some.inj hs
  · refine records_eq (hok.mp h.1) fun i => ?_
    rw [simulated_step]
    cases hr : t.records[i]? with
    | none => rfl
    | some r => exact congrArg some (h.2 i r hr)

/-- One step whose record carries another number. -/
def relabelled : ReplayTape :=
  .rebuild 1 [⟨5, .default, resultHash ((SessionRuntime.new 1).transition .default)⟩]

theorem relabelled_verifies : ¬∀ (bytes : ByteArray) (t : ReplayTape), decode bytes = .ok t →
    ((∃ session, replayAndVerify t = .ok session) ↔ t.records = simulated t) := by
  intro h
  have hok : ∃ session, replayAndVerify relabelled = .ok session :=
    (replay_ok_iff relabelled).mpr rfl
  have hstep : (5 : UInt64) = 0 :=
    congrArg (fun rs => (rs.head?.map StepRecord.step).getD 0) ((h _ _ (decode_encode relabelled)).mp hok)
  exact absurd hstep (by decide)

/-! ## The first mismatch -/

def recordedHash (t : ReplayTape) (i : ℕ) : Option UInt64 :=
  (t.records[i]?).map StepRecord.stateHash

def simulatedHash (t : ReplayTape) (i : ℕ) : Option UInt64 :=
  ((simulated t)[i]?).map StepRecord.stateHash

theorem simulatedHash_eq (t : ReplayTape) (i : ℕ) : simulatedHash t i =
    (hashesFrom (.new t.seed) (t.records.map StepRecord.input))[i]? := by
  rw [← simulated_hashes, List.getElem?_map]
  rfl

theorem hashesFrom_take (session : SessionRuntime) (inputs : List StepInput) (k : ℕ) :
    hashesFrom session (inputs.take k) = (hashesFrom session inputs).take k := by
  induction inputs generalizing session k with
  | nil => simp [hashesFrom]
  | cons input inputs ih =>
    cases k with
    | zero => rfl
    | succ k => exact congrArg (_ :: ·) (ih _ k)

/-- Where the first records verify, their hashes are the simulated ones. -/
theorem verified_take {t : ReplayTape} {k : ℕ} {u : SessionRuntime}
    (h : verifyFrom (.new t.seed) 0 (t.records.take k) = .ok u) (i : ℕ) (hi : i < k) :
    recordedHash t i = simulatedHash t i := by
  have hk := (verifyFrom_ok_iff _ 0 _).mp ⟨u, h⟩
  rw [List.map_take, List.map_take, hashesFrom_take] at hk
  have hget := congrArg (fun l => l[i]?) hk
  simp only [List.getElem?_take, hi, if_true, List.getElem?_map] at hget
  rw [simulatedHash_eq]
  exact hget

/-- A mismatch is at the first hash that differs; the prefix up to it fails in the same way, and
the records before it verify. -/
theorem minimal_failure {t : ReplayTape} {m : ReplayMismatch} (h : replayAndVerify t = .error m) :
    IsLeast {i | recordedHash t i ≠ simulatedHash t i} m.step ∧
    recordedHash t m.step = some m.expected ∧ simulatedHash t m.step = some m.actual ∧
    (∃ p, t.minimalFailurePrefix m = some p ∧ p.records.length = m.step + 1 ∧
      replayAndVerify p = .error m) ∧
    ∃ session, replayAndVerify { t with records := t.records.take m.step } = .ok session := by
  obtain ⟨k, hk, hexpected, hactual, hne, hcut, u, hu⟩ := verifyFrom_error h
  rw [Nat.zero_add] at hk
  subst hk
  have hrec : recordedHash t m.step = some m.expected := hexpected
  have hsim : simulatedHash t m.step = some m.actual := (simulatedHash_eq t _).trans hactual
  have hlt : m.step < t.records.length := by
    by_contra hge
    simp [List.getElem?_eq_none (Nat.le_of_not_lt hge)] at hexpected
  refine ⟨⟨?_, fun i hi => ?_⟩, hrec, hsim, ⟨_, if_pos hlt, ?_, hcut⟩, u, hu⟩
  · change recordedHash t m.step ≠ simulatedHash t m.step
    simp [hrec, hsim, hne]
  · by_contra hlow
    exact hi (verified_take hu i (Nat.lt_of_not_le hlow))
  · change (t.records.take (m.step + 1)).length = m.step + 1
    rw [List.length_take]
    omega

/-- Commands and local actions of two steps, and of a third one. -/
def verifiedInputs : List StepInput :=
  [⟨⟨[.Actions ⟨[.RotateCw, .HardDrop], by decide⟩ none], by decide⟩, .empty⟩,
    ⟨⟨[.Place 2 .East true], by decide⟩, ⟨[.MoveLeft, .SoftDrop], by decide⟩⟩]

def failingInput : StepInput := ⟨.empty, ⟨[.Hold, .HardDrop], by decide⟩⟩

def recordedSteps : List StepRecord × SessionRuntime := recordFrom (.new 1) 0 verifiedInputs

def failingHash : UInt64 := resultHash (recordedSteps.2.transition failingInput)

/-- Two recorded steps and one with a wrong hash. -/
def altered : ReplayTape := .rebuild 1 (recordedSteps.1 ++ [⟨2, failingInput, failingHash + 1⟩])

def alteredMismatch : ReplayMismatch := ⟨2, failingHash + 1, failingHash⟩

theorem altered_rejected : replayAndVerify altered = .error alteredMismatch := by
  have hne : failingHash ≠ failingHash + 1 := fun h => by grind
  have hverified := verifyFrom_append (.new 1) 0 0 verifiedInputs [⟨2, failingInput, failingHash + 1⟩]
  exact hverified.trans (if_pos hne)

theorem minimal_failure_altered :
    IsLeast {i | recordedHash altered i ≠ simulatedHash altered i} alteredMismatch.step ∧
    recordedHash altered alteredMismatch.step = some alteredMismatch.expected ∧
    simulatedHash altered alteredMismatch.step = some alteredMismatch.actual ∧
    (∃ p, altered.minimalFailurePrefix alteredMismatch = some p ∧
      p.records.length = alteredMismatch.step + 1 ∧ replayAndVerify p = .error alteredMismatch) ∧
    ∃ session, replayAndVerify { altered with
      records := altered.records.take alteredMismatch.step } = .ok session :=
  minimal_failure altered_rejected

end TuiTetris.SessionReplayVerify
