import TuiTetris.AppObserve
import TuiTetris.SessionReplayRoundTrip

set_option autoImplicit false

/-!
# The commands of the program

`main` tries the replay commands first, then the batch commands, then the observer. What
prints and ends is run here; the loops that go on are only named. A path is the text that
it was given as.
-/
namespace TuiTetris.AppCli
open SessionEngine SessionReplay SessionReplayRoundTrip LibDecimal LibText AdapterMessages AdapterWire
open AppObserve

structure HeadlessConfig where
  seed : UInt32
  steps : Option UInt64
  deriving DecidableEq

inductive AppCommand where
  | Headless (config : HeadlessConfig)
  | Diagnostic
  deriving DecidableEq

inductive ReplayCommand where
  | Record (path : Text) (seed : UInt32) (steps : UInt64)
  | Verify (path : Text)
  | Inspect (path : Text)
  deriving DecidableEq

/-! ## Arguments -/

/-- `str::parse` with the error text of the caller. -/
def parseOr {α : Type} (limit : ℕ) (of : ℕ → α) (failure value : Text) : Except Text α :=
  match parseUnsigned limit value with
  | .ok n => .ok (of n)
  | .error _ => .error failure

/-- The loop over `--seed` and `--steps`; the last one of each counts. -/
def numberOptions (missing unknown : Text) (seed : UInt32) (steps : Option UInt64) :
    List Text → Except Text (UInt32 × Option UInt64)
  | [] => .ok (seed, steps)
  | [_] => .error missing
  | option :: value :: rest =>
    if option = "--seed".toList then
      (parseOr (2 ^ 32 - 1) UInt32.ofNat "invalid --seed".toList value).bind fun seed =>
        numberOptions missing unknown seed steps rest
    else if option = "--steps".toList then
      (parseOr (2 ^ 64 - 1) UInt64.ofNat "invalid --steps".toList value).bind fun steps =>
        numberOptions missing unknown seed (some steps) rest
    else .error (unknown ++ option)

def parseAppArgs : List Text → Except Text (Option AppCommand)
  | [] => .ok none
  | first :: rest =>
    if first = "diagnostic".toList then
      if rest.isEmpty then .ok (some .Diagnostic) else .error "diagnostic takes no arguments".toList
    else if first = "headless".toList then
      (numberOptions "missing headless option value".toList "unknown headless option: ".toList 1 none
        rest).map fun found => some (.Headless ⟨found.1, found.2⟩)
    else .ok none

def replayUsage : Text :=
  "usage: tui-tetris replay <record|verify|inspect> <path> [--seed N] [--steps N]".toList

def parseReplayArgs : List Text → Except Text (Option ReplayCommand)
  | [] => .ok none
  | first :: args =>
    if first ≠ "replay".toList then .ok none
    else
      match args with
      | [] => .error replayUsage
      | [_] => .error "missing replay path".toList
      | operation :: path :: rest =>
        if operation = "record".toList then
          (numberOptions "missing replay option value".toList "unknown replay option: ".toList 1 none
            rest).map fun found => some (.Record path found.1 (found.2.getD 0))
        else if operation = "verify".toList ∨ operation = "inspect".toList then
          if rest.isEmpty then
            .ok (some (if operation = "verify".toList then .Verify path else .Inspect path))
          else .error "unexpected replay arguments".toList
        else .error ("unknown replay operation: ".toList ++ operation)

/-- The loop of `parse_observe_args`. -/
def observeOptions (config : ObserveConfig) : List Text → Except Text ObserveConfig
  | [] => .ok config
  | [option] =>
    if option = "--host".toList ∨ option = "--port".toList then
      .error ("observe: missing value for ".toList ++ option)
    else .error ("observe: unknown argument: ".toList ++ option)
  | option :: value :: rest =>
    if option = "--host".toList then observeOptions { config with host := value } rest
    else if option = "--port".toList then
      (parseOr 65535 id ("observe: invalid --port value: ".toList ++ value) value).bind fun port =>
        observeOptions { config with port } rest
    else .error ("observe: unknown argument: ".toList ++ option)

def parseObserveArgs : List Text → Except Text (Option ObserveConfig)
  | [] => .ok none
  | first :: rest =>
    if first = "observe".toList then
      (observeOptions ⟨"127.0.0.1".toList, 7777⟩ rest).map some
    else .ok none

/-- `TUI_TETRIS_HEADLESS`, when it is set. -/
def headlessEnabled : Option Text → Bool
  | none => false
  | some value =>
    let value := trim value
    value = "1".toList || eqIgnoreAsciiCase value "true".toList ||
      eqIgnoreAsciiCase value "yes".toList

/-! ## Commands -/

/-- The loop of `run_batch_headless`. -/
def batchLoop : ℕ → SessionRuntime → UInt64 → SessionRuntime × UInt64
  | 0, session, hash => (session, hash)
  | n + 1, session, _ =>
    let moved := session.transition .default
    batchLoop n moved.1 (resultHash moved)

def batchHash (seed : UInt32) (steps : UInt64) : UInt64 :=
  (batchLoop steps.toNat (.new seed) (transitionHash (SessionRuntime.new seed).snapshot 0 [] [])).2

def batchText (seed : UInt32) (steps hash : UInt64) : Text :=
  "seed=".toList ++ decimal seed.toNat ++ " steps=".toList ++ decimal steps.toNat ++
    " state_hash=".toList ++ hexLoop 16 hash []

def runBatchHeadless (config : HeadlessConfig) : Except Text Text :=
  match config.steps with
  | none => .error "batch headless mode requires a finite --steps value".toList
  | some steps => .ok (batchText config.seed steps (batchHash config.seed steps))

def diagnosticReport : Text :=
  "protocol=".toList ++ protocolVersion.toList ++ "\nreplay=TTR".toList ++
    decimal replayFormatVersion.toNat ++ "\nruleset=".toList ++ rulesetVersion ++
    "\narchitecture=core,session,adapter-protocol,adapter,terminal,app".toList

/-- The file system and the texts of UTF-8 errors. -/
structure Host (δ : Type) where
  read : δ → Text → Except Text ByteArray
  write : δ → Text → ByteArray → δ × Except Text Unit
  utf8Error : ByteArray → Text

section Commands

variable {δ : Type} (host : Host δ)

def errorText (bytes : ByteArray) : ReplayError → Text
  | .notUtf8 => host.utf8Error bytes
  | .message text => text.toList

def readTape (disk : δ) (path : Text) : Except Text ReplayTape :=
  (host.read disk path).bind fun bytes => (decode bytes).mapError (errorText host bytes)

def recordedText (path : Text) (steps : UInt64) : Text :=
  "recorded ".toList ++ decimal steps.toNat ++ " steps to ".toList ++ path

def verifiedText (path : Text) (steps : ℕ) : Text :=
  "verified ".toList ++ decimal steps ++ " steps from ".toList ++ path

def mismatchText (mismatch : ReplayMismatch) : Text :=
  "replay mismatch at step ".toList ++ decimal mismatch.step ++ ": expected ".toList ++
    decimal mismatch.expected.toNat ++ ", actual ".toList ++ decimal mismatch.actual.toNat

def inspectedText (path : Text) (seed : UInt32) (steps : ℕ) (finalHash : UInt64) : Text :=
  "path: ".toList ++ path ++ "\nruleset: ".toList ++ rulesetVersion ++ "\nseed: ".toList ++
    decimal seed.toNat ++ "\nsteps: ".toList ++ decimal steps ++ "\nfinal_state_hash: ".toList ++
    decimal finalHash.toNat

def finalHash (tape : ReplayTape) : UInt64 := (tape.records.getLast?.map StepRecord.stateHash).getD 0

def runReplayCommand (disk : δ) : ReplayCommand → δ × Except Text Text
  | .Record path seed steps =>
    let tape := ReplayTape.record seed (List.replicate steps.toNat .default)
    let written := host.write disk path (encode tape)
    (written.1, written.2.map fun _ => recordedText path steps)
  | .Verify path =>
    (disk, (readTape host disk path).bind fun tape =>
      match replayAndVerify tape with
      | .ok _ => .ok (verifiedText path tape.records.length)
      | .error mismatch => .error (mismatchText mismatch))
  | .Inspect path =>
    (disk, (readTape host disk path).map fun tape =>
      inspectedText path tape.seed tape.records.length (finalHash tape))

/-- What becomes of a call of the program. -/
inductive Outcome where
  | printed (text : Text)
  | failed (message : Text)
  | headless (seed : UInt32)
  | observe (config : ObserveConfig)
  | terminal

def Outcome.ofResult : Except Text Text → Outcome
  | .ok text => .printed text
  | .error message => .failed message

def main (headlessVariable : Option Text) (disk : δ) (args : List Text) : δ × Outcome :=
  match parseReplayArgs args with
  | .error message => (disk, .failed message)
  | .ok (some command) =>
    let ran := runReplayCommand host disk command
    (ran.1, .ofResult ran.2)
  | .ok none =>
    match parseAppArgs args with
    | .error message => (disk, .failed message)
    | .ok (some .Diagnostic) => (disk, .printed diagnosticReport)
    | .ok (some (.Headless config)) =>
      if config.steps.isSome then (disk, .ofResult (runBatchHeadless config))
      else (disk, .headless config.seed)
    | .ok none =>
      match parseObserveArgs args with
      | .error message => (disk, .failed message)
      | .ok (some config) => (disk, .observe config)
      | .ok none => (disk, if headlessEnabled headlessVariable then .headless 1 else .terminal)

/-! ## One recording, four commands -/

def seedAndSteps (seed : UInt32) (steps : UInt64) : List Text :=
  ["--seed".toList, decimal seed.toNat, "--steps".toList, decimal steps.toNat]

theorem numberOptions_written (missing unknown : Text) (seed seed' : UInt32) (steps : UInt64)
    (steps' : Option UInt64) :
    numberOptions missing unknown seed' steps' (seedAndSteps seed steps) = .ok (seed, some steps) := by
  have hseed : parseUnsigned (2 ^ 32 - 1) (decimal seed.toNat) = .ok seed.toNat :=
    parseUnsigned_decimal _ _ (Nat.le_sub_one_of_lt seed.toNat_lt)
  have hsteps : parseUnsigned (2 ^ 64 - 1) (decimal steps.toNat) = .ok steps.toNat :=
    parseUnsigned_decimal _ _ (Nat.le_sub_one_of_lt steps.toNat_lt)
  have hflag : "--steps".toList ≠ "--seed".toList := by decide
  unfold seedAndSteps
  rw [numberOptions, if_pos rfl, parseOr, hseed]
  change numberOptions missing unknown (UInt32.ofNat seed.toNat) steps' _ = _
  rw [numberOptions, if_neg hflag, if_pos rfl, parseOr, hsteps]
  change Except.ok (UInt32.ofNat seed.toNat, some (UInt64.ofNat steps.toNat)) = _
  rw [UInt32.ofNat_toNat, UInt64.ofNat_toNat]

theorem main_record (headlessVariable : Option Text) (disk : δ) (path : Text) (seed : UInt32)
    (steps : UInt64) :
    main host headlessVariable disk
        ("replay".toList :: "record".toList :: path :: seedAndSteps seed steps) =
      ((host.write disk path (encode (.record seed (List.replicate steps.toNat .default)))).1,
        .ofResult ((host.write disk path
          (encode (.record seed (List.replicate steps.toNat .default)))).2.map fun _ =>
            recordedText path steps)) := by
  have hparse : parseReplayArgs
      ("replay".toList :: "record".toList :: path :: seedAndSteps seed steps) =
        .ok (some (.Record path seed steps)) := by
    rw [parseReplayArgs, if_neg (not_not_intro rfl)]
    simp only [if_true]
    rw [numberOptions_written]
    rfl
  unfold main
  rw [hparse]
  rfl

theorem main_headless (headlessVariable : Option Text) (disk : δ) (seed : UInt32) (steps : UInt64) :
    main host headlessVariable disk ("headless".toList :: seedAndSteps seed steps) =
      (disk, .printed (batchText seed steps (batchHash seed steps))) := by
  have hreplay : parseReplayArgs ("headless".toList :: seedAndSteps seed steps) = .ok none := rfl
  have hparse : parseAppArgs ("headless".toList :: seedAndSteps seed steps) =
      .ok (some (.Headless ⟨seed, some steps⟩)) := by
    rw [parseAppArgs, if_neg (by decide), if_pos rfl, numberOptions_written]
    rfl
  unfold main
  rw [hreplay, hparse]
  rfl

/-- The batch loop ends where the recording ends, with the hash of the last record. -/
theorem batchLoop_record (n step : ℕ) (session : SessionRuntime) (hash : UInt64) :
    (batchLoop n session hash).2 =
      (((recordFrom session step (List.replicate n .default)).1.getLast?.map
        StepRecord.stateHash).getD hash) := by
  induction n generalizing session step hash with
  | zero => rfl
  | succ n ih =>
    rw [batchLoop, ih (step + 1), List.replicate_succ, recordFrom, List.getLast?_cons]
    cases (recordFrom (session.transition .default).1 (step + 1)
      (List.replicate n .default)).1.getLast? <;> rfl

theorem recordFrom_length (session : SessionRuntime) (step : ℕ) (inputs : List StepInput) :
    (recordFrom session step inputs).1.length = inputs.length := by
  have h := congrArg List.length (recordFrom_inputs session step inputs)
  rwa [List.length_map] at h

theorem finalHash_record (seed : UInt32) (steps : UInt64) (h : steps ≠ 0) :
    finalHash (.record seed (List.replicate steps.toNat .default)) = batchHash seed steps := by
  have hpos : steps.toNat ≠ 0 := fun h0 => h (UInt64.toNat_inj.mp h0)
  have hlen := recordFrom_length (.new seed) 0 (List.replicate steps.toNat .default)
  rw [List.length_replicate] at hlen
  unfold batchHash
  rw [batchLoop_record _ 0]
  change ((recordFrom (.new seed) 0 (List.replicate steps.toNat .default)).1.getLast?.map
    StepRecord.stateHash).getD 0 = _
  cases hlast : (recordFrom (.new seed) 0 (List.replicate steps.toNat .default)).1.getLast? with
  | none =>
    rw [List.getLast?_eq_none_iff.mp hlast] at hlen
    exact absurd hlen.symm hpos
  | some r => rw [Option.map_some, Option.getD_some, Option.getD_some]

theorem readTape_written {disk : δ} {path : Text} (seed : UInt32) (inputs : List StepInput)
    (h : host.read disk path = .ok (encode (.record seed inputs))) :
    readTape host disk path = .ok (.record seed inputs) := by
  have hd : decode (encode (.record seed inputs)) = .ok (.record seed inputs) :=
    (decode_encode _).trans (congrArg Except.ok (consistent_record seed inputs))
  unfold readTape
  rw [h]
  change (decode (encode (.record seed inputs))).mapError _ = _
  rw [hd]
  rfl

/-- A recording that succeeds leaves a file that verifies, and whose final hash is the one that the
batch mode prints for the same seed and steps. -/
theorem recorded_once
    (hread : ∀ disk path bytes disk', host.write disk path bytes = (disk', .ok ()) →
      host.read disk' path = .ok bytes)
    (headlessVariable : Option Text) (disk disk' : δ) (path text : Text) (seed : UInt32)
    (steps : UInt64)
    (h : main host headlessVariable disk
      ("replay".toList :: "record".toList :: path :: seedAndSteps seed steps) =
        (disk', .printed text)) :
    text = recordedText path steps ∧
    main host headlessVariable disk' ["replay".toList, "verify".toList, path] =
      (disk', .printed (verifiedText path steps.toNat)) ∧
    main host headlessVariable disk' ["replay".toList, "inspect".toList, path] =
      (disk', .printed (inspectedText path seed steps.toNat
        (if steps = 0 then 0 else batchHash seed steps))) ∧
    main host headlessVariable disk' ("headless".toList :: seedAndSteps seed steps) =
      (disk', .printed (batchText seed steps (batchHash seed steps))) := by
  rw [main_record] at h
  cases hw : host.write disk path
      (encode (.record seed (List.replicate steps.toNat .default))) with
  | mk after result =>
    rw [hw] at h
    cases result with
    | error message => cases h
    | ok =>
      cases h
      have htape := readTape_written host seed (List.replicate steps.toNat .default)
        (hread _ _ _ _ hw)
      have hlen := recordFrom_length (.new seed) 0 (List.replicate steps.toNat .default)
      rw [List.length_replicate] at hlen
      refine ⟨rfl, ?_, ?_, main_headless host headlessVariable after seed steps⟩
      · change (after, Outcome.ofResult ((readTape host after path).bind _)) = _
        rw [htape]
        change (after, Outcome.ofResult (match verifyFrom (.new seed) 0
          (recordFrom (.new seed) 0 (List.replicate steps.toNat .default)).1 with
          | .ok _ => .ok (verifiedText path (recordFrom (.new seed) 0
              (List.replicate steps.toNat .default)).1.length)
          | .error mismatch => .error (mismatchText mismatch))) = _
        rw [verifyFrom_recordFrom, hlen]
        rfl
      · change (after, Outcome.ofResult ((readTape host after path).map _)) = _
        rw [htape]
        change (after, Outcome.printed (inspectedText path seed (recordFrom (.new seed) 0
          (List.replicate steps.toNat .default)).1.length (finalHash (.record seed
            (List.replicate steps.toNat .default))))) = _
        rw [hlen]
        split
        · next h0 =>
          rw [h0]
          rfl
        · next hne => rw [finalHash_record seed steps hne]

end Commands

/-- Files in memory; every write succeeds. -/
def memoryHost : Host (Text → Option ByteArray) where
  read disk path := ((disk path).map Except.ok).getD (.error "entity not found".toList)
  write disk path bytes := (fun other => if other = path then some bytes else disk other, .ok ())
  utf8Error _ := "invalid utf-8 sequence".toList

theorem memoryHost_reads (disk : Text → Option ByteArray) (path : Text) (bytes : ByteArray)
    (disk' : Text → Option ByteArray) (h : memoryHost.write disk path bytes = (disk', .ok ())) :
    memoryHost.read disk' path = .ok bytes := by
  cases h
  unfold memoryHost
  simp only [if_true, Option.map_some, Option.getD_some]

/-- The disk after a recording of three steps. -/
def recordedDisk : Text → Option ByteArray :=
  (memoryHost.write (fun _ => none) ['t'] (encode (.record 1 (List.replicate 3 .default)))).1

theorem recorded_once_memory :
    main memoryHost none recordedDisk ["replay".toList, "verify".toList, ['t']] =
      (recordedDisk, .printed (verifiedText ['t'] 3)) ∧
    main memoryHost none recordedDisk ["replay".toList, "inspect".toList, ['t']] =
      (recordedDisk, .printed (inspectedText ['t'] 1 3 (batchHash 1 3))) ∧
    main memoryHost none recordedDisk ("headless".toList :: seedAndSteps 1 3) =
      (recordedDisk, .printed (batchText 1 3 (batchHash 1 3))) := by
  obtain ⟨-, hverify, hinspect, hbatch⟩ := recorded_once memoryHost memoryHost_reads none
    (fun _ => none) recordedDisk ['t'] _ 1 3 (main_record memoryHost none _ ['t'] 1 3)
  rw [if_neg (by decide)] at hinspect
  exact ⟨hverify, hinspect, hbatch⟩

end TuiTetris.AppCli
