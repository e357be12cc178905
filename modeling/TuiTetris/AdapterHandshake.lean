import TuiTetris.AdapterBrokerControl
import TuiTetris.AdapterHandler

set_option autoImplicit false

/-!
# Handshake and sequence discipline

The effects of a connection are the hello that was accepted, the commands that
were enqueued and the controls that were acknowledged. The last sequence number
of its handle bounds all of them.
-/
namespace TuiTetris.AdapterHandshake
open LibTransition AdapterBroker AdapterBrokerControl AdapterProtocol AdapterGameLoop
open AdapterMessages AdapterHandler

/-! ## Effects -/

inductive Effect where
  | hello (n : UInt64)
  | command (n : UInt64)
  | control (n : UInt64)
  deriving DecidableEq, Repr

def Effect.seq : Effect → ℕ
  | .hello n => n.toNat
  | .command n => n.toNat
  | .control n => n.toNat

def Effect.isHello : Effect → Bool
  | .hello _ => true
  | _ => false

/-- A handler acknowledges nothing but claims and releases. -/
def effect : Event → Option Effect
  | .greeted hello => some (.hello hello.seq)
  | .enqueued ⟨_, n, .Command _⟩ => some (.command n)
  | .enqueued ⟨_, _, .SnapshotRequest⟩ => none
  | .submitted (.Ack ack) => some (.control ack.correlationSeq)
  | .submitted _ => none

def effects (s : Server) (id : ℕ) : List Effect :=
  s.history.filterMap fun e => if e.1 = id then effect e.2 else none

/-- At most one hello, nothing before it, and increasing sequence numbers. -/
structure Disciplined (log : List Effect) : Prop where
  opened : ∀ e, log.head? = some e → e = .hello 1
  once : ∀ e ∈ log.tail, e.isHello = false
  above : ∀ e ∈ log.tail, 1 < e.seq
  increasing : (log.map Effect.seq).Pairwise (· < ·)

theorem disciplined_nil : Disciplined [] :=
  ⟨fun _ h => (nomatch h), fun _ h => (nomatch h), fun _ h => (nomatch h), List.Pairwise.nil⟩

theorem disciplined_hello : Disciplined [.hello 1] := by
  refine ⟨fun e h => ?_, fun _ h => (nomatch h), fun _ h => (nomatch h), List.pairwise_singleton _ _⟩
  cases h
  rfl

/-- The log of a greeted connection, with `n` a bound on its sequence numbers. -/
structure Greeted (n : ℕ) (log : List Effect) : Prop where
  disciplined : Disciplined log
  nonempty : log ≠ []
  bounded : ∀ e ∈ log, e.seq ≤ n

theorem greeted_hello : Greeted 1 [.hello 1] := by
  refine ⟨disciplined_hello, List.cons_ne_nil _ _, fun e he => ?_⟩
  cases List.mem_singleton.mp he
  exact Nat.le_refl 1

theorem Greeted.one_le {n : ℕ} {log : List Effect} (h : Greeted n log) : 1 ≤ n := by
  cases log with
  | nil => exact absurd rfl h.nonempty
  | cons e log =>
    have he := h.disciplined.opened e rfl
    have hb := h.bounded e List.mem_cons_self
    rw [he] at hb
    exact hb

theorem Greeted.mono {n m : ℕ} {log : List Effect} (h : Greeted n log) (hm : n ≤ m) : Greeted m log :=
  ⟨h.disciplined, h.nonempty, fun e he => Nat.le_trans (h.bounded e he) hm⟩

theorem Greeted.append {n : ℕ} {log : List Effect} (h : Greeted n log) {e : Effect}
    (he : e.isHello = false) (hn : n < e.seq) : Greeted e.seq (log ++ [e]) := by
  have htail : (log ++ [e]).tail = log.tail ++ [e] := List.tail_append_of_ne_nil h.nonempty
  have hone := h.one_le
  refine ⟨⟨fun d hd => ?_, fun d hd => ?_, fun d hd => ?_, ?_⟩, ?_, fun d hd => ?_⟩
  · rw [List.head?_append_of_ne_nil _ h.nonempty] at hd
    exact h.disciplined.opened d hd
  · rw [htail] at hd
    rcases List.mem_append.mp hd with hd | hd
    · exact h.disciplined.once d hd
    · rw [List.mem_singleton.mp hd]
      exact he
  · rw [htail] at hd
    rcases List.mem_append.mp hd with hd | hd
    · exact h.disciplined.above d hd
    · rw [List.mem_singleton.mp hd]
      omega
  · rw [List.map_append, List.pairwise_append]
    refine ⟨h.disciplined.increasing, List.pairwise_singleton _ _, fun a ha b hb => ?_⟩
    obtain ⟨d, hd, rfl⟩ := List.mem_map.mp ha
    rw [List.mem_singleton.mp hb]
    exact Nat.lt_of_le_of_lt (h.bounded d hd) hn
  · simp
  · rcases List.mem_append.mp hd with hd | hd
    · exact Nat.le_of_lt (Nat.lt_of_le_of_lt (h.bounded d hd) hn)
    · rw [List.mem_singleton.mp hd]

/-! ## The handle of a client -/

/-- What sequencing reads of a handle. -/
def view (b : BrokerState) (id : ℕ) : Option (Bool × Option ℕ) :=
  (b.find id).map fun c => (c.handshaken, c.lastSeq)

theorem view_congr {b u : BrokerState} (h : u.clients = b.clients) (id : ℕ) : view u id = view b id := by
  unfold view BrokerState.find
  rw [h]

theorem isHandshaken_view {b : BrokerState} {id : ℕ} {v : Bool × Option ℕ} (h : view b id = some v) :
    b.isHandshaken id = v.1 := by
  obtain ⟨c, hc, rfl⟩ := Option.map_eq_some_iff.mp h
  unfold BrokerState.isHandshaken
  rw [hc]
  rfl

theorem find_update (b : BrokerState) (id i : ℕ) {f : ClientHandle → ClientHandle}
    (hf : ∀ c, (f c).id = c.id) :
    (b.update id f).find i = (b.find i).map fun c => if c.id = id then f c else c := by
  unfold BrokerState.find BrokerState.update
  rw [List.find?_map]
  congr 2
  funext c
  rw [Function.comp_apply]
  split
  · rw [hf]
  · rfl

theorem view_update_other {b : BrokerState} {id i : ℕ} (hi : i ≠ id) {f : ClientHandle → ClientHandle}
    (hf : ∀ c, (f c).id = c.id) : view (b.update id f) i = view b i := by
  unfold view
  rw [find_update b id i hf, Option.map_map]
  cases hb : b.find i with
  | none => rfl
  | some c =>
    have hc := (find_mem hb).2
    rw [Option.map_some, Option.map_some, Function.comp_apply, if_neg (hc.trans_ne hi)]

theorem view_update_self {b : BrokerState} {id : ℕ} {f : ClientHandle → ClientHandle}
    (hf : ∀ c, (f c).id = c.id) :
    view (b.update id f) id = (b.find id).map fun c => ((f c).handshaken, (f c).lastSeq) := by
  unfold view
  rw [find_update b id id hf, Option.map_map]
  cases hb : b.find id with
  | none => rfl
  | some c =>
    have hc := (find_mem hb).2
    rw [Option.map_some, Option.map_some, Function.comp_apply, if_pos hc]

theorem view_die (b : BrokerState) (id i : ℕ) :
    view (b.update id fun c => { c with live := false }) i = view b i := by
  by_cases hi : i = id
  · subst hi
    exact view_update_self fun _ => rfl
  · exact view_update_other hi fun _ => rfl

theorem view_recordHello {b : BrokerState} {id : ℕ} {v : Bool × Option ℕ} (h : view b id = some v)
    (hello : Hello) : view (recordHello b id hello) id = some (true, some helloSeq) := by
  obtain ⟨c, hc, -⟩ := Option.map_eq_some_iff.mp h
  unfold recordHello
  rw [view_update_self, hc]
  · rfl
  · exact fun _ => rfl

theorem view_recordHello_other {b : BrokerState} {id i : ℕ} (hi : i ≠ id) (hello : Hello) :
    view (recordHello b id hello) i = view b i := view_update_other hi fun _ => rfl

theorem view_connect_self {b : BrokerState} {id : ℕ} (h : view b id = none) :
    view { b with clients := b.clients ++ [.new id] } id = some (false, none) := by
  have hn : b.clients.find? (fun c => c.id = id) = none := Option.map_eq_none_iff.mp h
  unfold view BrokerState.find
  rw [List.find?_append, hn]
  simp [ClientHandle.new]

theorem view_connect_other {b : BrokerState} {id i : ℕ} (hi : i ≠ id) :
    view { b with clients := b.clients ++ [.new id] } i = view b i := by
  have hn : [ClientHandle.new id].find? (fun c => c.id = i) = none := by
    simpa [ClientHandle.new] using hi.symm
  unfold view BrokerState.find
  rw [List.find?_append, hn, Option.or_none]

theorem view_cleanup_other {b : BrokerState} {id i : ℕ} (hi : i ≠ id) :
    view (b.removeAndPromote id) i = view b i := by
  unfold view BrokerState.find BrokerState.removeAndPromote
  rw [List.find?_filter]
  congr 2
  funext c
  by_cases hc : c.id = i <;> simp [hc, hi]

theorem seqPasses_view {b : BrokerState} {id n : ℕ} (h : view b id = some (true, some n)) (k : ℕ) :
    b.seqPasses id k = decide (n < k) := by
  obtain ⟨c, hc, hv⟩ := Option.map_eq_some_iff.mp h
  have hl : c.lastSeq = some n := congrArg Prod.snd hv
  unfold BrokerState.seqPasses
  rw [hc, Option.bind_some, hl]
  change (!decide (k ≤ n)) = _
  rw [← decide_not]
  exact decide_eq_decide.mpr Nat.not_le

theorem view_checkAndUpdateSeq_other {b : BrokerState} {id i : ℕ} (hi : i ≠ id) (k : ℕ) :
    view (b.checkAndUpdateSeq id k).1 i = view b i := by
  unfold BrokerState.checkAndUpdateSeq
  split
  · exact view_update_other hi fun _ => rfl
  · rfl

theorem checkAndUpdateSeq_passes {b : BrokerState} {id n : ℕ} (h : view b id = some (true, some n))
    {k : ℕ} (hp : (b.checkAndUpdateSeq id k).2 = true) :
    n < k ∧ view (b.checkAndUpdateSeq id k).1 id = some (true, some k) := by
  unfold BrokerState.checkAndUpdateSeq at hp ⊢
  rw [seqPasses_view h] at hp ⊢
  by_cases hk : n < k
  · obtain ⟨c, hc, hv⟩ := Option.map_eq_some_iff.mp h
    have hh : c.handshaken = true := congrArg Prod.fst hv
    refine ⟨hk, ?_⟩
    rw [if_pos (decide_eq_true hk), view_update_self, hc, Option.map_some, hh]
    exact fun _ => rfl
  · rw [if_neg (by simpa using hk)] at hp
    cases hp

/-! ## The invariant -/

/-- Before hello there is no effect; after it the last sequence number bounds them. -/
def Follows (v : Option (Bool × Option ℕ)) (log : List Effect) : Prop :=
  (v = some (false, none) ∧ log = []) ∨ ∃ n, v = some (true, some n) ∧ Greeted n log

/-- The message numbered `k` has passed the sequence check and had no effect yet. -/
def Admitted (k : ℕ) (v : Option (Bool × Option ℕ)) (log : List Effect) : Prop :=
  v = some (true, some k) ∧ ∃ n < k, Greeted n log

/-- What holds of a client while its task is where it is. -/
def Good : Task → Option (Bool × Option ℕ) → List Effect → Prop
  | .absent, v, log | .starting, v, log => v = none ∧ log = []
  | .reading, v, log | .check _, v, log | .leaving, v, log => Follows v log
  | .helloCheck hello, v, log => hello.seq = 1 ∧ Follows v log
  | .helloSeq hello, v, log => hello.seq = 1 ∧ ∃ n, v = some (true, some n) ∧ Greeted n log
  | .helloRecord hello, v, log => hello.seq = 1 ∧ v = some (false, none) ∧ log = []
  | .helloAssign _, v, log | .helloSnapshot _, v, log | .seq _, v, log =>
    ∃ n, v = some (true, some n) ∧ Greeted n log
  | .command command, v, log => Admitted command.seq.toNat v log
  | .trySend inbound, v, log => inbound.payload ≠ .SnapshotRequest ∧ Admitted inbound.seq.toNat v log
  | .claim n, v, log | .release n, v, log => Admitted n.toNat v log
  | .ended, _, log => Disciplined log

structure Invariant (s : Server) : Prop where
  good : ∀ id, Good (s.tasks id) (view s.broker id) (effects s id)
  absent : ∀ id, s.clientIdCounter < id → s.tasks id = .absent

theorem Follows.greeted {v : Option (Bool × Option ℕ)} {log : List Effect} {n : ℕ}
    (hv : v = some (true, some n)) (h : Greeted n log) : Follows v log := .inr ⟨n, hv, h⟩

theorem Admitted.follows {k : ℕ} {v : Option (Bool × Option ℕ)} {log : List Effect}
    (h : Admitted k v log) : Follows v log := by
  obtain ⟨hv, n, hn, hg⟩ := h
  exact .inr ⟨k, hv, hg.mono (Nat.le_of_lt hn)⟩

theorem Admitted.append {v : Option (Bool × Option ℕ)} {log : List Effect} {e : Effect}
    (h : Admitted e.seq v log) (he : e.isHello = false) : Follows v (log ++ [e]) := by
  obtain ⟨hv, n, hn, hg⟩ := h
  exact .inr ⟨e.seq, hv, hg.append he hn⟩

theorem Follows.disciplined {v : Option (Bool × Option ℕ)} {log : List Effect} (h : Follows v log) :
    Disciplined log := by
  rcases h with ⟨-, rfl⟩ | ⟨n, -, hg⟩
  · exact disciplined_nil
  · exact hg.disciplined

theorem Good.disciplined {task : Task} {v : Option (Bool × Option ℕ)} {log : List Effect}
    (h : Good task v log) : Disciplined log := by
  cases task with
  | absent | starting =>
    rw [h.2]
    exact disciplined_nil
  | reading | check | leaving => exact Follows.disciplined h
  | helloCheck hello => exact h.2.disciplined
  | helloSeq hello =>
    obtain ⟨-, n, -, hg⟩ := h
    exact hg.disciplined
  | helloRecord hello =>
    rw [h.2.2]
    exact disciplined_nil
  | helloAssign | helloSnapshot | seq =>
    obtain ⟨n, -, hg⟩ := h
    exact hg.disciplined
  | command command => exact (Admitted.follows h).disciplined
  | trySend inbound => exact h.2.follows.disciplined
  | claim | release => exact (Admitted.follows h).disciplined
  | ended => exact h

/-! ## Steps keep it -/

theorem effects_become (s : Server) (id : ℕ) (task : Task) (events : List Event) (i : ℕ) :
    effects (s.become id task events) i =
      effects s i ++ if id = i then events.filterMap effect else [] := by
  unfold effects Server.become
  rw [List.filterMap_append, List.filterMap_map]
  congr 1
  by_cases hi : id = i
  · simp only [hi, Function.comp_def, if_true]
  · simp [hi]

theorem Invariant.known {s : Server} (h : Invariant s) {id : ℕ} (ht : s.tasks id ≠ .absent) :
    id ≤ s.clientIdCounter := by
  by_contra hn
  exact ht (h.absent id (Nat.lt_of_not_le hn))

/-- A task moves on; what it does to the broker leaves the handles of the others as they are. -/
theorem invariant_become {s : Server} (h : Invariant s) {id : ℕ} (ht : s.tasks id ≠ .absent)
    {b : BrokerState} (hb : ∀ i, i ≠ id → view b i = view s.broker i) {task : Task}
    {events : List Event}
    (hid : Good task (view b id) (effects s id ++ events.filterMap effect)) :
    Invariant ((s.setBroker b).become id task events) := by
  constructor
  · intro i
    rw [effects_become]
    by_cases hi : i = id
    · subst hi
      change Good (Function.update s.tasks i task i) (view b i) _
      rw [Function.update_self, if_pos rfl]
      exact hid
    · change Good (Function.update s.tasks id task i) (view b i) _
      rw [Function.update_of_ne hi, hb i hi, if_neg (Ne.symm hi), List.append_nil]
      exact h.good i
  · intro i hi
    have hne : i ≠ id := by
      rintro rfl
      exact absurd (h.known ht) (Nat.not_le_of_lt hi)
    change Function.update s.tasks id task i = .absent
    rw [Function.update_of_ne hne]
    exact h.absent i hi

/-- The same without the broker, and without an effect. -/
theorem invariant_goto {s : Server} (h : Invariant s) {id : ℕ} (ht : s.tasks id ≠ .absent)
    {task : Task} {events : List Event} (he : events.filterMap effect = [])
    (hid : Good task (view s.broker id) (effects s id)) : Invariant (s.become id task events) := by
  refine invariant_become h ht (fun i _ => rfl) ?_
  rw [he, List.append_nil]
  exact hid

theorem invariant_dispatch {s : Server} (h : Invariant s) {id : ℕ} (ht : s.tasks id = .reading)
    (line : Line) : Invariant (s.dispatch id line) := by
  have hne : s.tasks id ≠ .absent := by
    rw [ht]
    exact fun h => (nomatch h)
  have hf : Follows (view s.broker id) (effects s id) := by
    have hg := h.good id
    rw [ht] at hg
    exact hg
  cases line with
  | unparsable text error => exact invariant_goto h hne rfl hf
  | parsed message =>
    cases message with
    | Hello hello =>
      rw [Server.dispatch]
      split
      · exact invariant_goto h hne rfl hf
      · next hseq => exact invariant_goto h hne rfl ⟨not_not.mp hseq, hf⟩
    | Command command => exact invariant_goto h hne rfl hf
    | Control control => exact invariant_goto h hne rfl hf
    | Unknown seq => exact invariant_goto h hne rfl hf

theorem invariant_validate {s : Server} (h : Invariant s) {id : ℕ} (ht : s.tasks id ≠ .absent)
    {hello : HelloMessage} (hseq : hello.seq = 1) (hv : view s.broker id = some (false, none))
    (hl : effects s id = []) : Invariant (s.validate id hello) := by
  unfold Server.validate
  split
  · exact invariant_goto h ht rfl (.inl ⟨hv, hl⟩)
  · split
    · exact invariant_goto h ht rfl (.inl ⟨hv, hl⟩)
    · exact invariant_goto h ht rfl ⟨hseq, hv, hl⟩

theorem invariant_ungreeted {s : Server} (h : Invariant s) {id : ℕ} (ht : s.tasks id ≠ .absent)
    (hf : Follows (view s.broker id) (effects s id)) (request : Request) :
    Invariant (s.ungreeted id request) := by
  cases request with
  | command command => exact invariant_goto h ht rfl hf
  | control control => exact invariant_goto h ht rfl hf
  | unknown seq => exact invariant_goto h ht rfl hf

theorem invariant_proceed {s : Server} (h : Invariant s) {id : ℕ} (ht : s.tasks id ≠ .absent)
    {b : BrokerState} (hb : ∀ i, i ≠ id → view b i = view s.broker i) {request : Request}
    (ha : Admitted request.seq.toNat (view b id) (effects s id)) :
    Invariant ((s.setBroker b).proceed id request) := by
  have hnil : Admitted request.seq.toNat (view b id) (effects s id ++ [].filterMap effect) := by
    rw [List.filterMap_nil, List.append_nil]
    exact ha
  cases request with
  | command command => exact invariant_become h ht hb hnil
  | control control =>
    obtain ⟨n, action⟩ := control
    cases action with
    | Claim => exact invariant_become h ht hb hnil
    | Release => exact invariant_become h ht hb hnil
  | unknown seq => exact invariant_become h ht hb hnil.follows

theorem invariant_prepare {s : Server} (h : Invariant s) {id : ℕ} (ht : s.tasks id ≠ .absent)
    {command : CommandMessage}
    (ha : Admitted command.seq.toNat (view s.broker id) (effects s id)) :
    Invariant (s.prepare id command) := by
  unfold Server.prepare
  split
  · exact invariant_goto h ht rfl ⟨fun h => (nomatch h), ha⟩
  · exact invariant_goto h ht rfl ha.follows

/-- An acknowledgement is an effect, a refusal is none. -/
theorem follows_answer {k : UInt64} {v : Option (Bool × Option ℕ)} {log : List Effect}
    (h : Admitted k.toNat v log) (acked : Bool) (code : ErrorCode) (message : String) :
    Follows v (log ++ [if acked then acknowledge k else clientError k code message].filterMap effect) := by
  cases acked with
  | true => exact Admitted.append (e := .control k) h rfl
  | false =>
    have hn : [if false = true then acknowledge k else clientError k code message].filterMap effect = [] :=
      rfl
    rw [hn, List.append_nil]
    exact h.follows

/-- The first hello makes the client a greeted one. -/
theorem invariant_record {s : Server} (h : Invariant s) {id : ℕ} (ht : s.tasks id ≠ .absent)
    {hello : HelloMessage} (hg : Good (.helloRecord hello) (view s.broker id) (effects s id)) :
    Invariant ((s.setBroker (recordHello s.broker id hello.requested)).become id
      (.helloAssign hello) [.greeted hello]) := by
  obtain ⟨hseq, hv, hl⟩ := hg
  refine invariant_become h ht (fun i hi => view_recordHello_other hi hello.requested)
    ⟨1, view_recordHello hv hello.requested, ?_⟩
  rw [hl]
  change Greeted 1 [.hello hello.seq]
  rw [hseq]
  exact greeted_hello

/-- The welcome is no effect, and the assignment changes no handle. -/
theorem invariant_assign {config : ServerConfig} {s : Server} (h : Invariant s) {id : ℕ}
    (ht : s.tasks id ≠ .absent) {hello : HelloMessage} {task : Task}
    (htask : task = .helloSnapshot hello ∨ task = .reading)
    (hg : Good (.helloAssign hello) (view s.broker id) (effects s id)) :
    Invariant ((s.setBroker (assignController s.broker id hello.requested)).become id task
      [Server.welcome config (assignController s.broker id hello.requested) id hello]) := by
  obtain ⟨n, hv, hgr⟩ := hg
  have hview := view_congr (assignController_clients s.broker id hello.requested)
  have hlog : effects s id ++ [Server.welcome config (assignController s.broker id hello.requested)
      id hello].filterMap effect = effects s id := List.append_nil _
  refine invariant_become h ht (fun i _ => hview i) ?_
  rw [hview, hlog]
  rcases htask with rfl | rfl
  · exact ⟨n, hv, hgr⟩
  · exact .greeted hv hgr

/-- A control message is answered; no handle changes. -/
theorem invariant_answer {s : Server} (h : Invariant s) {id : ℕ} (ht : s.tasks id ≠ .absent)
    {b : BrokerState} (hb : b.clients = s.broker.clients) {n : UInt64}
    (ha : Admitted n.toNat (view s.broker id) (effects s id)) (acked : Bool) (code : ErrorCode)
    (message : String) : Invariant ((s.setBroker b).become id .reading
      [if acked then acknowledge n else clientError n code message]) := by
  have hview := view_congr hb
  refine invariant_become h ht (fun i _ => hview i) ?_
  rw [hview]
  exact follows_answer ha acked code message

theorem invariant_runSection {config : ServerConfig} {s u : Server} (h : Invariant s) {id : ℕ}
    (hu : s.runSection config id = some u) : Invariant u := by
  have hg := h.good id
  have hne : s.tasks id ≠ .absent := by
    intro ht
    rw [Server.runSection, ht] at hu
    cases hu
  unfold Server.runSection at hu
  cases ht : s.tasks id with
  | absent | reading | helloSnapshot | trySend | ended =>
    rw [ht] at hu
    cases hu
  | starting =>
    rw [ht] at hu hg
    cases hu
    refine invariant_become h hne (fun i hi => view_connect_other hi) (.inl ⟨?_, ?_⟩)
    · exact view_connect_self hg.1
    · rw [hg.2]
      rfl
  | helloCheck hello =>
    rw [ht] at hu hg
    obtain ⟨hseq, hf⟩ := hg
    simp only at hu
    rcases hf with ⟨hv, hl⟩ | ⟨n, hv, hgr⟩
    · rw [isHandshaken_view hv, if_neg Bool.false_ne_true] at hu
      cases hu
      exact invariant_validate h hne hseq hv hl
    · rw [isHandshaken_view hv, if_pos rfl] at hu
      cases hu
      exact invariant_goto h hne rfl ⟨hseq, n, hv, hgr⟩
  | helloSeq hello =>
    rw [ht] at hu hg
    obtain ⟨hseq, n, hv, hgr⟩ := hg
    simp only at hu
    split at hu
    · next hp =>
      -- a second hello is numbered 1 as well
      have hlt := (checkAndUpdateSeq_passes hv hp).1
      have hone := hgr.one_le
      rw [hseq] at hlt
      exact absurd hlt (Nat.not_lt_of_le hone)
    · cases hu
      exact invariant_goto h hne rfl (.greeted hv hgr)
  | helloRecord hello =>
    rw [ht] at hu hg
    cases hu
    exact invariant_record h hne hg
  | helloAssign hello =>
    rw [ht] at hu hg
    cases hu
    refine invariant_assign h hne ?_ hg
    split
    · exact .inl rfl
    · exact .inr rfl
  | check request =>
    rw [ht] at hu hg
    simp only at hu
    rcases hg with ⟨hv, hl⟩ | ⟨n, hv, hgr⟩
    · rw [isHandshaken_view hv, if_neg Bool.false_ne_true] at hu
      cases hu
      exact invariant_ungreeted h hne (.inl ⟨hv, hl⟩) request
    · rw [isHandshaken_view hv, if_pos rfl] at hu
      cases hu
      exact invariant_goto h hne rfl ⟨n, hv, hgr⟩
  | seq request =>
    rw [ht] at hu hg
    obtain ⟨n, hv, hgr⟩ := hg
    simp only at hu
    split at hu
    · next hp =>
      obtain ⟨hlt, hnew⟩ := checkAndUpdateSeq_passes hv hp
      cases hu
      exact invariant_proceed h hne (fun i hi => view_checkAndUpdateSeq_other hi _) ⟨hnew, n, hlt, hgr⟩
    · cases hu
      exact invariant_goto h hne rfl (.greeted hv hgr)
  | command command =>
    rw [ht] at hu hg
    simp only at hu
    split at hu
    · cases hu
      exact invariant_prepare h hne hg
    · cases hu
      exact invariant_goto h hne rfl (Admitted.follows hg)
  | claim n =>
    rw [ht] at hu hg
    cases hu
    exact invariant_answer h hne (claim_clients s.broker id) hg _ _ _
  | release n =>
    rw [ht] at hu hg
    cases hu
    exact invariant_answer h hne (release_clients s.broker id) hg _ _ _
  | leaving =>
    rw [ht] at hu hg
    cases hu
    refine invariant_become h hne (fun i hi => view_cleanup_other hi) ?_
    rw [List.filterMap_nil, List.append_nil]
    exact Follows.disciplined hg

theorem invariant_enqueue {s u : Server} (h : Invariant s) {id : ℕ} (hu : s.enqueue id = some u) :
    Invariant u := by
  -- the queue is no part of the invariant
  have hq : ∀ inbound, Invariant { s with commandQueue := s.commandQueue ++ [inbound] } :=
    fun inbound => ⟨h.good, h.absent⟩
  have hg := h.good id
  have hne : s.tasks id ≠ .absent := by
    intro ht
    rw [Server.enqueue, ht] at hu
    cases hu
  unfold Server.enqueue at hu
  split at hu
  · next inbound ht =>
    rw [ht] at hg
    obtain ⟨clientId, n, payload⟩ := inbound
    cases hu
    cases payload with
    | SnapshotRequest => exact absurd rfl hg.1
    | Command command =>
      exact invariant_become (hq _) hne (fun i _ => rfl)
        (Admitted.append (e := .command n) hg.2 rfl)
  · next hello ht =>
    rw [ht] at hg
    obtain ⟨n, hv, hgr⟩ := hg
    cases hu
    exact invariant_goto (hq _) hne rfl (.greeted hv hgr)
  · cases hu

theorem invariant_refuse {s u : Server} (h : Invariant s) {id : ℕ} (hu : s.refuse id = some u) :
    Invariant u := by
  have hg := h.good id
  have hne : s.tasks id ≠ .absent := by
    intro ht
    rw [Server.refuse, ht] at hu
    cases hu
  unfold Server.refuse at hu
  split at hu
  · next inbound ht =>
    rw [ht] at hg
    cases hu
    exact invariant_goto h hne rfl hg.2.follows
  · next hello ht =>
    rw [ht] at hg
    obtain ⟨n, hv, hgr⟩ := hg
    cases hu
    exact invariant_goto h hne rfl (.greeted hv hgr)
  · cases hu

/-- A new client gets an id that nobody had. -/
theorem invariant_accept {s : Server} (h : Invariant s) :
    Invariant ({ s with clientIdCounter := s.clientIdCounter + 1 }.become (s.clientIdCounter + 1)
      .starting []) := by
  have hg := h.good (s.clientIdCounter + 1)
  rw [h.absent _ (Nat.lt_succ_self _)] at hg
  constructor
  · intro i
    rw [effects_become, List.filterMap_nil, ite_self, List.append_nil]
    change Good (Function.update s.tasks (s.clientIdCounter + 1) .starting i) (view s.broker i)
      (effects s i)
    by_cases hi : i = s.clientIdCounter + 1
    · rw [hi, Function.update_self]
      exact hg
    · rw [Function.update_of_ne hi]
      exact h.good i
  · intro i hi
    change s.clientIdCounter + 1 < i at hi
    have hne : i ≠ s.clientIdCounter + 1 := Nat.ne_of_gt hi
    change Function.update s.tasks (s.clientIdCounter + 1) .starting i = .absent
    rw [Function.update_of_ne hne]
    exact h.absent i (Nat.lt_of_succ_lt hi)

theorem invariant_step {config : ServerConfig} {s u : Server} {step : ServerStep} (h : Invariant s)
    (hu : s.step config step = some u) : Invariant u := by
  cases step with
  | accept =>
    cases hu
    exact invariant_accept h
  | runSection id => exact invariant_runSection h hu
  | line id line =>
    obtain ⟨ht, hu⟩ := Option.ite_none_right_eq_some.mp hu
    cases hu
    exact invariant_dispatch h ht line
  | leave id =>
    obtain ⟨ht, hu⟩ := Option.ite_none_right_eq_some.mp hu
    have hg := h.good id
    rw [ht] at hg
    cases hu
    refine invariant_goto h ?_ rfl hg
    rw [ht]
    exact fun h => (nomatch h)
  | enqueue id =>
    obtain ⟨-, hu⟩ := Option.ite_none_right_eq_some.mp hu
    exact invariant_enqueue h hu
  | refuse id => exact invariant_refuse h hu
  | takeCommand =>
    obtain ⟨-, hu⟩ := Option.ite_none_left_eq_some.mp hu
    cases hu
    exact ⟨h.good, h.absent⟩
  | die id =>
    cases hu
    refine ⟨fun i => ?_, h.absent⟩
    change Good (s.tasks i) (view (s.broker.update id _) i) (effects s i)
    rw [view_die]
    exact h.good i

/-! ## Every run -/

def Reachable (config : ServerConfig) : Server → Prop :=
  Reach (fun s => s = .initial) (fun s step u => s.step config step = some u)

theorem invariant_reachable {config : ServerConfig} {s : Server} (h : Reachable config s) :
    Invariant s := by
  refine Reach.invariant h ?_ fun s step u hs hu => invariant_step hs hu
  rintro _ rfl
  exact ⟨fun id => ⟨rfl, rfl⟩, fun id _ => rfl⟩

/-- The task is in a section of a command or a control. -/
def acts : Task → Bool
  | .command _ | .trySend _ | .claim _ | .release _ => true
  | _ => false

theorem Greeted.hello_mem {n : ℕ} {log : List Effect} (h : Greeted n log) : Effect.hello 1 ∈ log := by
  cases log with
  | nil => exact absurd rfl h.nonempty
  | cons e log =>
    rw [← h.disciplined.opened e rfl]
    exact List.mem_cons_self

theorem Good.greeted {task : Task} {v : Option (Bool × Option ℕ)} {log : List Effect}
    (h : Good task v log) (ha : acts task = true) : Effect.hello 1 ∈ log := by
  have hm : ∀ k, Admitted k v log → Effect.hello 1 ∈ log := by
    rintro k ⟨-, n, -, hg⟩
    exact hg.hello_mem
  cases task with
  | command command => exact hm _ h
  | trySend inbound => exact hm _ h.2
  | claim n => exact hm _ h
  | release n => exact hm _ h
  | _ => cases ha

/-- On every connection one hello at most is accepted, commands and controls come after it, and
their effects have increasing sequence numbers above its own. -/
theorem handshake_discipline {config : ServerConfig} {s : Server} (h : Reachable config s) (id : ℕ) :
    Disciplined (effects s id) ∧ (acts (s.tasks id) = true → Effect.hello 1 ∈ effects s id) := by
  have hg := (invariant_reachable h).good id
  exact ⟨hg.disciplined, hg.greeted⟩

def smallConfig : ServerConfig := ⟨protocolVersion, 8⟩

def holdCommand (seq : UInt64) : Line :=
  .parsed (.Command ⟨seq, .Action, some ⟨[.Hold], by decide⟩, none, none⟩)

/-- A hello, and a command whose number is used again. -/
def repeatedCommand : List ServerStep :=
  [.accept, .runSection 1,
    .line 1 (.parsed (.Hello ⟨1, ['3', '.', '0', '.', '0'], true, autoHello⟩)),
    .runSection 1, .runSection 1, .runSection 1,
    .line 1 (holdCommand 2), .runSection 1, .runSection 1, .runSection 1, .enqueue 1,
    .line 1 (holdCommand 2), .runSection 1, .runSection 1]

def repeatedServer : Server :=
  (repeatedCommand.foldlM (Server.step smallConfig) .initial).getD .initial

theorem repeatedServer_reached :
    repeatedCommand.foldlM (Server.step smallConfig) .initial = some repeatedServer :=
  (Option.getD_of_ne_none (by decide +kernel) _).symm

theorem handshake_discipline_repeated :
    effects repeatedServer 1 = [.hello 1, .command 2] ∧ Disciplined (effects repeatedServer 1) :=
  ⟨by decide +kernel,
    (handshake_discipline (Reach.foldlM (.init rfl) repeatedCommand repeatedServer_reached) 1).1⟩

end TuiTetris.AdapterHandshake
