import TuiTetris.AdapterBroker
import TuiTetris.LibTransition

set_option autoImplicit false

/-!
# Who becomes controller

Hello and claim give control to clients that have said hello. The promotion at a
disconnect looks at liveness and role alone, and a client that has not said hello
has the role it was registered with.
-/
namespace TuiTetris.AdapterBrokerControl
open LibTransition AdapterBroker

/-! ## What a step does -/

/-- A step that is taken, with what it waited for. -/
inductive Stepped (s : System) : BrokerStep → System → Prop where
  | connect {id : ℕ} (new : id ∉ s.seen) :
    Stepped s (.connect id) { s with
      broker := { s.broker with clients := s.broker.clients ++ [.new id] }, seen := id :: s.seen }
  | recordHello {id : ℕ} {hello : Hello} (idle : s.idle id = true)
      (fresh : (!s.broker.isHandshaken id || s.broker.seqPasses id helloSeq) = true) :
    Stepped s (.recordHello id hello) { s with
      broker := recordHello s.broker id hello, pending := (id, hello) :: s.pending }
  | assign {id : ℕ} {hello : Hello} (recorded : (id, hello) ∈ s.pending) :
    Stepped s (.assign id hello) { s with
      broker := assignController s.broker id hello
      pending := s.pending.filter fun p => p.1 ≠ id }
  | message {id seq : ℕ} :
    Stepped s (.message id seq) { s with broker := (s.broker.checkAndUpdateSeq id seq).1 }
  | claim {id : ℕ} (greeted : s.broker.isHandshaken id = true) :
    Stepped s (.claim id) { s with
      broker := (claim s.broker id).1
      claimed := if (claim s.broker id).2 then id :: s.claimed else s.claimed }
  | release {id : ℕ} : Stepped s (.release id) { s with broker := release s.broker id }
  | die {id : ℕ} :
    Stepped s (.die id) { s with broker := s.broker.update id fun c => { c with live := false } }
  | cleanup {id : ℕ} (idle : s.idle id = true) :
    Stepped s (.cleanup id) { s with broker := s.broker.removeAndPromote id }

theorem System.stepped {s u : System} {step : BrokerStep} (h : s.step step = some u) :
    Stepped s step u := by
  cases step with
  | connect id =>
    obtain ⟨hn, hu⟩ := Option.ite_none_left_eq_some.mp h
    cases hu
    exact .connect hn
  | recordHello id hello =>
    obtain ⟨hg, hu⟩ := Option.ite_none_right_eq_some.mp h
    rw [Bool.and_eq_true] at hg
    cases hu
    exact .recordHello hg.1 hg.2
  | assign id hello =>
    obtain ⟨hm, hu⟩ := Option.ite_none_right_eq_some.mp h
    cases hu
    exact .assign hm
  | message id seq =>
    obtain ⟨-, hu⟩ := Option.ite_none_right_eq_some.mp h
    cases hu
    exact .message
  | claim id =>
    obtain ⟨hg, hu⟩ := Option.ite_none_right_eq_some.mp h
    rw [Bool.and_eq_true] at hg
    cases hu
    exact .claim hg.2
  | release id =>
    obtain ⟨-, hu⟩ := Option.ite_none_right_eq_some.mp h
    cases hu
    exact .release
  | die id =>
    cases h
    exact .die
  | cleanup id =>
    obtain ⟨hi, hu⟩ := Option.ite_none_right_eq_some.mp h
    cases hu
    exact .cleanup hi

/-! ## Client ids -/

def ids (b : BrokerState) : List ℕ := b.clients.map ClientHandle.id

/-- No id is registered twice, and none is given out again. -/
structure Distinct (s : System) : Prop where
  nodup : (ids s.broker).Nodup
  seen : ∀ id ∈ ids s.broker, id ∈ s.seen

theorem Distinct.congr {s u : System} (h : Distinct s) (hi : ids u.broker = ids s.broker)
    (hs : u.seen = s.seen) : Distinct u := by
  constructor
  · rw [hi]
    exact h.nodup
  · rw [hi, hs]
    exact h.seen

theorem update_ids (b : BrokerState) (id : ℕ) (f : ClientHandle → ClientHandle)
    (hf : ∀ c, (f c).id = c.id) : ids (b.update id f) = ids b := by
  unfold ids BrokerState.update
  rw [List.map_map]
  apply List.map_congr_left
  intro c _
  rw [Function.comp_apply]
  split
  · exact hf c
  · rfl

theorem clearStale_clients (b : BrokerState) : b.clearStaleController.clients = b.clients := by
  unfold BrokerState.clearStaleController
  split
  · split <;> rfl
  · rfl

theorem assignController_clients (b : BrokerState) (id : ℕ) (h : Hello) :
    (assignController b id h).clients = b.clients := by
  simp only [assignController]
  split <;> exact clearStale_clients b

theorem claim_clients (b : BrokerState) (id : ℕ) : (claim b id).1.clients = b.clients := by
  simp only [claim]
  split
  · exact clearStale_clients b
  · split <;> exact clearStale_clients b

theorem release_clients (b : BrokerState) (id : ℕ) : (release b id).clients = b.clients := by
  unfold release
  split <;> rfl

theorem checkAndUpdateSeq_ids (b : BrokerState) (id seq : ℕ) :
    ids (b.checkAndUpdateSeq id seq).1 = ids b := by
  unfold BrokerState.checkAndUpdateSeq
  split
  · exact update_ids b id _ fun _ => rfl
  · rfl

theorem distinct_connect {s : System} (hs : Distinct s) {id : ℕ} (h : id ∉ s.seen) :
    Distinct { s with
      broker := { s.broker with clients := s.broker.clients ++ [.new id] }
      seen := id :: s.seen } := by
  have happ : ids { s.broker with clients := s.broker.clients ++ [.new id] } =
      ids s.broker ++ [id] := List.map_append
  constructor
  · rw [happ]
    refine List.nodup_append.mpr ⟨hs.nodup, List.pairwise_singleton _ _, fun i hi j hj hij => ?_⟩
    have he : i = id := hij.trans (List.mem_singleton.mp hj)
    exact h (he ▸ hs.seen i hi)
  · intro i hi
    rw [happ, List.mem_append] at hi
    rcases hi with hi | hi
    · exact List.mem_cons_of_mem id (hs.seen i hi)
    · rw [List.mem_singleton.mp hi]
      exact List.mem_cons_self

theorem distinct_removeAndPromote {s : System} (hs : Distinct s) (id : ℕ) :
    Distinct { s with broker := s.broker.removeAndPromote id } := by
  have hsub : (ids (s.broker.removeAndPromote id)).Sublist (ids s.broker) :=
    List.filter_sublist.map ClientHandle.id
  exact ⟨hs.nodup.sublist hsub, fun i hi => hs.seen i (hsub.subset hi)⟩

theorem distinct_step {s u : System} {step : BrokerStep} (hs : Distinct s)
    (h : s.step step = some u) : Distinct u := by
  cases System.stepped h with
  | connect hn => exact distinct_connect hs hn
  | recordHello hi hf => exact hs.congr (update_ids s.broker _ _ fun _ => rfl) rfl
  | assign hm =>
    exact hs.congr
      (congrArg (List.map ClientHandle.id) (assignController_clients s.broker _ _)) rfl
  | message => exact hs.congr (checkAndUpdateSeq_ids s.broker _ _) rfl
  | claim hg => exact hs.congr (congrArg (List.map ClientHandle.id) (claim_clients s.broker _)) rfl
  | release => exact hs.congr (congrArg (List.map ClientHandle.id) (release_clients s.broker _)) rfl
  | die => exact hs.congr (update_ids s.broker _ _ fun _ => rfl) rfl
  | cleanup hi => exact distinct_removeAndPromote hs _

/-! ## The invariant -/

structure Invariant (s : System) : Prop extends Distinct s where
  seqs : ∀ c ∈ s.broker.clients, c.handshaken = true → ∃ n, c.lastSeq = some n ∧ 1 ≤ n
  pending : ∀ p ∈ s.pending, ∃ c ∈ s.broker.clients, c.id = p.1 ∧ c.handshaken = true ∧
    c.requestedRole = p.2.requestedRole
  eligible : Eligible s

theorem find_eq {b : BrokerState} (h : (ids b).Nodup) {c : ClientHandle} (hc : c ∈ b.clients) :
    b.find c.id = some c := by
  unfold ids at h
  unfold BrokerState.find
  generalize b.clients = clients at h hc
  induction clients with
  | nil => cases hc
  | cons d ds ih =>
    rw [List.map_cons, List.nodup_cons] at h
    rcases List.mem_cons.mp hc with rfl | hc
    · simp
    · have hne : d.id ≠ c.id := fun he => h.1 (he ▸ List.mem_map_of_mem hc)
      rw [List.find?_cons_of_neg (by simpa using hne)]
      exact ih h.2 hc

theorem find_mem {b : BrokerState} {id : ℕ} {c : ClientHandle} (h : b.find id = some c) :
    c ∈ b.clients ∧ c.id = id := by
  have hid := List.find?_some h
  exact ⟨List.mem_of_find?_eq_some h, by simpa using hid⟩

theorem mem_update {b : BrokerState} {id : ℕ} {f : ClientHandle → ClientHandle}
    {c : ClientHandle} :
    c ∈ (b.update id f).clients ↔ ∃ d ∈ b.clients, (if d.id = id then f d else d) = c := by
  unfold BrokerState.update
  exact List.mem_map

theorem invariant_update {s : System} (hs : Invariant s) (id : ℕ)
    (f : ClientHandle → ClientHandle) (hid : ∀ c, (f c).id = c.id)
    (hh : ∀ c, (f c).handshaken = c.handshaken) (hr : ∀ c, (f c).requestedRole = c.requestedRole)
    (hq : ∀ c ∈ s.broker.clients, c.id = id → c.handshaken = true →
      ∃ n, (f c).lastSeq = some n ∧ 1 ≤ n) :
    Invariant { s with broker := s.broker.update id f } := by
  have keep : ∀ c ∈ s.broker.clients, ∃ d ∈ (s.broker.update id f).clients,
      d.id = c.id ∧ d.handshaken = c.handshaken ∧ d.requestedRole = c.requestedRole := by
    intro c hc
    refine ⟨_, mem_update.mpr ⟨c, hc, rfl⟩, ?_⟩
    split
    · exact ⟨hid c, hh c, hr c⟩
    · exact ⟨rfl, rfl, rfl⟩
  refine ⟨hs.congr (update_ids s.broker id f hid) rfl, ?_, ?_, ?_⟩
  · intro d hd
    obtain ⟨c, hc, rfl⟩ := mem_update.mp hd
    split
    · next he =>
      rw [hh]
      exact hq c hc he
    · exact hs.seqs c hc
  · intro p hp
    obtain ⟨c, hc, h1, h2, h3⟩ := hs.pending p hp
    obtain ⟨d, hd, k1, k2, k3⟩ := keep c hc
    exact ⟨d, hd, k1.trans h1, k2.trans h2, k3.trans h3⟩
  · intro i hi
    obtain ⟨c, hc, h1, h2, h3⟩ := hs.eligible i hi
    obtain ⟨d, hd, k1, k2, k3⟩ := keep c hc
    exact ⟨d, hd, k1.trans h1, k2.trans h2, fun ho => h3 (k3.symm.trans ho)⟩

theorem invariant_controller {s : System} (hs : Invariant s) (controllerId : Option ℕ)
    (pending : List (ℕ × Hello)) (claimed : List ℕ) (hp : ∀ p ∈ pending, p ∈ s.pending)
    (he : ∀ id, controllerId = some id → ∃ c ∈ s.broker.clients, c.id = id ∧
      c.handshaken = true ∧ (c.requestedRole = .Observer → id ∈ claimed)) :
    Invariant { s with
      broker := { s.broker with controllerId := controllerId }, pending := pending,
      claimed := claimed } :=
  ⟨hs.congr rfl rfl, hs.seqs, fun p h => hs.pending p (hp p h), he⟩

theorem clearStale_controller (b : BrokerState) :
    b.clearStaleController.controllerId = b.controllerId ∨
      b.clearStaleController.controllerId = none := by
  unfold BrokerState.clearStaleController
  split
  · split
    · exact .inl rfl
    · exact .inr rfl
  · exact .inl rfl

theorem clearStale_eq (b : BrokerState) : b.clearStaleController =
    { b with controllerId := b.clearStaleController.controllerId } := by
  have h := clearStale_clients b
  cases hb : b.clearStaleController
  rw [hb] at h
  cases h
  rfl

theorem clearStale_eligible {s : System} (hs : Invariant s) (id : ℕ)
    (h : s.broker.clearStaleController.controllerId = some id) :
    ∃ c ∈ s.broker.clients, c.id = id ∧ c.handshaken = true ∧
      (c.requestedRole = .Observer → id ∈ s.claimed) := by
  rcases clearStale_controller s.broker with hc | hc
  · exact hs.eligible id (hc.symm.trans h)
  · rw [hc] at h
    cases h

theorem isHandshaken_mem {b : BrokerState} {id : ℕ} (h : b.isHandshaken id = true) :
    ∃ c ∈ b.clients, c.id = id ∧ c.handshaken = true := by
  unfold BrokerState.isHandshaken at h
  cases hf : b.find id with
  | none =>
    rw [hf] at h
    cases h
  | some c =>
    rw [hf] at h
    obtain ⟨hc, hid⟩ := find_mem hf
    exact ⟨c, hc, hid, h⟩

theorem idle_iff {s : System} {id : ℕ} : s.idle id = true ↔
    (∃ c, s.broker.find id = some c) ∧ ∀ p ∈ s.pending, p.1 ≠ id := by
  unfold System.idle
  rw [Bool.and_eq_true, Option.isSome_iff_exists, List.all_eq_true]
  simp

theorem invariant_connect {s : System} (hs : Invariant s) {id : ℕ} (h : id ∉ s.seen) :
    Invariant { s with
      broker := { s.broker with clients := s.broker.clients ++ [.new id] }
      seen := id :: s.seen } := by
  refine ⟨distinct_connect hs.toDistinct h, ?_, ?_, ?_⟩
  · intro c hc hh
    rcases List.mem_append.mp hc with hc | hc
    · exact hs.seqs c hc hh
    · cases List.mem_singleton.mp hc
      cases hh
  · intro p hp
    obtain ⟨c, hc, hrest⟩ := hs.pending p hp
    exact ⟨c, List.mem_append_left _ hc, hrest⟩
  · intro i hi
    obtain ⟨c, hc, hrest⟩ := hs.eligible i hi
    exact ⟨c, List.mem_append_left _ hc, hrest⟩

theorem recordHello_fresh {s : System} (hs : Invariant s) {id : ℕ}
    (h : (!s.broker.isHandshaken id || s.broker.seqPasses id helloSeq) = true)
    {c : ClientHandle} (hc : c ∈ s.broker.clients) (hid : c.id = id) : c.handshaken = false := by
  by_contra hn
  have hh : c.handshaken = true := by simpa using hn
  obtain ⟨n, hn, h1⟩ := hs.seqs c hc hh
  have hf := find_eq hs.nodup hc
  rw [hid] at hf
  have hle : helloSeq ≤ n := h1
  simp [BrokerState.isHandshaken, BrokerState.seqPasses, hf, hh, hn, hle] at h

theorem invariant_recordHello {s : System} (hs : Invariant s) {id : ℕ} {hello : Hello}
    (hi : s.idle id = true)
    (h : (!s.broker.isHandshaken id || s.broker.seqPasses id helloSeq) = true) :
    Invariant { s with
      broker := recordHello s.broker id hello, pending := (id, hello) :: s.pending } := by
  obtain ⟨⟨c₀, hfind⟩, hpend⟩ := idle_iff.mp hi
  obtain ⟨hc₀, hid₀⟩ := find_mem hfind
  have other : ∀ c ∈ s.broker.clients, c.id ≠ id →
      c ∈ (recordHello s.broker id hello).clients := by
    intro c hc hne
    exact mem_update.mpr ⟨c, hc, if_neg hne⟩
  refine ⟨hs.congr (update_ids s.broker id _ fun _ => rfl) rfl, ?_, ?_, ?_⟩
  · intro d hd hh
    obtain ⟨c, hc, rfl⟩ := mem_update.mp hd
    split at hh
    · next he =>
      rw [if_pos he]
      exact ⟨helloSeq, rfl, Nat.le_refl 1⟩
    · next he =>
      rw [if_neg he]
      exact hs.seqs c hc hh
  · intro p hp
    rcases List.mem_cons.mp hp with rfl | hp
    · exact ⟨_, mem_update.mpr ⟨c₀, hc₀, if_pos hid₀⟩, hid₀, rfl, rfl⟩
    · obtain ⟨c, hc, hcid, hrest⟩ := hs.pending p hp
      exact ⟨c, other c hc (hcid ▸ hpend p hp), hcid, hrest⟩
  · intro i hci
    obtain ⟨c, hc, hcid, hh, hrest⟩ := hs.eligible i hci
    have hne : c.id ≠ id := by
      intro he
      rw [recordHello_fresh hs h hc he] at hh
      cases hh
    exact ⟨c, other c hc hne, hcid, hh, hrest⟩

theorem invariant_assign {s : System} (hs : Invariant s) {id : ℕ} {hello : Hello}
    (h : (id, hello) ∈ s.pending) :
    Invariant { s with
      broker := assignController s.broker id hello
      pending := s.pending.filter fun p => p.1 ≠ id } := by
  have hp : ∀ p ∈ s.pending.filter (fun p => p.1 ≠ id), p ∈ s.pending :=
    fun p hp => (List.mem_filter.mp hp).1
  unfold assignController
  rw [clearStale_eq]
  simp only
  split
  · next ha =>
    refine invariant_controller hs (some id) _ s.claimed hp ?_
    rintro i hi
    cases hi
    obtain ⟨c, hc, hcid, hh, hrole⟩ := hs.pending (id, hello) h
    exact ⟨c, hc, hcid, hh, fun ho => absurd (hrole.symm.trans ho) ha.2⟩
  · exact invariant_controller hs _ _ s.claimed hp fun i hi => clearStale_eligible hs i hi

theorem invariant_message {s : System} (hs : Invariant s) {id seq : ℕ} :
    Invariant { s with broker := (s.broker.checkAndUpdateSeq id seq).1 } := by
  unfold BrokerState.checkAndUpdateSeq
  by_cases hp : s.broker.seqPasses id seq = true
  · rw [if_pos hp]
    refine invariant_update hs id _ (fun _ => rfl) (fun _ => rfl) (fun _ => rfl) ?_
    intro c hc hid hh
    obtain ⟨n, hn, h1⟩ := hs.seqs c hc hh
    have hf := find_eq hs.nodup hc
    rw [hid] at hf
    have hlt : n < seq := by simpa [BrokerState.seqPasses, hf, hn] using hp
    exact ⟨seq, rfl, by omega⟩
  · rw [if_neg hp]
    exact hs

theorem invariant_claim {s : System} (hs : Invariant s) {id : ℕ}
    (h : s.broker.isHandshaken id = true) :
    Invariant { s with
      broker := (claim s.broker id).1,
      claimed := if (claim s.broker id).2 then id :: s.claimed else s.claimed } := by
  obtain ⟨c, hc, hid, hh⟩ := isHandshaken_mem h
  unfold claim
  rw [clearStale_eq]
  simp only
  split
  · refine invariant_controller hs _ _ _ (fun p hp => hp) fun i hi => ?_
    obtain ⟨d, hd, k1, k2, k3⟩ := clearStale_eligible hs i hi
    exact ⟨d, hd, k1, k2, fun ho => List.mem_cons_of_mem _ (k3 ho)⟩
  · split
    · refine invariant_controller hs (some id) _ _ (fun p hp => hp) fun i hi => ?_
      cases hi
      exact ⟨c, hc, hid, hh, fun _ => List.mem_cons_self⟩
    · exact invariant_controller hs _ _ _ (fun p hp => hp) fun i hi => clearStale_eligible hs i hi

theorem invariant_release {s : System} (hs : Invariant s) {id : ℕ} :
    Invariant { s with broker := release s.broker id } := by
  unfold release
  split
  · exact invariant_controller hs none _ _ (fun p hp => hp) fun i hi => nomatch hi
  · exact hs

/-- The promoted client is a candidate, and the step condition makes it one that has said hello. -/
theorem promoted_eligible {s : System} {id i : ℕ} (hc : s.broker.isController id = true)
    (hp : promotesGreeted s (.cleanup id) = true)
    (hi : ((BrokerState.candidates (s.broker.clients.filter fun c => c.id ≠ id)).map
      ClientHandle.id).min? = some i) :
    ∃ c ∈ s.broker.clients.filter (fun c => c.id ≠ id), c.id = i ∧ c.handshaken = true ∧
      (c.requestedRole = .Observer → i ∈ s.claimed) := by
  obtain ⟨hmem, hmin⟩ := List.min?_eq_some_iff.mp hi
  obtain ⟨c, hcand, hcid⟩ := List.mem_map.mp hmem
  obtain ⟨hrest, hlive⟩ := List.mem_filter.mp hcand
  have hrole : c.requestedRole ≠ .Observer := by simp_all
  refine ⟨c, hrest, hcid, ?_, fun ho => absurd ho hrole⟩
  simp only [promotesGreeted, hc, Bool.not_true, Bool.false_or, List.all_eq_true] at hp
  rcases Bool.or_eq_true _ _ |>.mp (hp c hcand) with hh | hless
  · exact hh
  · obtain ⟨d, hd, hlt⟩ := List.any_eq_true.mp hless
    have hle := hmin d.id (List.mem_map_of_mem hd)
    have hlt' : d.id < c.id := by simpa using hlt
    omega

theorem invariant_cleanup {s : System} (hs : Invariant s) {id : ℕ} (hi : s.idle id = true)
    (hp : promotesGreeted s (.cleanup id) = true) :
    Invariant { s with broker := s.broker.removeAndPromote id } := by
  obtain ⟨-, hpend⟩ := idle_iff.mp hi
  have stays : ∀ c ∈ s.broker.clients, c.id ≠ id →
      c ∈ (s.broker.removeAndPromote id).clients := fun c hc hne =>
    List.mem_filter.mpr ⟨hc, by simpa using hne⟩
  have mem : ∀ c ∈ (s.broker.removeAndPromote id).clients, c ∈ s.broker.clients :=
    fun c hc => (List.mem_filter.mp hc).1
  refine ⟨distinct_removeAndPromote hs.toDistinct id, fun c hc => hs.seqs c (mem c hc), ?_, ?_⟩
  · intro p hp
    obtain ⟨c, hc, hcid, hrest⟩ := hs.pending p hp
    exact ⟨c, stays c hc (hcid ▸ hpend p hp), hcid, hrest⟩
  · intro i hc
    change (if s.broker.isController id then _ else s.broker.controllerId) = some i at hc
    split at hc
    · next hcon => exact promoted_eligible hcon hp hc
    · next hcon =>
      obtain ⟨c, hcm, hcid, hrest⟩ := hs.eligible i hc
      have hne : c.id ≠ id := by
        rintro rfl
        apply hcon
        rw [hcid]
        exact decide_eq_true hc
      exact ⟨c, stays c hcm hne, hcid, hrest⟩

/-- Every step but a promotion of a client that has not said hello keeps the invariant. -/
theorem invariant_step {s u : System} {step : BrokerStep} (hs : Invariant s)
    (hp : promotesGreeted s step = true) (h : s.step step = some u) : Invariant u := by
  cases System.stepped h with
  | connect hn => exact invariant_connect hs hn
  | recordHello hi hf => exact invariant_recordHello hs hi hf
  | assign hm => exact invariant_assign hs hm
  | message => exact invariant_message hs
  | claim hg => exact invariant_claim hs hg
  | release => exact invariant_release hs
  | die =>
    exact invariant_update hs _ _ (fun _ => rfl) (fun _ => rfl) (fun _ => rfl)
      fun c hc _ hh => hs.seqs c hc hh
  | cleanup hi => exact invariant_cleanup hs hi hp

def PromotesGreeted : System → Prop :=
  Reach (fun s => s = .initial) (fun s step u => promotesGreeted s step = true ∧ s.step step = some u)

theorem controller_eligible {s : System} (h : PromotesGreeted s) : Eligible s := by
  have hi : Invariant s := by
    refine Reach.invariant h ?_ fun s step u hs hstep => invariant_step hs hstep.1 hstep.2
    rintro _ rfl
    exact ⟨⟨List.nodup_nil, fun id hid => (nomatch hid)⟩, fun c hc => (nomatch hc),
      fun p hp => (nomatch hp), fun id hid => (nomatch hid)⟩
  exact hi.eligible

def autoHello : Hello := ⟨none, .Action, false⟩

/-- Two clients say hello, and the one in control leaves. -/
def greetedPromotion : List BrokerStep :=
  [.connect 1, .connect 2, .recordHello 1 autoHello, .assign 1 autoHello, .recordHello 2 autoHello,
    .assign 2 autoHello, .die 1, .cleanup 1]

def promoted : System :=
  { broker := ⟨[{ ClientHandle.new 2 with handshaken := true, lastSeq := some 1 }], some 2⟩,
    pending := [], seen := [2, 1], claimed := [] }

theorem controller_eligible_promoted : Eligible promoted :=
  controller_eligible (.foldlM_guarded (.init rfl) greetedPromotion rfl)

/-- The controller leaves while a second client has connected and not said hello. -/
def earlyPromotion : List BrokerStep :=
  [.connect 1, .recordHello 1 autoHello, .assign 1 autoHello, .connect 2, .cleanup 1]

/-- The second client controls the game without a hello. -/
theorem earlyPromotion_not_eligible :
    ¬∀ s, Reach (fun s => s = System.initial) (fun s step u => System.step s step = some u) s →
      Eligible s := by
  intro h
  have hr := h ⟨⟨[.new 2], some 2⟩, [], [2, 1], []⟩ (Reach.foldlM (.init rfl) earlyPromotion rfl)
  obtain ⟨c, hc, -, hh, -⟩ := hr 2 rfl
  cases List.mem_singleton.mp hc
  cases hh

end TuiTetris.AdapterBrokerControl
