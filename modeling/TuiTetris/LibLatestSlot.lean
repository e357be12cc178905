import Mathlib.Data.List.Pairwise

set_option autoImplicit false

/-!
# Slots that keep the last value sent

A writer replaces the value, and a reader takes it once. When every value is
published above those before it, what is read increases and the slot is newest,
however publishing and reading interleave.
-/
namespace TuiTetris.LibLatestSlot

variable {α : Type}

/-- The last value sent, and whether it is still to be taken. -/
structure Watch (α : Type) where
  value : Option α
  unseen : Bool

namespace Watch

def empty : Watch α := ⟨none, false⟩

def send (v : α) : Watch α := ⟨some v, true⟩

/-- The reader waits for a change, then takes the value and marks it as seen. -/
def take (w : Watch α) : Option (α × Watch α) :=
  if w.unseen then w.value.map fun v => (v, { w with unseen := false }) else none

theorem take_eq_some {w u : Watch α} {v : α} (h : w.take = some (v, u)) :
    w = .send v ∧ u = ⟨some v, false⟩ := by
  obtain ⟨value, unseen⟩ := w
  unfold take at h
  split at h
  · next hu =>
    obtain ⟨x, hx, he⟩ := Option.map_eq_some_iff.mp h
    cases he
    cases hx
    cases hu
    exact ⟨rfl, rfl⟩
  · cases h

/-- `k` is at most the key of the value, and below it while the value is still to be taken. -/
def Passed (key : α → ℕ) (w : Watch α) (k : ℕ) : Prop :=
  ∃ v, w.value = some v ∧ k ≤ key v ∧ (w.unseen = true → k < key v)

theorem Passed.send {key : α → ℕ} {v : α} {k : ℕ} (h : k < key v) : Passed key (.send v) k :=
  ⟨v, rfl, Nat.le_of_lt h, fun _ => h⟩

theorem Passed.take {key : α → ℕ} {w u : Watch α} {v : α} {k : ℕ} (h : w.take = some (v, u))
    (hk : Passed key w k) : k < key v ∧ Passed key u k := by
  obtain ⟨rfl, rfl⟩ := take_eq_some h
  obtain ⟨x, hx, -, hlt⟩ := hk
  cases hx
  have hk := hlt rfl
  exact ⟨hk, v, rfl, Nat.le_of_lt hk, fun hu => (nomatch hu)⟩

theorem Passed.taken {key : α → ℕ} {w u : Watch α} {v : α} (h : w.take = some (v, u)) :
    Passed key u (key v) := by
  obtain ⟨-, rfl⟩ := take_eq_some h
  exact ⟨v, rfl, Nat.le_refl _, fun hu => (nomatch hu)⟩

end Watch

structure Mailbox (α : Type) where
  slot : Watch α
  published : List α
  received : List α

namespace Mailbox

def empty : Mailbox α := ⟨.empty, [], []⟩

def publish (m : Mailbox α) (v : α) : Mailbox α :=
  { m with slot := .send v, published := m.published ++ [v] }

def read (m : Mailbox α) : Option (Mailbox α) :=
  m.slot.take.map fun r => { m with slot := r.2, received := m.received ++ [r.1] }

/-- Everything published or received is passed by the slot, and received in order. -/
structure Ordered (key : α → ℕ) (m : Mailbox α) : Prop where
  received : (m.received.map key).Pairwise (· < ·)
  passed : ∀ r ∈ m.received, m.slot.Passed key (key r)
  newest : ∀ p ∈ m.published, ∃ v, m.slot.value = some v ∧ key p ≤ key v
  slot : ∀ v, m.slot.value = some v → v ∈ m.published

theorem ordered_empty (key : α → ℕ) : Ordered key (empty : Mailbox α) :=
  ⟨List.Pairwise.nil, fun _ h => (nomatch h), fun _ h => (nomatch h), fun _ h => (nomatch h)⟩

theorem Ordered.publish {key : α → ℕ} {m : Mailbox α} (h : Ordered key m) {v : α}
    (hv : ∀ p ∈ m.published, key p < key v) : Ordered key (m.publish v) := by
  refine ⟨h.received, fun r hr => ?_, fun p hp => ⟨v, rfl, ?_⟩, fun x hx => ?_⟩
  · obtain ⟨x, hx, hle, -⟩ := h.passed r hr
    exact .send (Nat.lt_of_le_of_lt hle (hv x (h.slot x hx)))
  · rcases List.mem_append.mp hp with hp | hp
    · exact Nat.le_of_lt (hv p hp)
    · exact Nat.le_of_eq (congrArg key (List.mem_singleton.mp hp))
  · cases hx
    exact List.mem_append_right _ (List.mem_singleton_self _)

theorem Ordered.read {key : α → ℕ} {m n : Mailbox α} (h : Ordered key m) (hr : m.read = some n) :
    Ordered key n ∧ n.published = m.published := by
  obtain ⟨⟨v, u⟩, ht, rfl⟩ := Option.map_eq_some_iff.mp hr
  have hsend := (Watch.take_eq_some ht).1
  refine ⟨⟨?_, fun r hm => ?_, fun p hp => ?_, fun x hx => ?_⟩, rfl⟩
  · rw [List.map_append, List.pairwise_append]
    refine ⟨h.received, List.pairwise_singleton _ _, fun k hk l hl => ?_⟩
    obtain ⟨r, hm, rfl⟩ := List.mem_map.mp hk
    rw [List.mem_singleton.mp hl]
    exact ((h.passed r hm).take ht).1
  · rcases List.mem_append.mp hm with hm | hm
    · exact ((h.passed r hm).take ht).2
    · rw [List.mem_singleton.mp hm]
      exact .taken ht
  · obtain ⟨x, hx, hle⟩ := h.newest p hp
    rw [hsend] at hx
    cases hx
    exact ⟨v, by rw [(Watch.take_eq_some ht).2], hle⟩
  · rw [(Watch.take_eq_some ht).2] at hx
    cases hx
    exact h.slot v (by rw [hsend]; rfl)

end Mailbox
end TuiTetris.LibLatestSlot
