import Mathlib.Data.List.Basic

/-!
# Bounded broadcast channels

The receiving end of a broadcast channel of bounded capacity. A receiver that
falls behind loses the oldest messages; its next receive reports how many were
lost, and the one after it continues with the oldest message kept.
-/

namespace ReserveGrid.Support

structure Receiver (α : Type*) where
  queue : List α := []
  missed : ℕ := 0

inductive Received (α : Type*) where
  | message (a : α)
  | lagged (missed : ℕ)

namespace Receiver

variable {α : Type*}

/-- A message is sent on the channel. -/
def send (capacity : ℕ) (a : α) (r : Receiver α) : Receiver α :=
  if r.queue.length < capacity then { r with queue := r.queue ++ [a] }
  else ⟨r.queue.tail ++ [a], r.missed + 1⟩

/-- The next receive, when there is anything to receive. -/
def recv (r : Receiver α) : Option (Received α × Receiver α) :=
  if r.missed = 0 then
    match r.queue with
    | [] => none
    | a :: queue => some (.message a, { r with queue })
  else some (.lagged r.missed, { r with missed := 0 })

/-- A message is received from the front of the queue, and a report of loss
leaves the queue as it is. -/
theorem recv_cases {r r' : Receiver α} {received : Received α}
    (h : r.recv = some (received, r')) :
    (∃ a, received = .message a ∧ r.queue = a :: r'.queue) ∨
      (∃ n, received = .lagged n ∧ r'.queue = r.queue) := by
  unfold recv at h
  by_cases hmissed : r.missed = 0
  · rw [if_pos hmissed] at h
    split at h
    · cases h
    · rename_i a queue hqueue
      rw [Option.some.injEq, Prod.mk.injEq] at h
      obtain ⟨rfl, rfl⟩ := h
      exact Or.inl ⟨a, rfl, hqueue⟩
  · rw [if_neg hmissed, Option.some.injEq, Prod.mk.injEq] at h
    obtain ⟨rfl, rfl⟩ := h
    exact Or.inr ⟨r.missed, rfl, rfl⟩

end Receiver

end ReserveGrid.Support
