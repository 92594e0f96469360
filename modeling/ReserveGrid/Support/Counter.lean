import Mathlib.Data.List.Basic

/-!
# Counters that do not wrap around

A 32-bit counter that issues every value below its maximum once, in order, and
from then on refuses.
-/

namespace ReserveGrid.Support

structure Counter where
  next : UInt32 := 1
  exhausted : Bool := false
  deriving DecidableEq, Repr

namespace Counter

/-- The next value, unless the counter is exhausted. The last value is not
issued: reaching it exhausts the counter. -/
def allocate (c : Counter) : Option UInt32 × Counter :=
  if c.exhausted then (none, c)
  else if c.next = 0xffffffff then (none, ⟨c.next + 1, true⟩)
  else (some c.next, { c with next := c.next + 1 })

/-- The counter has still to reach every value it will issue: those issued so
far lie below it. -/
def Above (c : Counter) (issued : List UInt32) : Prop :=
  c.exhausted = false → ∀ id ∈ issued, id < c.next

theorem allocate_eq_some {c c' : Counter} {id : UInt32}
    (h : c.allocate = (some id, c')) :
    c.exhausted = false ∧ c.next ≠ 0xffffffff ∧ id = c.next ∧
      c' = { c with next := c.next + 1 } := by
  unfold allocate at h
  by_cases hexhausted : c.exhausted = true
  · rw [if_pos hexhausted] at h
    cases h
  · rw [if_neg hexhausted] at h
    by_cases hlast : c.next = 0xffffffff
    · rw [if_pos hlast] at h
      cases h
    · rw [if_neg hlast, Prod.mk.injEq, Option.some.injEq] at h
      exact ⟨by simpa using hexhausted, hlast, h.1.symm, h.2.symm⟩

theorem allocate_eq_none {c c' : Counter} (h : c.allocate = (none, c')) :
    c'.exhausted = true := by
  unfold allocate at h
  by_cases hexhausted : c.exhausted = true
  · rw [if_pos hexhausted, Prod.mk.injEq] at h
    rw [← h.2]
    exact hexhausted
  · rw [if_neg hexhausted] at h
    by_cases hlast : c.next = 0xffffffff
    · rw [if_pos hlast, Prod.mk.injEq] at h
      rw [← h.2]
    · rw [if_neg hlast] at h
      cases h

theorem lt_add_one_of_ne_last {n : UInt32} (h : n ≠ 0xffffffff) : n < n + 1 := by
  have hne : n.toNat ≠ 2 ^ 32 - 1 := by
    intro heq
    exact h (UInt32.toNat_inj.mp heq)
  have hlt : n.toNat < 2 ^ 32 := n.toNat_lt
  rw [UInt32.lt_iff_toNat_lt, UInt32.toNat_add]
  change n.toNat < (n.toNat + 1) % 2 ^ 32
  rw [Nat.mod_eq_of_lt (by omega)]
  omega

/-- An issued value is above those issued before. -/
theorem Above.lt_of_allocate {c c' : Counter} {issued : List UInt32} {id : UInt32}
    (habove : c.Above issued) (h : c.allocate = (some id, c')) :
    ∀ old ∈ issued, old < id := by
  obtain ⟨hlive, -, rfl, -⟩ := allocate_eq_some h
  exact habove hlive

theorem Above.not_mem {c c' : Counter} {issued : List UInt32} {id : UInt32}
    (habove : c.Above issued) (h : c.allocate = (some id, c')) :
    id ∉ issued :=
  fun hmem => UInt32.lt_irrefl _ (habove.lt_of_allocate h id hmem)

theorem Above.allocate_some {c c' : Counter} {issued : List UInt32} {id : UInt32}
    (habove : c.Above issued) (h : c.allocate = (some id, c')) :
    c'.Above (id :: issued) := by
  obtain ⟨hlive, hlast, rfl, rfl⟩ := allocate_eq_some h
  have hstep := lt_add_one_of_ne_last hlast
  intro _ id hid
  rcases List.mem_cons.mp hid with rfl | hid
  · exact hstep
  · exact UInt32.lt_trans (habove hlive id hid) hstep

theorem Above.allocate_none {c c' : Counter} {issued : List UInt32}
    (h : c.allocate = (none, c')) :
    c'.Above issued := by
  intro hlive
  rw [allocate_eq_none h] at hlive
  cases hlive

/-- Asking for a value keeps the issued ones below the counter. -/
theorem Above.allocate {c : Counter} {issued : List UInt32} (habove : c.Above issued) :
    c.allocate.2.Above issued := by
  cases halloc : c.allocate with
  | mk value c' =>
  cases value with
  | none => exact Above.allocate_none halloc
  | some value =>
      intro hlive id hid
      exact habove.allocate_some halloc hlive id (List.mem_cons_of_mem _ hid)

/-- How many values the counter has still to issue. -/
def left (c : Counter) : ℕ :=
  if c.exhausted then 0 else 0xffffffff - c.next.toNat

/-- A counter that has values left issues one of them. -/
theorem allocate_of_left {c : Counter} (hleft : 0 < c.left) :
    ∃ id c', c.allocate = (some id, c') ∧ c'.left + 1 = c.left := by
  unfold left at hleft
  split at hleft
  · exact absurd hleft (Nat.lt_irrefl 0)
  · rename_i hlive
    have hlast : c.next ≠ 0xffffffff := by
      intro heq
      rw [heq] at hleft
      exact absurd hleft (by decide)
    refine ⟨c.next, { c with next := c.next + 1 }, ?_, ?_⟩
    · rw [allocate, if_neg hlive, if_neg hlast]
    · have hnext : (c.next + 1).toNat = c.next.toNat + 1 := by
        rw [UInt32.toNat_add]
        change (c.next.toNat + 1) % 2 ^ 32 = _
        omega
      unfold left
      rw [if_neg hlive, if_neg hlive, hnext]
      omega

end Counter

end ReserveGrid.Support
