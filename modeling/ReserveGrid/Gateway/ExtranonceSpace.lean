import Mathlib.Data.List.Nodup
import ReserveGrid.Gateway.Channels
import ReserveGrid.Support.Run

/-!
# Search spaces

All handlers share one allocator of extranonce prefixes. A call checks whether
the allocator is exhausted, draws the next value of the counter and, when that
is the last one, marks the allocator as exhausted; calls of different handlers
interleave, and the check may see an old value of the mark. The counter has 32
bits, of which a prefix of two or three bytes keeps only the low ones, so such
prefixes come round again long before the counter is exhausted.
-/

namespace ReserveGrid.Gateway

open Support ExtranonceAllocator

/-! ## Prefixes -/

/-- How many values of the counter a prefix can tell apart. -/
def prefixSpace (prefixLen : ℕ) : ℕ := 256 ^ min prefixLen 4

theorem prefixOf_eq_iff {prefixLen : ℕ} {v w : UInt32} :
    prefixOf prefixLen v = prefixOf prefixLen w ↔
      v.toNat % prefixSpace prefixLen = w.toNat % prefixSpace prefixLen := by
  have hmin : min prefixLen 4 ≤ 4 := Nat.min_le_right _ _
  unfold prefixOf prefixSpace
  rw [take_leBytes hmin, take_leBytes hmin, ← leBytes_eq_iff]
  exact List.append_left_inj _

/-- The value of the counter that is drawn after `k` others. -/
def drawn (k : ℕ) : UInt32 := .ofNat (k + 1)

theorem drawn_mod (prefixLen k : ℕ) :
    (drawn k).toNat % prefixSpace prefixLen = (k + 1) % prefixSpace prefixLen := by
  have hval : (drawn k).toNat = (k + 1) % 2 ^ 32 := UInt32.toNat_ofNat'
  have hdvd : prefixSpace prefixLen ∣ 2 ^ 32 := by
    have hpow : (2 : ℕ) ^ 32 = 256 ^ 4 := rfl
    rw [hpow]
    exact Nat.pow_dvd_pow 256 (Nat.min_le_right _ _)
  rw [hval, Nat.mod_mod_of_dvd _ hdvd]

theorem drawn_ne_last {k : ℕ} (h : (k + 1) % 2 ^ 32 ≠ 2 ^ 32 - 1) :
    drawn k ≠ 0xffffffff := by
  intro heq
  have hval : (drawn k).toNat = (k + 1) % 2 ^ 32 := UInt32.toNat_ofNat'
  rw [heq] at hval
  exact h hval.symm

/-- The prefixes issued for the first `k` draws; the last value of the counter
is not issued. -/
def issuedAfter (prefixLen : ℕ) : ℕ → List Bytes
  | 0 => []
  | k + 1 =>
      issuedAfter prefixLen k ++
        if drawn k = 0xffffffff then [] else [prefixOf prefixLen (drawn k)]

theorem mem_issuedAfter {prefixLen k : ℕ} {p : Bytes} :
    p ∈ issuedAfter prefixLen k ↔
      ∃ i < k, drawn i ≠ 0xffffffff ∧ p = prefixOf prefixLen (drawn i) := by
  induction k with
  | zero => simp [issuedAfter]
  | succ k ih =>
      rw [issuedAfter, List.mem_append, ih]
      constructor
      · rintro (⟨i, hi, hne, rfl⟩ | hlast)
        · exact ⟨i, by omega, hne, rfl⟩
        · by_cases hne : drawn k = 0xffffffff
          · rw [if_pos hne] at hlast
            cases hlast
          · rw [if_neg hne, List.mem_singleton] at hlast
            exact ⟨k, by omega, hne, hlast⟩
      · rintro ⟨i, hi, hne, rfl⟩
        by_cases hik : i = k
        · subst hik
          rw [if_neg hne]
          exact Or.inr (List.mem_singleton_self _)
        · exact Or.inl ⟨i, by omega, hne, rfl⟩

theorem issuedAfter_mono (prefixLen : ℕ) {k l : ℕ} (h : k ≤ l) :
    issuedAfter prefixLen k <+: issuedAfter prefixLen l := by
  induction l, h using Nat.le_induction with
  | base => exact List.prefix_rfl
  | succ l _ ih => exact ih.trans (List.prefix_append _ _)

/-- The prefixes differ as long as there are no more draws than a prefix can
tell apart. -/
theorem nodup_issuedAfter_of_le {prefixLen k : ℕ} (h : k ≤ prefixSpace prefixLen) :
    (issuedAfter prefixLen k).Nodup := by
  induction k with
  | zero => exact List.nodup_nil
  | succ k ih =>
      rw [issuedAfter]
      by_cases hlast : drawn k = 0xffffffff
      · rw [if_pos hlast, List.append_nil]
        exact ih (by omega)
      rw [if_neg hlast]
      have hnew : prefixOf prefixLen (drawn k) ∉ issuedAfter prefixLen k := by
        intro hmem
        obtain ⟨i, hi, -, heq⟩ := mem_issuedAfter.mp hmem
        rw [prefixOf_eq_iff, drawn_mod, drawn_mod] at heq
        -- the two draws are a positive multiple of the space apart
        have hdvd : prefixSpace prefixLen ∣ (k + 1) - (i + 1) :=
          (Nat.modEq_iff_dvd' (by omega)).mp heq.symm
        have hle := Nat.le_of_dvd (by omega) hdvd
        omega
      exact (ih (by omega)).append (List.nodup_singleton _)
        (List.disjoint_singleton.mpr hnew)

/-- The first prefix comes again when the space is used up. -/
theorem not_nodup_issuedAfter {prefixLen k : ℕ} (h : prefixSpace prefixLen < k) :
    ¬ (issuedAfter prefixLen k).Nodup := by
  have hpos : 0 < prefixSpace prefixLen := Nat.pow_pos (by omega)
  have hlast : drawn (prefixSpace prefixLen) ≠ 0xffffffff := by
    have hcases : min prefixLen 4 = 0 ∨ min prefixLen 4 = 1 ∨ min prefixLen 4 = 2 ∨
        min prefixLen 4 = 3 ∨ min prefixLen 4 = 4 := by
      omega
    unfold prefixSpace
    rcases hcases with hmin | hmin | hmin | hmin | hmin
    all_goals
      rw [hmin]
      exact drawn_ne_last (by decide)
  have hmono := issuedAfter_mono prefixLen (Nat.succ_le_of_lt h)
  intro hnodup
  have hfirst : prefixOf prefixLen (drawn 0) ∈
      issuedAfter prefixLen (prefixSpace prefixLen) :=
    mem_issuedAfter.mpr ⟨0, hpos, drawn_ne_last (by decide), rfl⟩
  have hagain : prefixOf prefixLen (drawn (prefixSpace prefixLen)) =
      prefixOf prefixLen (drawn 0) := by
    rw [prefixOf_eq_iff, drawn_mod, drawn_mod, Nat.add_mod_left]
  have hsplit := hnodup.sublist hmono.sublist
  rw [issuedAfter, if_neg hlast, hagain] at hsplit
  exact List.disjoint_of_nodup_append hsplit hfirst (List.mem_singleton_self _)

theorem nodup_issuedAfter_iff (prefixLen k : ℕ) :
    (issuedAfter prefixLen k).Nodup ↔ k ≤ prefixSpace prefixLen := by
  constructor
  · intro h
    by_contra hlt
    exact not_nodup_issuedAfter (by omega) h
  · exact nodup_issuedAfter_of_le

/-! ## Coinbases -/

/-- No two of the prefixes can end up in the same coinbase: whatever halves the
job has, and whatever extranonces the two miners append to their prefixes. A
standard channel appends nothing. -/
def SearchesDisjoint (prefixes : List Bytes) : Prop :=
  prefixes.Pairwise fun p q => ∀ first own own' second : Bytes,
    first ++ (p ++ own) ++ second ≠ first ++ (q ++ own') ++ second

theorem searchesDisjoint_iff_nodup {prefixes : List Bytes} {n : ℕ}
    (hlength : ∀ p ∈ prefixes, p.length = n) :
    SearchesDisjoint prefixes ↔ prefixes.Nodup := by
  constructor
  · intro h
    refine h.imp ?_
    rintro p q hdisjoint rfl
    exact hdisjoint [] [] [] [] rfl
  · intro h
    refine List.Pairwise.imp_of_mem ?_ h
    intro p q hp hq hne first own own' second heq
    simp only [List.append_assoc, List.append_cancel_left_eq] at heq
    exact hne (List.append_inj_left heq ((hlength p hp).trans (hlength q hq).symm))

theorem length_of_mem_issuedAfter {prefixLen k : ℕ} {p : Bytes}
    (h : p ∈ issuedAfter prefixLen k) :
    p.length = prefixLen := by
  obtain ⟨i, -, -, rfl⟩ := mem_issuedAfter.mp h
  exact length_prefixOf _ _

/-! ## Calls of many handlers -/

/-- Where a handler's call of the allocator stands: not called, found not
exhausted, or in possession of the last value. -/
inductive CallAt
  | idle
  | checked
  | last
  deriving DecidableEq, Repr

/-- The allocator as the handlers share it, with the prefixes issued so far. -/
structure SharedAllocator where
  prefixLen : ℕ
  two_le : 2 ≤ prefixLen
  le_eight : prefixLen ≤ 8
  next : UInt32 := 1
  exhausted : Bool := false
  calls : ℕ → CallAt := fun _ => .idle
  issued : List Bytes := []

/-- The atomic operations of the calls. -/
inductive AllocatorOp
  | load (handler : ℕ) (seen : Bool)
  | fetchAdd (handler : ℕ)
  | store (handler : ℕ)
  deriving DecidableEq, Repr

namespace SharedAllocator

/-- The allocator at the start of the gateway. -/
def withPrefixLen (prefixLen : ℕ) (two_le : 2 ≤ prefixLen)
    (le_eight : prefixLen ≤ 8) : SharedAllocator :=
  { prefixLen, two_le, le_eight }

def setCall (handler : ℕ) (at' : CallAt) (s : SharedAllocator) : SharedAllocator :=
  { s with calls := Function.update s.calls handler at' }

/-- One atomic operation. The load is relaxed: it may still see that the
allocator is not exhausted when it is. -/
def step (s : SharedAllocator) : AllocatorOp → Option SharedAllocator
  | .load handler seen =>
      if s.calls handler = .idle ∧ (seen = true → s.exhausted = true) then
        -- a call that sees the mark returns at once
        if seen then some s else some (s.setCall handler .checked)
      else none
  | .fetchAdd handler =>
      if s.calls handler = .checked then
        let t := { s with next := s.next + 1 }
        if s.next = 0xffffffff then some (t.setCall handler .last)
        else
          some { t.setCall handler .idle with
            issued := s.issued ++ [prefixOf s.prefixLen s.next] }
      else none
  | .store handler =>
      if s.calls handler = .last then
        some { s.setCall handler .idle with exhausted := true }
      else none

end SharedAllocator

/-- How often the operations draw from the counter. -/
def draws : List AllocatorOp → ℕ
  | [] => 0
  | .fetchAdd _ :: ops => draws ops + 1
  | _ :: ops => draws ops

namespace SharedAllocator

/-- What an operation does. -/
theorem step_cases {s t : SharedAllocator} {op : AllocatorOp}
    (h : s.step op = some t) :
    (∃ handler seen, op = .load handler seen ∧ s.calls handler = .idle ∧
      (t = s ∨ t = s.setCall handler .checked)) ∨
    (∃ handler, op = .fetchAdd handler ∧ s.next = 0xffffffff ∧
      t = { s with next := s.next + 1 }.setCall handler .last) ∨
    (∃ handler, op = .fetchAdd handler ∧ s.next ≠ 0xffffffff ∧
      t = { { s with next := s.next + 1 }.setCall handler .idle with
        issued := s.issued ++ [prefixOf s.prefixLen s.next] }) ∨
    ∃ handler, op = .store handler ∧ s.calls handler = .last ∧
      t = { s.setCall handler .idle with exhausted := true } := by
  cases op with
  | load handler seen =>
      obtain ⟨henabled, h⟩ := Option.ite_none_right_eq_some.mp h
      left
      refine ⟨handler, seen, rfl, henabled.1, ?_⟩
      by_cases hseen : seen = true
      · rw [if_pos hseen, Option.some.injEq] at h
        exact Or.inl h.symm
      · rw [if_neg hseen, Option.some.injEq] at h
        exact Or.inr h.symm
  | fetchAdd handler =>
      obtain ⟨-, h⟩ := Option.ite_none_right_eq_some.mp h
      right
      by_cases hlast : s.next = 0xffffffff
      · rw [if_pos hlast, Option.some.injEq] at h
        exact Or.inl ⟨handler, rfl, hlast, h.symm⟩
      · rw [if_neg hlast, Option.some.injEq] at h
        exact Or.inr (Or.inl ⟨handler, rfl, hlast, h.symm⟩)
  | store handler =>
      obtain ⟨hcall, h⟩ := Option.ite_none_right_eq_some.mp h
      rw [Option.some.injEq] at h
      exact Or.inr (Or.inr (Or.inr ⟨handler, rfl, hcall, h.symm⟩))

/-- The allocator after `k` draws. -/
structure Drew (prefixLen k : ℕ) (s : SharedAllocator) : Prop where
  prefixLen_eq : s.prefixLen = prefixLen
  next_eq : s.next = drawn k
  issued_eq : s.issued = issuedAfter prefixLen k

theorem drawn_succ (k : ℕ) : drawn k + 1 = drawn (k + 1) := by
  unfold drawn
  exact (UInt32.ofNat_add (k + 1) 1).symm

/-- Only a draw changes the counter and what was issued. -/
theorem Drew.step {prefixLen k : ℕ} {s t : SharedAllocator} {op : AllocatorOp}
    (hs : s.Drew prefixLen k) (h : s.step op = some t) :
    t.Drew prefixLen (k + draws [op]) := by
  obtain ⟨handler, seen, rfl, -, rfl | rfl⟩ | ⟨handler, rfl, hlast, rfl⟩ |
    ⟨handler, rfl, hlast, rfl⟩ | ⟨handler, rfl, -, rfl⟩ := step_cases h
  · exact hs
  · exact ⟨hs.prefixLen_eq, hs.next_eq, hs.issued_eq⟩
  · have hnext : s.next + 1 = drawn (k + 1) := by
      rw [hs.next_eq, drawn_succ]
    have hissued : s.issued = issuedAfter prefixLen (k + 1) := by
      rw [hs.next_eq] at hlast
      rw [issuedAfter, if_pos hlast, List.append_nil, hs.issued_eq]
    exact ⟨hs.prefixLen_eq, hnext, hissued⟩
  · have hnext : s.next + 1 = drawn (k + 1) := by
      rw [hs.next_eq, drawn_succ]
    have hissued : s.issued ++ [prefixOf s.prefixLen s.next] =
        issuedAfter prefixLen (k + 1) := by
      rw [hs.next_eq] at hlast ⊢
      rw [issuedAfter, if_neg hlast, hs.issued_eq, hs.prefixLen_eq]
    exact ⟨hs.prefixLen_eq, hnext, hissued⟩
  · exact ⟨hs.prefixLen_eq, hs.next_eq, hs.issued_eq⟩

theorem draws_cons (op : AllocatorOp) (ops : List AllocatorOp) :
    draws (op :: ops) = draws [op] + draws ops := by
  cases op with
  | fetchAdd handler => exact Nat.add_comm _ _
  | load handler seen => exact (Nat.zero_add _).symm
  | store handler => exact (Nat.zero_add _).symm

/-- Whatever the order of the calls, the run has issued the prefixes of as many
draws as it made. -/
theorem Drew.run {prefixLen k : ℕ} {s t : SharedAllocator} {ops : List AllocatorOp}
    (hs : s.Drew prefixLen k) (hrun : run SharedAllocator.step s ops = some t) :
    t.Drew prefixLen (k + draws ops) := by
  induction ops generalizing s k with
  | nil =>
      cases hrun
      exact hs
  | cons op ops ih =>
      obtain ⟨u, hu, hrest⟩ := run_cons_eq_some.mp hrun
      rw [draws_cons, ← Nat.add_assoc]
      exact ih (hs.step hu) hrest

/-! ## Calls one after the other -/

/-- The allocator as a single handler sees it. -/
def alone (s : SharedAllocator) : ExtranonceAllocator where
  counter := ⟨s.next, s.exhausted⟩
  prefixLen := s.prefixLen
  two_le := s.two_le
  le_eight := s.le_eight

/-- The operations of a call that nothing interrupts. -/
def callOps (handler : ℕ) (s : SharedAllocator) : List AllocatorOp :=
  if s.exhausted then [.load handler true]
  else if s.next = 0xffffffff then
    [.load handler false, .fetchAdd handler, .store handler]
  else [.load handler false, .fetchAdd handler]

/-- A handler is idle again after its call. -/
theorem update_update_idle {handler : ℕ} {calls : ℕ → CallAt}
    (h : calls handler = .idle) (a : CallAt) :
    Function.update (Function.update calls handler a) handler .idle = calls := by
  rw [Function.update_idem, ← h, Function.update_eq_self]

/-- A call that draws another value than the last one issues its prefix. -/
theorem run_call {handler : ℕ} {s : SharedAllocator}
    (hidle : s.calls handler = .idle) (hlast : s.next ≠ 0xffffffff) :
    run step s [.load handler false, .fetchAdd handler] =
      some { s with
        next := s.next + 1
        issued := s.issued ++ [prefixOf s.prefixLen s.next] } := by
  simp [run_cons, step, setCall, hidle, hlast, update_update_idle hidle]

/-- A call that draws the last value marks the allocator as exhausted. -/
theorem run_call_last {handler : ℕ} {s : SharedAllocator}
    (hidle : s.calls handler = .idle) (hlast : s.next = 0xffffffff) :
    run step s [.load handler false, .fetchAdd handler, .store handler] =
      some { s with next := s.next + 1, exhausted := true } := by
  have hback := update_update_idle hidle .checked
  simp [run_cons, step, setCall, hidle, hlast] at hback ⊢

/-- A call that nothing interrupts is a call of the allocator. -/
theorem run_callOps {handler : ℕ} {s : SharedAllocator}
    (hidle : s.calls handler = .idle) :
    ∃ e t, run step s (s.callOps handler) = some t ∧ t.calls = s.calls ∧
      s.alone.allocate = (e, t.alone) ∧ t.issued = s.issued ++ e.toList := by
  by_cases hexhausted : s.exhausted = true
  · have hrun : run step s (s.callOps handler) = some s := by
      simp [callOps, hexhausted, run_cons, step, hidle]
    refine ⟨none, s, hrun, rfl, ?_, (List.append_nil _).symm⟩
    simp [alone, ExtranonceAllocator.allocate, Counter.allocate, hexhausted]
  by_cases hlast : s.next = 0xffffffff
  · have hrun := run_call_last hidle hlast
    rw [callOps, if_neg hexhausted, if_pos hlast]
    refine ⟨none, _, hrun, rfl, ?_, (List.append_nil _).symm⟩
    simp [alone, ExtranonceAllocator.allocate, Counter.allocate, hexhausted, hlast]
  · have hrun := run_call hidle hlast
    rw [callOps, if_neg hexhausted, if_neg hlast]
    refine ⟨some _, _, hrun, rfl, ?_, rfl⟩
    simp [alone, ExtranonceAllocator.allocate, Counter.allocate, hexhausted, hlast]

/-- `n` calls of the first handler, one after the other. -/
def sequentialCalls (n : ℕ) : List AllocatorOp :=
  (List.replicate n [.load 0 false, .fetchAdd 0]).flatten

theorem sequentialCalls_succ (n : ℕ) :
    sequentialCalls (n + 1) = sequentialCalls n ++ [.load 0 false, .fetchAdd 0] := by
  unfold sequentialCalls
  rw [List.replicate_succ', List.flatten_append, List.flatten_singleton]

/-- Calls one after the other all issue a prefix until the last value. -/
theorem run_sequentialCalls {prefixLen n : ℕ} {h₂ : 2 ≤ prefixLen}
    {h₈ : prefixLen ≤ 8} (hn : n < 2 ^ 32 - 1) :
    run step (withPrefixLen prefixLen h₂ h₈) (sequentialCalls n) =
      some { withPrefixLen prefixLen h₂ h₈ with
        next := drawn n, issued := issuedAfter prefixLen n } := by
  induction n with
  | zero => rfl
  | succ n ih =>
      have hlast : drawn n ≠ 0xffffffff := drawn_ne_last (by omega)
      rw [sequentialCalls_succ, run_append, ih (by omega), Option.bind_some,
        run_call (by rfl) hlast, drawn_succ, issuedAfter, if_neg hlast]
      rfl

/-! ## Every order of calls -/

/-- In every run of the handlers' calls, all prefixes issued differ and no two
of them can end up in the same coinbase, exactly as long as the counter was drawn
from no more often than a prefix can tell apart. -/
theorem searchesDisjoint_iff_draws_le (prefixLen : ℕ) (h₂ : 2 ≤ prefixLen)
    (h₈ : prefixLen ≤ 8) (ops : List AllocatorOp) (s : SharedAllocator)
    (hrun : run step (withPrefixLen prefixLen h₂ h₈) ops = some s) :
    (s.issued.Nodup ∧ SearchesDisjoint s.issued) ↔
      draws ops ≤ 256 ^ min prefixLen 4 := by
  have hstart : (withPrefixLen prefixLen h₂ h₈).Drew prefixLen 0 := ⟨rfl, rfl, rfl⟩
  have hissued := (hstart.run hrun).issued_eq
  rw [Nat.zero_add] at hissued
  rw [hissued, searchesDisjoint_iff_nodup (fun p => length_of_mem_issuedAfter),
    and_self, nodup_issuedAfter_iff]
  rfl

/-- Two handlers check before either draws. -/
theorem searchesDisjoint_two_handlers :
    let ops : List AllocatorOp :=
      [.load 0 false, .load 1 false, .fetchAdd 1, .fetchAdd 0]
    ∃ s, run step (withPrefixLen 2 (by decide) (by decide)) ops = some s ∧
      s.issued = [[1, 0], [2, 0]] ∧ draws ops ≤ 256 ^ min 2 4 ∧
      s.issued.Nodup ∧ SearchesDisjoint s.issued := by
  intro ops
  refine ⟨_, rfl, rfl, by decide, ?_⟩
  exact (searchesDisjoint_iff_draws_le 2 (by decide) (by decide) ops _ rfl).mpr
    (by decide)

/-- With two bytes, the prefix of the first channel is issued again for the
65536th after it, when the allocator is far from exhausted. -/
theorem not_searchesDisjoint_two_bytes :
    ∃ s, run step (withPrefixLen 2 (by decide) (by decide)) (sequentialCalls 65537) =
        some s ∧
      s.exhausted = false ∧ ¬ s.issued.Nodup ∧ ¬ SearchesDisjoint s.issued := by
  have hrepeat : ¬ (issuedAfter 2 65537).Nodup :=
    not_nodup_issuedAfter (by decide)
  refine ⟨_, run_sequentialCalls (by decide), rfl, hrepeat, ?_⟩
  exact mt (searchesDisjoint_iff_nodup fun p => length_of_mem_issuedAfter).mp hrepeat

end SharedAllocator

end ReserveGrid.Gateway
