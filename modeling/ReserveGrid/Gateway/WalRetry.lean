import ReserveGrid.Gateway.Wal
import ReserveGrid.Support.CappedMap

/-!
# Retrying a completion

`mark_completed` takes the shares out of the index before the append that may
fail. A second call for the same batch then finds nothing pending, and
remembers as early the shares that the first one has closed. The result says
exactly when the second call leaves what it would have left alone.
-/

namespace ReserveGrid.Gateway

open Support Support.Pairing

/-! ## The failed call and its retry -/

/-- An append that failed with nothing written: the clocks of its call, and
whether its bytes stay in the writer's buffer, ahead of the next append. -/
structure FailedAppend where
  now : UInt64
  arrived : ℕ
  buffered : Bool

namespace ShareWal

/-- A `mark_completed` whose append fails: the index, which has changed, and
the bytes in the writer's buffer. -/
def failCompleted (json : RecordJson) (wal : ShareWal) (failed : FailedAppend)
    (shares : List Key) : ShareWal × Bytes :=
  (wal.completeBatch failed.arrived shares,
    if failed.buffered then
      json.appendRecords (completedRecords failed.now shares)
    else [])

/-- The shares of a batch that the call remembers as early if there is room:
those that are not pending, and those that the batch completes again. -/
def newlyEarly (wal : ShareWal) (shares : List Key) : Finset Key :=
  shares.toFinset.filter fun k =>
    k ∉ wal.completedEarly ∧ (k ∉ wal.pending ∨ 2 ≤ shares.count k)

/-- The batch completes a pending share once, so the first call closes it. -/
def ClosesShare (wal : ShareWal) (shares : List Key) : Prop :=
  ∃ k ∈ shares, k ∈ wal.pending ∧ shares.count k = 1

/-- The early completions have no room for those of the batch. -/
def FillsUp (wal : ShareWal) (shares : List Key) : Prop :=
  earlyCompletionCap ≤
    wal.completedEarly.keys.length + (wal.newlyEarly shares).card

instance (wal : ShareWal) (shares : List Key) :
    Decidable (wal.ClosesShare shares) :=
  inferInstanceAs (Decidable (∃ k ∈ shares, _ ∧ _))

instance (wal : ShareWal) (shares : List Key) :
    Decidable (wal.FillsUp shares) :=
  inferInstanceAs (Decidable (_ ≤ _))

/-- What the index was before both calls, and the clocks, make the retry
harmless: what a call remembers is too old for the compaction it runs, or the
first call has filled the early completions, or it has closed no share. -/
def RetryHarmless (wal : ShareWal) (failed : FailedAppend) (arrived : ℕ)
    (env : CompactionEnv) (shares : List Key) : Prop :=
  if (wal.noteCompleted shares.length).compactionDue then
    earlyCompletionTtl ≤ env.now - arrived ∨
      if wal.FillsUp shares then
        earlyCompletionCap ≤ wal.completedEarly.keys.length ∨
          env.now - failed.arrived < earlyCompletionTtl
      else ¬ wal.ClosesShare shares
  else wal.FillsUp shares ∨ ¬ wal.ClosesShare shares

instance (wal : ShareWal) (failed : FailedAppend) (arrived : ℕ)
    (env : CompactionEnv) (shares : List Key) :
    Decidable (wal.RetryHarmless failed arrived env shares) := by
  unfold RetryHarmless
  infer_instance

end ShareWal

namespace WalState

/-- A call whose append fails, and the same call again. -/
def retried (json : RecordJson) (s : WalState) (failed : FailedAppend)
    (now : UInt64) (arrived : ℕ) (env : CompactionEnv) (shares : List Key) :
    WalState :=
  let r := s.wal.failCompleted json failed shares
  WalState.apply json ⟨r.1, s.file ++ r.2⟩
    (.markCompleted now arrived env shares)

/-- The same pending index, the same early completions and the same replay. -/
structure Same (json : RecordJson) (s t : WalState) : Prop where
  pending : s.wal.pending = t.wal.pending
  early : ∀ k, k ∈ s.wal.completedEarly ↔ k ∈ t.wal.completedEarly
  replay : readPendingIndex json s.file = readPendingIndex json t.file

end WalState

/-! ## One pass over a batch -/

namespace ShareWal

/-- The completions of a batch that find nothing pending, in order. -/
def unmatched (pending : HashMap Key UInt64) : List Key → List Key
  | [] => []
  | k :: ks =>
      if k ∈ pending then unmatched (pending.erase k) ks
      else k :: unmatched pending ks

theorem mem_unmatched {pending : HashMap Key UInt64} {shares : List Key}
    {k : Key} :
    k ∈ unmatched pending shares ↔
      k ∈ shares ∧ (k ∉ pending ∨ 2 ≤ shares.count k) := by
  induction shares generalizing pending with
  | nil => simp [unmatched]
  | cons j ks ih =>
      unfold unmatched
      split
      · rename_i hj
        rw [ih, AList.mem_erase, List.mem_cons]
        by_cases hk : k = j
        · subst hk
          have hcount := List.count_pos_iff (a := k) (l := ks)
          rw [List.count_cons_self]
          simp only [ne_eq, not_true, not_false_eq_true, true_or,
            and_true, true_and, hj, false_or]
          rw [← hcount]
          omega
        · rw [List.count_cons_of_ne (Ne.symm hk)]
          simp [hk]
      · rename_i hj
        rw [List.mem_cons, ih, List.mem_cons]
        by_cases hk : k = j
        · subst hk
          simp [hj]
        · rw [List.count_cons_of_ne (Ne.symm hk)]
          simp [hk]

theorem unmatched_of_disjoint {pending : HashMap Key UInt64}
    {shares : List Key} (h : ∀ k ∈ shares, k ∉ pending) :
    unmatched pending shares = shares := by
  induction shares with
  | nil => rfl
  | cons k ks ih =>
      rw [unmatched, if_neg (h k List.mem_cons_self),
        ih fun j hj => h j (List.mem_cons_of_mem k hj)]

/-- A pass erases the shares from the pending index and sets the unmatched ones
among the early completions. -/
theorem completeBatch_eq (wal : ShareWal) (arrived : ℕ) (shares : List Key) :
    wal.completeBatch arrived shares =
      { wal with
        pending := wal.pending.eraseAll shares
        completedEarly := wal.completedEarly.insertAllBelow earlyCompletionCap
          arrived (unmatched wal.pending shares) } := by
  induction shares generalizing wal with
  | nil => rfl
  | cons k ks ih =>
      change (wal.completeShare arrived k).completeBatch arrived ks = _
      rw [ih, unmatched]
      by_cases hk : k ∈ wal.pending
      · rw [completeShare, if_pos hk, if_pos hk]
        rfl
      · have herase : wal.pending.eraseAll (k :: ks) = wal.pending.eraseAll ks := by
          change HashMap.eraseAll (wal.pending.erase k) ks = _
          rw [HashMap.erase_of_not_mem hk]
        rw [completeShare, if_neg hk, if_neg hk, herase]
        by_cases hroom : wal.completedEarly.keys.length < earlyCompletionCap
        · rw [if_pos hroom, HashMap.insertAllBelow_cons_of_room hroom]
        · have hfull := Nat.not_lt.mp hroom
          rw [if_neg hroom, HashMap.insertAllBelow_of_full hfull,
            HashMap.insertAllBelow_of_full hfull]

/-- A pass counts nothing towards the next compaction. -/
theorem compactionDue_completeBatch (wal : ShareWal) (arrived : ℕ)
    (shares : List Key) (n : ℕ) :
    ((wal.completeBatch arrived shares).noteCompleted n).compactionDue =
      (wal.noteCompleted n).compactionDue := by
  rw [completeBatch_eq]
  rfl

theorem newlyEarly_eq (wal : ShareWal) (shares : List Key) :
    wal.newlyEarly shares =
      wal.completedEarly.fresh (unmatched wal.pending shares) := by
  ext k
  rw [newlyEarly, Finset.mem_filter, List.mem_toFinset, HashMap.mem_fresh,
    mem_unmatched]
  tauto

/-! ## The early completions after both calls -/

variable {wal : ShareWal} {shares : List Key} {first second : ℕ}

/-- The early completions after one call. -/
def earlyOnce (wal : ShareWal) (arrived : ℕ) (shares : List Key) :
    HashMap Key ℕ :=
  (wal.completeBatch arrived shares).completedEarly

/-- The early completions after two calls. -/
def earlyTwice (wal : ShareWal) (first second : ℕ) (shares : List Key) :
    HashMap Key ℕ :=
  ((wal.completeBatch first shares).completeBatch second shares).completedEarly

theorem earlyOnce_eq (wal : ShareWal) (arrived : ℕ) (shares : List Key) :
    wal.earlyOnce arrived shares =
      wal.completedEarly.insertAllBelow earlyCompletionCap arrived
        (unmatched wal.pending shares) := by
  rw [earlyOnce, completeBatch_eq]

theorem earlyTwice_eq (wal : ShareWal) (first second : ℕ) (shares : List Key) :
    wal.earlyTwice first second shares =
      (wal.earlyOnce first shares).insertAllBelow earlyCompletionCap second
        shares := by
  have hnone : ∀ k ∈ shares, k ∉ wal.pending.eraseAll shares :=
    fun _ hk hmem => (HashMap.mem_eraseAll.mp hmem).2 hk
  rw [earlyTwice, earlyOnce, completeBatch_eq wal, completeBatch_eq,
    unmatched_of_disjoint hnone]

theorem fillsUp_iff :
    wal.FillsUp shares ↔ earlyCompletionCap ≤ wal.completedEarly.keys.length +
      (wal.completedEarly.fresh (unmatched wal.pending shares)).card := by
  rw [FillsUp, newlyEarly_eq]

/-- When the first call has filled the early completions, the second one leaves
them. -/
theorem earlyTwice_of_fillsUp (h : wal.FillsUp shares) :
    wal.earlyTwice first second shares = wal.earlyOnce first shares := by
  rw [earlyTwice_eq, earlyOnce_eq]
  exact HashMap.insertAllBelow_twice_of_full (fillsUp_iff.mp h)

theorem setAlike_earlyOnce (wal : ShareWal) (first second : ℕ)
    (shares : List Key) :
    HashMap.SetAlike first second wal.completedEarly
      (wal.earlyOnce first shares) (wal.earlyOnce second shares) := by
  rw [earlyOnce_eq, earlyOnce_eq]
  exact HashMap.setAlike_insertAllBelow _ _ _ _ _

theorem room_of_not_fillsUp (h : ¬ wal.FillsUp shares) :
    wal.completedEarly.keys.length +
      (wal.completedEarly.fresh (unmatched wal.pending shares)).card <
        earlyCompletionCap :=
  Nat.lt_of_not_le fun hfull => h (fillsUp_iff.mpr hfull)

/-- With room to spare and no share closed by the first call, the second one
does what it would have done alone. -/
theorem lookup_earlyTwice (hroom : ¬ wal.FillsUp shares)
    (hcloses : ¬ wal.ClosesShare shares) (k : Key) :
    (wal.earlyTwice first second shares).lookup k =
      (wal.earlyOnce second shares).lookup k := by
  rw [earlyTwice_eq, earlyOnce_eq, earlyOnce_eq]
  refine HashMap.lookup_insertAllBelow_twice (room_of_not_fillsUp hroom) ?_ k
  intro j
  rw [mem_unmatched]
  refine ⟨fun hj => ⟨hj, ?_⟩, And.left⟩
  by_contra hno
  rw [not_or, not_not, Nat.not_le] at hno
  have hpos := List.count_pos_iff.mpr hj
  exact hcloses ⟨j, hj, hno.1, by omega⟩

/-- With room to spare, a share closed by the first call is remembered by the
second one, if it was not among the early completions too. -/
theorem exists_lookup_earlyTwice (hroom : ¬ wal.FillsUp shares)
    (hdisjoint : ∀ k ∈ wal.pending, k ∉ wal.completedEarly)
    (hcloses : wal.ClosesShare shares) :
    ∃ k, k ∉ wal.earlyOnce second shares ∧
      (wal.earlyTwice first second shares).lookup k = some second := by
  rw [earlyTwice_eq, earlyOnce_eq, earlyOnce_eq]
  refine HashMap.exists_lookup_insertAllBelow_twice (room_of_not_fillsUp hroom) ?_
  obtain ⟨k, hk, hpending, hcount⟩ := hcloses
  refine ⟨k, hk, hdisjoint k hpending, ?_⟩
  rw [mem_unmatched, hcount]
  rintro ⟨-, hno | htwo⟩
  · exact hno hpending
  · omega

/-- Without a compaction the retry is harmless when the first call has filled
the early completions or has closed no share. -/
theorem mem_earlyTwice_iff
    (hdisjoint : ∀ k ∈ wal.pending, k ∉ wal.completedEarly) :
    (∀ k, k ∈ wal.earlyTwice first second shares ↔
        k ∈ wal.earlyOnce second shares) ↔
      wal.FillsUp shares ∨ ¬ wal.ClosesShare shares := by
  constructor
  · intro hsame
    by_contra hno
    rw [not_or, not_not] at hno
    obtain ⟨k, hk, hlookup⟩ :=
      exists_lookup_earlyTwice hno.1
        hdisjoint hno.2
    apply hk
    rw [← hsame k, ← AList.lookup_isSome, hlookup]
    rfl
  · intro h k
    by_cases hfull : wal.FillsUp shares
    · rw [earlyTwice_of_fillsUp hfull]
      exact (wal.setAlike_earlyOnce first second shares).mem_iff k
    · rw [← AList.lookup_isSome,
        lookup_earlyTwice hfull (h.resolve_left hfull), AList.lookup_isSome]

/-- What a compaction at `now` keeps of the early completions. -/
def keptAt (now : ℕ) (early : HashMap Key ℕ) : HashMap Key ℕ :=
  early.retain fun _ completedAt => now - completedAt < earlyCompletionTtl

theorem mem_keptAt {now : ℕ} {early : HashMap Key ℕ} {k : Key} :
    k ∈ keptAt now early ↔
      ∃ t, early.lookup k = some t ∧ now - t < earlyCompletionTtl := by
  rw [keptAt, HashMap.mem_retain_iff]
  simp only [decide_eq_true_eq]

/-- Maps set alike are kept alike when both instants are kept or neither is. -/
theorem keptAt_of_setAlike {now : ℕ} {m a b : HashMap Key ℕ}
    (h : HashMap.SetAlike first second m a b)
    (hage : now - first < earlyCompletionTtl ↔ now - second < earlyCompletionTtl)
    (k : Key) :
    k ∈ keptAt now a ↔ k ∈ keptAt now b := by
  rw [mem_keptAt, mem_keptAt]
  rcases h.lookup k with ⟨ha, hb⟩ | ⟨ha, hb⟩
  · rw [ha, hb]
  · simp only [ha, hb, Option.some.injEq, exists_eq_left']
    exact hage

/-- A compaction that is late enough forgets what either call remembers. -/
theorem keptAt_of_old {now : ℕ}
    (hdisjoint : ∀ k ∈ wal.pending, k ∉ wal.completedEarly)
    (hfirst : earlyCompletionTtl ≤ now - first)
    (hsecond : earlyCompletionTtl ≤ now - second) (k : Key) :
    k ∈ keptAt now (wal.earlyTwice first second shares) ↔
      k ∈ keptAt now (wal.earlyOnce second shares) := by
  have halike := wal.setAlike_earlyOnce first second shares
  by_cases hfull : wal.FillsUp shares
  · rw [earlyTwice_of_fillsUp hfull]
    refine keptAt_of_setAlike halike ?_ k
    exact ⟨fun h => absurd h (Nat.not_lt.mpr hfirst),
      fun h => absurd h (Nat.not_lt.mpr hsecond)⟩
  have htwice : (k ∈ shares ∧
      (wal.earlyTwice first second shares).lookup k = some second) ∨
        (wal.earlyTwice first second shares).lookup k =
          (wal.earlyOnce first shares).lookup k := by
    rw [earlyTwice_eq]
    exact HashMap.lookup_insertAllBelow_cases _ _ _ _ _
  rw [mem_keptAt, mem_keptAt]
  constructor
  · rintro ⟨t, ht, hyoung⟩
    rcases htwice with ⟨-, h⟩ | h
    · rw [h, Option.some.injEq] at ht
      omega
    · rcases halike.lookup k with ⟨hone, hsame⟩ | ⟨hone, -⟩
      · exact ⟨t, hsame.trans (hone.symm.trans (h.symm.trans ht)), hyoung⟩
      · rw [h, hone, Option.some.injEq] at ht
        omega
  · rintro ⟨t, ht, hyoung⟩
    rcases halike.lookup k with ⟨hone, hsame⟩ | ⟨-, hset⟩
    · rcases htwice with ⟨hk, -⟩ | h
      · -- A share of the batch that was early before is set by every call.
        have hearly : k ∈ wal.completedEarly := by
          rw [← AList.lookup_isSome, ← hsame, ht]
          rfl
        have hunmatched : k ∈ unmatched wal.pending shares :=
          mem_unmatched.mpr ⟨hk, .inl fun hp => hdisjoint k hp hearly⟩
        rw [earlyOnce_eq, HashMap.lookup_insertAllBelow_of_room
          (room_of_not_fillsUp hfull), if_pos hunmatched,
          Option.some.injEq] at ht
        omega
      · exact ⟨t, h.trans (hone.trans (hsame.symm.trans ht)), hyoung⟩
    · rw [hset, Option.some.injEq] at ht
      omega

/-- When the first call has filled the early completions, what the compaction
keeps depends on the age of its instant. -/
theorem keptAt_iff_of_fillsUp {now : ℕ} (hfull : wal.FillsUp shares)
    (hyoung : now - second < earlyCompletionTtl) :
    (∀ k, k ∈ keptAt now (wal.earlyTwice first second shares) ↔
        k ∈ keptAt now (wal.earlyOnce second shares)) ↔
      earlyCompletionCap ≤ wal.completedEarly.keys.length ∨
        now - first < earlyCompletionTtl := by
  rw [earlyTwice_of_fillsUp hfull]
  have halike := wal.setAlike_earlyOnce first second shares
  constructor
  · intro hsame
    by_contra hno
    rw [not_or, Nat.not_le, Nat.not_lt] at hno
    have hfresh : ∃ k ∈ unmatched wal.pending shares, k ∉ wal.completedEarly := by
      have hpos : 0 < (wal.completedEarly.fresh
          (unmatched wal.pending shares)).card := by
        have := fillsUp_iff.mp hfull
        omega
      obtain ⟨k, hk⟩ := Finset.card_pos.mp hpos
      exact ⟨k, HashMap.mem_fresh.mp hk⟩
    obtain ⟨k, -, hnot, hfirst⟩ := HashMap.exists_fresh_lookup hno.1 hfresh
    rw [← earlyOnce_eq wal first] at hfirst
    have hsecond : (wal.earlyOnce second shares).lookup k = some second := by
      rcases halike.lookup k with ⟨hold, -⟩ | ⟨-, h⟩
      · have hmem : k ∈ wal.completedEarly := by
          rw [← AList.lookup_isSome, ← hold, hfirst]
          rfl
        exact absurd hmem hnot
      · exact h
    obtain ⟨t, ht, hage⟩ :=
      mem_keptAt.mp ((hsame k).mpr (mem_keptAt.mpr ⟨second, hsecond, hyoung⟩))
    rw [hfirst, Option.some.injEq] at ht
    omega
  · rintro (hcap | hage) k
    · rw [earlyOnce_eq, earlyOnce_eq, HashMap.insertAllBelow_of_full hcap,
        HashMap.insertAllBelow_of_full hcap]
    · exact keptAt_of_setAlike halike ⟨fun _ => hyoung, fun _ => hage⟩ k

/-- With a compaction, the ages of the instants decide too. -/
theorem mem_keptAt_earlyTwice_iff {now : ℕ}
    (hdisjoint : ∀ k ∈ wal.pending, k ∉ wal.completedEarly)
    (hclock : first ≤ second) :
    (∀ k, k ∈ keptAt now (wal.earlyTwice first second shares) ↔
        k ∈ keptAt now (wal.earlyOnce second shares)) ↔
      earlyCompletionTtl ≤ now - second ∨
        if wal.FillsUp shares then
          earlyCompletionCap ≤ wal.completedEarly.keys.length ∨
            now - first < earlyCompletionTtl
        else ¬ wal.ClosesShare shares := by
  by_cases hold : earlyCompletionTtl ≤ now - second
  · exact iff_of_true (keptAt_of_old hdisjoint (by omega) hold) (.inl hold)
  rw [or_iff_right hold]
  have hyoung := Nat.lt_of_not_le hold
  split
  · rename_i hfull
    exact keptAt_iff_of_fillsUp hfull hyoung
  · rename_i hroom
    constructor
    · intro hsame hcloses
      obtain ⟨k, hk, hlookup⟩ :=
        exists_lookup_earlyTwice hroom hdisjoint hcloses
      obtain ⟨t, ht, -⟩ :=
        mem_keptAt.mp ((hsame k).mp (mem_keptAt.mpr ⟨second, hlookup, hyoung⟩))
      apply hk
      rw [← AList.lookup_isSome, ht]
      rfl
    · intro hcloses k
      rw [mem_keptAt, mem_keptAt, lookup_earlyTwice hroom hcloses]

end ShareWal

/-! ## The replay after a call -/

section Replay

variable {json : RecordJson}

/-- Completed records erase their shares from the index of the replay. -/
theorem foldl_replayRecord_completedRecords (idx : ReplayIndex) (now : UInt64)
    (shares : List Key) :
    ((ShareWal.completedRecords now shares).foldl replayRecord idx).1 =
      HashMap.eraseAll idx.1 shares := by
  induction shares generalizing idx with
  | nil => rfl
  | cons k ks ih =>
      have hfirst : (replayRecord idx (.ofKey .completed now k)).1 =
          idx.1.erase k := by
        by_cases hk : k ∈ idx.1
        · simp [replayRecord, WalRecord.ofKey, WalRecord.key, hk]
        · simp [replayRecord, WalRecord.ofKey, WalRecord.key, hk,
            HashMap.erase_of_not_mem]
      change ((ShareWal.completedRecords now ks).foldl replayRecord
        (replayRecord idx (.ofKey .completed now k))).1 = _
      rw [ih, hfirst]
      rfl

theorem readPendingIndex_append_completedRecords (hjson : json.Lawful)
    {file : Bytes} (hfile : Terminated file) (now : UInt64)
    (shares : List Key) :
    readPendingIndex json
        (file ++ json.appendRecords (ShareWal.completedRecords now shares)) =
      (readPendingIndex json file).eraseAll shares := by
  rw [readPendingIndex, RecordJson.records_append hfile,
    hjson.records_appendRecords, List.foldl_append,
    foldl_replayRecord_completedRecords]
  rfl

/-- The pending records that a compaction writes. -/
def snapshotRecords (pending : HashMap Key UInt64) (env : CompactionEnv) :
    List WalRecord :=
  (env.pendingOrder.visit pending.entries).map
    fun e => WalRecord.ofKey .pending e.2 e.1

/-- A rewritten file is replayed as its pending records are: no early
completion among the others is of a pending share. -/
theorem readPendingIndex_compactInner (hjson : json.Lawful) {wal : ShareWal}
    {φ : Key → Phase} (h : wal.InPhase φ) (env : CompactionEnv) :
    readPendingIndex json (wal.compactInner json env).2 =
      readPendingIndex json
        (json.appendRecords (snapshotRecords wal.pending env)) := by
  have hwritten : (wal.compactInner json env).2 =
      json.appendRecords (snapshotRecords wal.pending env) ++
        json.appendRecords (ShareWal.completedRecords env.rewrittenAt
          (env.earlyOrder.visit
            (wal.pruneCompletedEarly env.now).completedEarly.keys)) := by
    rw [RecordJson.appendRecords_eq, RecordJson.appendRecords_eq, unlines,
      unlines, ← List.flatMap_append, ← List.map_append]
    rfl
  rw [hwritten, readPendingIndex_append_completedRecords hjson
    (RecordJson.terminated_appendRecords _)]
  refine HashMap.eraseAll_of_disjoint ?_
  intro k hk hpending
  rw [IterOrder.mem_visit, ← AList.mem_keys] at hk
  have hearly : φ k = .early :=
    (h.early_iff k).mp (HashMap.mem_of_mem_retain hk)
  have hkeys : (snapshotRecords wal.pending env).map WalRecord.entry =
      ((env.pendingOrder.visit wal.pending.entries).map Sigma.fst).map
        (Mark.opening, ·) := by
    simp [snapshotRecords, Function.comp_def]
  rw [mem_readPendingIndex_iff, filePhase, hjson.records_appendRecords, hkeys,
    phaseAfter_map_opening _ _ (by simp)] at hpending
  have hopened : φ k = .opened := by
    rw [← h.opened_iff k, AList.mem_keys]
    by_contra hno
    rw [if_neg fun hmem => hno
      (((env.pendingOrder.perm _).map Sigma.fst).mem_iff.mp hmem)] at hpending
    cases hpending
  rw [hopened] at hearly
  cases hearly

end Replay

/-! ## Reachable states -/

namespace WalState

variable {json : RecordJson}

/-- The file is made of whole lines, and no share is both pending and early. -/
structure Coherent (s : WalState) : Prop where
  terminated : Terminated s.file
  inPhase : ∃ φ, s.wal.InPhase φ

theorem Coherent.disjoint {s : WalState} (h : s.Coherent) {k : Key}
    (hk : k ∈ s.wal.pending) : k ∉ s.wal.completedEarly := by
  intro hearly
  obtain ⟨φ, hφ⟩ := h.inPhase
  have hopened := (hφ.opened_iff k).mp hk
  rw [(hφ.early_iff k).mp hearly] at hopened
  cases hopened

theorem inPhase_completeShare {wal : ShareWal} (h : ∃ φ, wal.InPhase φ)
    (arrived : ℕ) (k : Key) :
    ∃ φ, (wal.completeShare arrived k).InPhase φ := by
  obtain ⟨φ, hφ⟩ := h
  by_cases haway : wal.TurnsAway k
  · refine ⟨φ, ?_⟩
    rw [ShareWal.completeShare, if_neg haway.1,
      if_neg (Nat.not_lt.mpr haway.2.2)]
    exact hφ
  · exact ⟨_, ShareWal.completeShare_inPhase hφ haway⟩

theorem inPhase_completeBatch {wal : ShareWal} (h : ∃ φ, wal.InPhase φ)
    (arrived : ℕ) (shares : List Key) :
    ∃ φ, (wal.completeBatch arrived shares).InPhase φ := by
  induction shares generalizing wal with
  | nil => exact h
  | cons k ks ih => exact ih (inPhase_completeShare h arrived k)

theorem coherent_compactInner (hjson : json.Lawful) {wal : ShareWal}
    (h : ∃ φ, wal.InPhase φ) (env : CompactionEnv) :
    Coherent
      ⟨(wal.compactInner json env).1, (wal.compactInner json env).2⟩ := by
  obtain ⟨φ, hφ⟩ := h
  have hagrees := agrees_compactInner hjson hφ env
  exact ⟨hagrees.terminated, _, hagrees.inPhase⟩

theorem Coherent.apply (hjson : json.Lawful) {s : WalState} (h : s.Coherent)
    (op : WalOp) : (s.apply json op).Coherent := by
  cases op with
  | markPending now shares =>
      obtain ⟨φ, hφ⟩ := h.inPhase
      exact ⟨terminated_append h.terminated
        (RecordJson.terminated_appendRecords _), _,
        ShareWal.indexBatch_inPhase hφ now shares⟩
  | markCompleted now arrived env shares =>
      have hmem := inPhase_completeBatch h.inPhase arrived shares
      unfold WalState.apply ShareWal.markCompleted
      dsimp only
      split
      · exact coherent_compactInner hjson hmem env
      · exact ⟨terminated_append h.terminated
          (RecordJson.terminated_appendRecords _), hmem⟩

theorem coherent_of_run (hjson : json.Lawful) {s t : WalState}
    {ops : List WalOp} (hstart : Start json s)
    (hrun : run (step json) s ops = some t) : t.Coherent := by
  refine invariant_of_run (fun s op t h hstep => ?_) ?_ hrun
  · cases hstep
    exact h.apply hjson op
  · have hagrees := hstart.agrees hjson
    exact ⟨hagrees.terminated, _, hagrees.inPhase⟩

/-- A failed call leaves a coherent log, its buffer counted with the file. -/
theorem Coherent.failCompleted {s : WalState} (h : s.Coherent)
    (failed : FailedAppend) (shares : List Key) :
    Coherent ⟨(s.wal.failCompleted json failed shares).1,
      s.file ++ (s.wal.failCompleted json failed shares).2⟩ where
  terminated := by
    refine terminated_append h.terminated ?_
    unfold ShareWal.failCompleted
    dsimp only
    split
    · exact RecordJson.terminated_appendRecords _
    · exact .inl rfl
  inPhase := inPhase_completeBatch h.inPhase failed.arrived shares

/-! ## What a successful call leaves -/

section Call

variable {s : WalState} {now : UInt64} {arrived : ℕ} {env : CompactionEnv}
variable {shares : List Key}

theorem pending_markCompleted :
    (s.apply json (.markCompleted now arrived env shares)).wal.pending =
      s.wal.pending.eraseAll shares := by
  unfold WalState.apply ShareWal.markCompleted
  dsimp only
  rw [ShareWal.completeBatch_eq]
  split <;> rfl

theorem completedEarly_markCompleted :
    (s.apply json (.markCompleted now arrived env shares)).wal.completedEarly =
      if (s.wal.noteCompleted shares.length).compactionDue then
        ShareWal.keptAt env.now (s.wal.earlyOnce arrived shares)
      else s.wal.earlyOnce arrived shares := by
  unfold WalState.apply ShareWal.markCompleted
  dsimp only
  rw [ShareWal.compactionDue_completeBatch, ShareWal.completedRecords,
    List.length_map]
  split <;> rfl

theorem Coherent.replay_markCompleted (hjson : json.Lawful) (h : s.Coherent) :
    readPendingIndex json
        (s.apply json (.markCompleted now arrived env shares)).file =
      if (s.wal.noteCompleted shares.length).compactionDue then
        readPendingIndex json (json.appendRecords
          (snapshotRecords (s.wal.pending.eraseAll shares) env))
      else (readPendingIndex json s.file).eraseAll shares := by
  obtain ⟨φ, hφ⟩ := inPhase_completeBatch h.inPhase arrived shares
  unfold WalState.apply ShareWal.markCompleted
  dsimp only
  rw [ShareWal.compactionDue_completeBatch, ShareWal.completedRecords,
    List.length_map]
  split
  · have hnoted : ((s.wal.completeBatch arrived shares).noteCompleted
        shares.length).InPhase φ := hφ
    rw [readPendingIndex_compactInner hjson hnoted, ShareWal.completeBatch_eq]
    rfl
  · exact readPendingIndex_append_completedRecords hjson h.terminated now shares

end Call

/-- The first call changes nothing that the replay of the second one sees. -/
theorem Coherent.replay_failCompleted (hjson : json.Lawful) {s : WalState}
    (h : s.Coherent) (failed : FailedAppend) (shares : List Key) :
    (readPendingIndex json
        (s.file ++ (s.wal.failCompleted json failed shares).2)).eraseAll shares =
      (readPendingIndex json s.file).eraseAll shares := by
  unfold ShareWal.failCompleted
  dsimp only
  split
  · rw [readPendingIndex_append_completedRecords hjson h.terminated,
      HashMap.eraseAll_eraseAll]
  · rw [List.append_nil]

/-- The pending index and the replay are always those of the second call
alone. -/
theorem Coherent.same_iff (hjson : json.Lawful) {s : WalState}
    (h : s.Coherent) {failed : FailedAppend} {now : UInt64} {arrived : ℕ}
    {env : CompactionEnv} {shares : List Key}
    (hclock : failed.arrived ≤ arrived) :
    Same json (s.retried json failed now arrived env shares)
        (s.apply json (.markCompleted now arrived env shares)) ↔
      s.wal.RetryHarmless failed arrived env shares := by
  have hdue : ((s.wal.failCompleted json failed shares).1.noteCompleted
      shares.length).compactionDue =
        (s.wal.noteCompleted shares.length).compactionDue :=
    ShareWal.compactionDue_completeBatch _ _ _ _
  have hpendingFailed : (s.wal.failCompleted json failed shares).1.pending =
      s.wal.pending.eraseAll shares := by
    rw [ShareWal.failCompleted, ShareWal.completeBatch_eq]
  have hpending : (s.retried json failed now arrived env shares).wal.pending =
      (s.apply json (.markCompleted now arrived env shares)).wal.pending := by
    rw [pending_markCompleted]
    refine pending_markCompleted.trans ?_
    change HashMap.eraseAll (s.wal.failCompleted json failed shares).1.pending
      shares = _
    rw [hpendingFailed, HashMap.eraseAll_eraseAll]
  have hreplay : readPendingIndex json
      (s.retried json failed now arrived env shares).file =
        readPendingIndex json
          (s.apply json (.markCompleted now arrived env shares)).file := by
    rw [h.replay_markCompleted hjson]
    refine ((h.failCompleted failed shares).replay_markCompleted hjson).trans ?_
    dsimp only
    rw [hdue, hpendingFailed, HashMap.eraseAll_eraseAll,
      h.replay_failCompleted hjson]
  have hearly : (s.retried json failed now arrived env shares).wal.completedEarly =
      if (s.wal.noteCompleted shares.length).compactionDue then
        ShareWal.keptAt env.now
          (s.wal.earlyTwice failed.arrived arrived shares)
      else s.wal.earlyTwice failed.arrived arrived shares := by
    refine completedEarly_markCompleted.trans ?_
    dsimp only
    rw [hdue]
    rfl
  have hsame : Same json (s.retried json failed now arrived env shares)
      (s.apply json (.markCompleted now arrived env shares)) ↔
        ∀ k, k ∈ (s.retried json failed now arrived env shares).wal.completedEarly ↔
          k ∈ (s.apply json
            (.markCompleted now arrived env shares)).wal.completedEarly :=
    ⟨Same.early, fun hearly => ⟨hpending, hearly, hreplay⟩⟩
  have hdisjoint : ∀ k ∈ s.wal.pending, k ∉ s.wal.completedEarly :=
    fun _ hk => h.disjoint hk
  rw [hsame, hearly, completedEarly_markCompleted, ShareWal.RetryHarmless]
  split
  · exact ShareWal.mem_keptAt_earlyTwice_iff hdisjoint hclock
  · exact ShareWal.mem_earlyTwice_iff hdisjoint

/-- After any batches, a `mark_completed` whose append fails with nothing
written and the same call again leave the pending index, the early completions
and the replay of the second call alone exactly when the retry is harmless. -/
theorem retried_same_iff (hjson : json.Lawful) {s t : WalState}
    {ops : List WalOp} (hstart : Start json s)
    (hrun : run (step json) s ops = some t) {failed : FailedAppend}
    {now : UInt64} {arrived : ℕ} {env : CompactionEnv} {shares : List Key}
    (hclock : failed.arrived ≤ arrived) :
    Same json (t.retried json failed now arrived env shares)
        (t.apply json (.markCompleted now arrived env shares)) ↔
      t.wal.RetryHarmless failed arrived env shares :=
  (coherent_of_run hjson hstart hrun).same_iff hjson hclock

/-- One share is pending and the completion of another one is tried twice. -/
theorem retried_same_iff_notPending :
    ∃ t, run (step RecordJson.compact)
        ⟨ShareWal.openAt RecordJson.compact none 1000, []⟩
          [.markPending 8 [("a1", "e1")]] = some t ∧
      Same RecordJson.compact
        (t.retried RecordJson.compact ⟨9, 0, true⟩ 10 5 (storedEnv 5 10)
          [("a2", "e2")])
        (t.apply RecordJson.compact
          (.markCompleted 10 5 (storedEnv 5 10) [("a2", "e2")])) := by
  obtain ⟨t, hrun, hwal⟩ : ∃ t, run (step RecordJson.compact)
      ⟨ShareWal.openAt RecordJson.compact none 1000, []⟩
        [.markPending 8 [("a1", "e1")]] = some t ∧
      t.wal.RetryHarmless ⟨9, 0, true⟩ 5 (storedEnv 5 10) [("a2", "e2")] :=
    ⟨_, rfl, by decide⟩
  exact ⟨t, hrun, (retried_same_iff RecordJson.compact_lawful
    (.emptyLog 1000) hrun (by decide)).mpr hwal⟩

/-- One share is pending and its own completion is tried twice. The second call
remembers it as early. -/
theorem not_retried_same :
    ∃ t, run (step RecordJson.compact)
        ⟨ShareWal.openAt RecordJson.compact none 1000, []⟩
          [.markPending 8 [("a1", "e1")]] = some t ∧
      ¬ Same RecordJson.compact
        (t.retried RecordJson.compact ⟨9, 0, true⟩ 10 5 (storedEnv 5 10)
          [("a1", "e1")])
        (t.apply RecordJson.compact
          (.markCompleted 10 5 (storedEnv 5 10) [("a1", "e1")])) := by
  refine ⟨_, rfl, fun hsame => ?_⟩
  have hearly := (hsame.early ("a1", "e1")).mp (by decide)
  revert hearly
  decide

end WalState

end ReserveGrid.Gateway
