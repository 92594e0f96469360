import ReserveGrid.Gateway.Wal

/-!
# The tail of the log

A crash may cut the file at any byte. What is left reads as the records that
were whole, and the record that the cut fell into as nothing, unless only its
line feed is missing. Startup then rewrites the file, so nothing is ever
appended to a torn line.
-/

namespace ReserveGrid.Gateway

open Support

namespace RecordJson

/-- A record that is cut short is not a record. -/
structure Tight (json : RecordJson) : Prop where
  fromStr_cut : ∀ r text, text <+: json.toString r → text ≠ json.toString r →
    json.fromStr text = none

/-! ### The serialiser is tight -/

section

open JsonText

theorem readStatus_append_right {input rest : Bytes} {status : WalStatus}
    (h : readStatus input = some (status, rest)) (more : Bytes) :
    readStatus (input ++ more) = some (status, rest ++ more) := by
  unfold readStatus at h
  split at h
  · rename_i rest' hpending
    cases h
    rw [readStatus, expect_append_right hpending]
  · obtain ⟨rest', hcompleted, heq⟩ := Option.map_eq_some_iff.mp h
    cases heq
    unfold expect at hcompleted
    split at hcompleted
    · rename_i hprefix
      obtain ⟨tail, rfl⟩ := List.isPrefixOf_iff_prefix.mp hprefix
      rw [List.drop_left] at hcompleted
      cases hcompleted
      rw [List.append_assoc, readStatus_statusText]
    · cases hcompleted

/-- The text of a record ends with its first closing brace after the
timestamp, so a reader of less does not find it. -/
theorem readCompact_cut {r : WalRecord} {text : Bytes}
    (hshort : text <+: compactText r) (hne : text ≠ compactText r) :
    readCompact text = none := by
  by_contra hsome
  obtain ⟨r', hr'⟩ := Option.ne_none_iff_exists'.mp hsome
  obtain ⟨more, hmore⟩ := hshort
  have hmore_ne : more ≠ [] := by
    rintro rfl
    exact hne (by rw [← hmore, List.append_nil])
  obtain ⟨bs1, h1, hr'⟩ := Option.bind_eq_some_iff.mp hr'
  obtain ⟨⟨status, bs2⟩, h2, hr'⟩ := Option.bind_eq_some_iff.mp hr'
  obtain ⟨bs3, h3, hr'⟩ := Option.bind_eq_some_iff.mp hr'
  obtain ⟨⟨share, bs4⟩, h4, hr'⟩ := Option.bind_eq_some_iff.mp hr'
  obtain ⟨shareIdHex, -, hr'⟩ := Option.bind_eq_some_iff.mp hr'
  obtain ⟨bs5, h5, hr'⟩ := Option.bind_eq_some_iff.mp hr'
  obtain ⟨⟨event, bs6⟩, h6, hr'⟩ := Option.bind_eq_some_iff.mp hr'
  obtain ⟨eventIdHex, -, hr'⟩ := Option.bind_eq_some_iff.mp hr'
  obtain ⟨bs7, h7, hr'⟩ := Option.bind_eq_some_iff.mp hr'
  obtain ⟨_, hlast, -⟩ := Option.bind_eq_some_iff.mp hr'
  -- Every step reads from the cut text what it reads from the whole.
  have h1' := expect_append_right h1 more
  have h2' := readStatus_append_right h2 more
  have h3' := expect_append_right h3 more
  have h4' := unescape_append_right h4 more
  have h5' := expect_append_right h5 more
  have h6' := unescape_append_right h6 more
  have h7' := expect_append_right h7 more
  rw [hmore, compactText, expect_append, Option.some.injEq] at h1'
  rw [← h1', readStatus_statusText, Option.some.injEq, Prod.mk.injEq] at h2'
  rw [← h2'.2, expect_append, Option.some.injEq] at h3'
  rw [← h3', unescape_escape_append, Option.some.injEq, Prod.mk.injEq] at h4'
  rw [← h4'.2, expect_append, Option.some.injEq] at h5'
  rw [← h5', unescape_escape_append, Option.some.injEq, Prod.mk.injEq] at h6'
  rw [← h6'.2, expect_append, Option.some.injEq] at h7'
  have hbrace : bs7.getLast? = some 0x7d := by
    simpa [guard] using hlast
  obtain ⟨more', last, rfl⟩ := List.eq_nil_or_concat' more |>.resolve_left hmore_ne
  rw [← List.append_assoc] at h7'
  have hdigits := (List.append_inj' h7' rfl).1
  have hmem : (0x7d : UInt8) ∈ decimal r.timestampMs.toNat := by
    rw [hdigits]
    exact List.mem_append_left _ (List.mem_of_getLast? hbrace)
  exact absurd (mem_decimal hmem).2 (by decide)

theorem compact_tight : compact.Tight where
  fromStr_cut _ _ := readCompact_cut

end

/-! ### Reading a cut file -/

variable {json : RecordJson}

/-- The batches of a file are one batch. -/
theorem flatMap_appendRecords (batches : List (List WalRecord)) :
    batches.flatMap json.appendRecords = json.appendRecords batches.flatten := by
  induction batches with
  | nil => rfl
  | cons rs batches ih =>
      rw [List.flatMap_cons, ih, appendRecords_eq, appendRecords_eq,
        appendRecords_eq, List.flatten_cons, List.map_append, unlines, unlines,
        unlines, List.flatMap_append]

/-- What is left of a line reads as its record or as nothing. -/
theorem records_cut (hjson : json.Lawful) (htight : json.Tight) {r : WalRecord}
    {text : Bytes} (htext : text <+: json.toString r) :
    json.records text = [] ∨ json.records text = [r] := by
  have hfeed : 10 ∉ text := fun h =>
    (hjson.isLine_toString r).1 (htext.subset h)
  rw [records, lines_of_not_mem hfeed]
  by_cases hempty : text = []
  · rw [if_pos hempty]
    exact .inl rfl
  · rw [if_neg hempty]
    by_cases hwhole : text = json.toString r
    · refine .inr ?_
      rw [hwhole, List.filterMap_cons, hjson.readRecord_toString]
      rfl
    · refine .inl ?_
      have hnone : json.readRecord text = none := by
        rw [readRecord, htight.fromStr_cut r text htext hwhole, ite_self]
      rw [List.filterMap_cons, hnone]
      rfl

/-- A file that is cut anywhere reads as the first of its records. -/
theorem records_prefix (hjson : json.Lawful) (htight : json.Tight)
    {rs : List WalRecord} {file : Bytes} (h : file <+: json.appendRecords rs) :
    ∃ n, json.records file = rs.take n := by
  rw [appendRecords_eq] at h
  rcases prefix_unlines h with rfl | ⟨whole, l, rest, text, hsplit, htext, rfl⟩
  · refine ⟨rs.length, ?_⟩
    rw [List.take_length, ← appendRecords_eq, hjson.records_appendRecords]
  · obtain ⟨done, tail, rfl, rfl, htail⟩ := List.map_eq_append_iff.mp hsplit
    obtain ⟨r, more, rfl, rfl, rfl⟩ := List.map_eq_cons_iff.mp htail
    rw [records_append (terminated_unlines _), ← appendRecords_eq,
      hjson.records_appendRecords]
    rcases records_cut hjson htight htext with hnone | hone
    · refine ⟨done.length, ?_⟩
      rw [hnone, List.append_nil, List.take_left]
    · refine ⟨done.length + 1, ?_⟩
      rw [hone, List.take_append, List.take_of_length_le (by omega)]
      simp

end RecordJson

/-- The pending index that a list of records leaves. -/
def replay (rs : List WalRecord) : HashMap Key UInt64 :=
  (rs.foldl replayRecord (∅, ∅)).1

theorem terminated_finishRecovery {json : RecordJson} (wal : ShareWal)
    (env : CompactionEnv) :
    Terminated (wal.finishRecovery json env).2 :=
  terminated_unlines _

/-- What is appended after a finished recovery is read back whole. -/
theorem records_finishRecovery {json : RecordJson} (hjson : json.Lawful)
    (wal : ShareWal) (env : CompactionEnv) (later : List (List WalRecord)) :
    json.records ((wal.finishRecovery json env).2 ++
        later.flatMap json.appendRecords) =
      json.records (wal.finishRecovery json env).2 ++ later.flatten := by
  rw [RecordJson.records_append (terminated_finishRecovery wal env),
    RecordJson.flatMap_appendRecords, hjson.records_appendRecords]

/-- Once the pending index is drained, recovery leaves an empty file. -/
theorem finishRecovery_recover {json : RecordJson} (file : Option Bytes)
    (compactionThreshold : ℕ) (order : IterOrder (Σ _ : Key, UInt64))
    (now : Key → UInt64) (env : CompactionEnv) :
    (((ShareWal.openAt json file compactionThreshold).recover
      order now).1.finishRecovery json env).2 = [] := by
  rw [ShareWal.finishRecovery, ShareWal.compactInner]
  have hrecords : ∀ wal : ShareWal, wal.pending = ∅ → wal.completedEarly = ∅ →
      wal.compactedRecords env = [] := by
    intro wal hpending hearly
    have hvisit := List.perm_nil.mp (env.pendingOrder.perm [])
    have hvisit' := List.perm_nil.mp (env.earlyOrder.perm [])
    rw [ShareWal.compactedRecords, hpending, hearly, AList.empty_entries,
      AList.keys_empty, hvisit, hvisit']
    rfl
  dsimp only
  rw [hrecords _ rfl rfl]
  rfl

/-- However the batches of records are cut, the index that is read back is that
of the first of them. Finishing a recovery, over whatever index, leaves a file
from which everything appended later is read back whole; at startup, it is all
that is read back. -/
theorem readPendingIndex_of_cut {json : RecordJson} (hjson : json.Lawful)
    (htight : json.Tight) {batches : List (List WalRecord)} {file : Bytes}
    (hcut : file <+: batches.flatMap json.appendRecords) :
    (∃ n, readPendingIndex json file = replay (batches.flatten.take n)) ∧
      (∀ (wal : ShareWal) (env : CompactionEnv) (later : List (List WalRecord)),
        json.records ((wal.finishRecovery json env).2 ++
            later.flatMap json.appendRecords) =
          json.records (wal.finishRecovery json env).2 ++ later.flatten) ∧
      ∀ (compactionThreshold : ℕ) (order : IterOrder (Σ _ : Key, UInt64))
        (now : Key → UInt64) (env : CompactionEnv) (later : List (List WalRecord)),
        readPendingIndex json
            ((((ShareWal.openAt json (some file) compactionThreshold).recover
              order now).1.finishRecovery json env).2 ++
                later.flatMap json.appendRecords) =
          replay later.flatten := by
  refine ⟨?_, records_finishRecovery hjson, ?_⟩
  · rw [RecordJson.flatMap_appendRecords] at hcut
    obtain ⟨n, hn⟩ := RecordJson.records_prefix hjson htight hcut
    exact ⟨n, by rw [readPendingIndex, hn, replay]⟩
  · intro compactionThreshold order now env later
    rw [finishRecovery_recover, List.nil_append,
      RecordJson.flatMap_appendRecords, readPendingIndex,
      hjson.records_appendRecords, replay]

/-- Two records, the second without its closing brace and line feed. -/
theorem readPendingIndex_of_cut_brace :
    ∃ n, readPendingIndex RecordJson.compact
        ((RecordJson.compact.appendRecords
          [⟨.pending, "a1", "e1", 7⟩, ⟨.pending, "a2", "e2", 7⟩]).dropLast.dropLast) =
      replay ([(⟨.pending, "a1", "e1", 7⟩ : WalRecord),
        ⟨.pending, "a2", "e2", 7⟩].take n) := by
  have hcut : (RecordJson.compact.appendRecords [⟨.pending, "a1", "e1", 7⟩,
      ⟨.pending, "a2", "e2", 7⟩]).dropLast.dropLast <+:
        [[(⟨.pending, "a1", "e1", 7⟩ : WalRecord),
          ⟨.pending, "a2", "e2", 7⟩]].flatMap RecordJson.compact.appendRecords := by
    rw [List.flatMap_singleton]
    exact (List.dropLast_prefix _).trans (List.dropLast_prefix _)
  exact (readPendingIndex_of_cut RecordJson.compact_lawful
    RecordJson.compact_tight hcut).1

end ReserveGrid.Gateway
