import ReserveGrid.Support.Text

/-!
# Rejected text in the log

A line that a peer sent and that did not parse reaches the log cut to a cap.
`log_sample` cuts a text that lies in memory. `log_display` cuts a text that a
formatter writes piece by piece, and it cuts each piece on its own: after a piece
lost its end, the room that was too small for the next character of the text may
still take the first character of a later piece.
-/

namespace ReserveGrid.LogText

open Support

/-! ## The cut of a whole line -/

/-- The mark after a text of which something was dropped. -/
def truncationMark (total : ℕ) : List Char :=
  (" (truncated, " ++ toString total ++ " bytes total)").toList

/-- What `log_sample` keeps of a line. No result is a slice that panics. -/
def sampleKept (cap : ℕ) (line : List Char) : Option (List Char) :=
  if byteLength line ≤ cap then some line
  else takeBytes line (floorBoundary line cap)

def logSample (cap : ℕ) (line : List Char) : Option (List Char) :=
  if byteLength line ≤ cap then some line
  else (takeBytes line (floorBoundary line cap)).map
    (· ++ truncationMark (byteLength line))

/-- What is shown when this much of the text was kept: the mark follows exactly
when something was dropped. -/
def shown (text kept : List Char) : List Char :=
  if kept = text then kept else kept ++ truncationMark (byteLength text)

theorem sampleKept_eq (cap : ℕ) (line : List Char) :
    sampleKept cap line = some (cut line cap) := by
  rw [sampleKept]
  split
  · rename_i hfits
    rw [cut_eq_self hfits]
  · exact takeBytes_floorBoundary line cap

theorem logSample_eq (cap : ℕ) (line : List Char) :
    logSample cap line = some (shown line (cut line cap)) := by
  rw [logSample, shown]
  split
  · rename_i hfits
    rw [cut_eq_self hfits, if_pos rfl]
  · rename_i hover
    rw [takeBytes_floorBoundary, if_neg (fun h => hover (cut_eq_self_iff.mp h))]
    rfl

/-! ## The sink that caps -/

/-- Keeps at most the cap and counts every byte offered. -/
structure Capped where
  kept : List Char
  offered : ℕ

namespace Capped

/-- One piece is written. No result is a slice that panics. -/
def writeStr (cap : ℕ) (sink : Capped) (s : List Char) : Option Capped :=
  let offered := sink.offered + byteLength s
  let room := min (cap - byteLength sink.kept) (byteLength s)
  (takeBytes s (floorBoundary s room)).map fun taken =>
    { kept := sink.kept ++ taken, offered }

/-- The pieces of one rendering are written in turn. -/
def writeAll (cap : ℕ) (sink : Capped) (pieces : List (List Char)) :
    Option Capped :=
  pieces.foldlM (writeStr cap) sink

end Capped

/-- The sink after the formatter wrote the pieces. -/
def captured (cap : ℕ) (pieces : List (List Char)) : Option Capped :=
  Capped.writeAll cap { kept := [], offered := 0 } pieces

def logDisplay (cap : ℕ) (pieces : List (List Char)) : Option (List Char) :=
  (captured cap pieces).map fun sink =>
    if sink.offered > byteLength sink.kept then
      sink.kept ++ truncationMark sink.offered
    else sink.kept

/-! ## What the pieces leave -/

/-- What is kept after further pieces: of each the beginning that fits. -/
def keep (cap : ℕ) (kept : List Char) : List (List Char) → List Char
  | [] => kept
  | s :: rest => keep cap (kept ++ cut s (cap - byteLength kept)) rest

theorem cut_min (s : List Char) (room : ℕ) :
    cut s (min room (byteLength s)) = cut s room := by
  rcases le_total room (byteLength s) with hle | hle
  · rw [min_eq_left hle]
  · rw [min_eq_right hle, cut_eq_self (le_refl _), cut_eq_self hle]

theorem Capped.writeStr_eq (cap : ℕ) (sink : Capped) (s : List Char) :
    sink.writeStr cap s = some
      { kept := sink.kept ++ cut s (cap - byteLength sink.kept)
        offered := sink.offered + byteLength s } := by
  simp only [writeStr, takeBytes_floorBoundary, cut_min, Option.map_some]

theorem Capped.writeAll_eq (cap : ℕ) (sink : Capped) (pieces : List (List Char)) :
    sink.writeAll cap pieces = some
      { kept := keep cap sink.kept pieces
        offered := sink.offered + byteLength pieces.flatten } := by
  induction pieces generalizing sink with
  | nil => rfl
  | cons s rest ih =>
      rw [writeAll, List.foldlM_cons, writeStr_eq]
      simp only [Option.bind_eq_bind, Option.bind_some]
      rw [← writeAll, ih, List.flatten_cons, byteLength_append, Nat.add_assoc]
      rfl

theorem captured_eq (cap : ℕ) (pieces : List (List Char)) :
    captured cap pieces = some
      { kept := keep cap [] pieces, offered := byteLength pieces.flatten } := by
  rw [captured, Capped.writeAll_eq, Nat.zero_add]

theorem keep_append (cap : ℕ) (kept : List Char) (before after : List (List Char)) :
    keep cap kept (before ++ after) = keep cap (keep cap kept before) after := by
  induction before generalizing kept with
  | nil => rfl
  | cons s rest ih => exact ih _

/-- Nothing that was kept is taken back. -/
theorem prefix_keep (cap : ℕ) (kept : List Char) (pieces : List (List Char)) :
    kept <+: keep cap kept pieces := by
  induction pieces generalizing kept with
  | nil => exact List.prefix_rfl
  | cons s rest ih => exact (List.prefix_append _ _).trans (ih _)

theorem byteLength_keep_le {cap : ℕ} {kept : List Char}
    (h : byteLength kept ≤ cap) (pieces : List (List Char)) :
    byteLength (keep cap kept pieces) ≤ cap := by
  induction pieces generalizing kept with
  | nil => exact h
  | cons s rest ih =>
      apply ih
      have hcut := byteLength_cut_le s (cap - byteLength kept)
      rw [byteLength_append]
      omega

theorem keep_of_fits {cap : ℕ} {kept : List Char} {pieces : List (List Char)}
    (h : byteLength kept + byteLength pieces.flatten ≤ cap) :
    keep cap kept pieces = kept ++ pieces.flatten := by
  induction pieces generalizing kept with
  | nil => exact (List.append_nil kept).symm
  | cons s rest ih =>
      rw [List.flatten_cons, byteLength_append] at h
      rw [keep, cut_eq_self (by omega), ih, List.flatten_cons, List.append_assoc]
      rw [byteLength_append]
      omega

/-- Later pieces add nothing exactly when no first character of theirs fits. -/
theorem keep_eq_self_iff {cap : ℕ} {kept : List Char} (h : byteLength kept ≤ cap)
    (pieces : List (List Char)) :
    keep cap kept pieces = kept ↔
      ∀ s ∈ pieces, ∀ c ∈ s.head?, cap < byteLength kept + c.utf8Size := by
  have hroom : ∀ s : List Char, cut s (cap - byteLength kept) = [] ↔
      ∀ c ∈ s.head?, cap < byteLength kept + c.utf8Size := by
    intro s
    rw [cut_eq_nil_iff]
    constructor
    · intro hnil c hc
      have hover := hnil c hc
      omega
    · intro hover c hc
      have hc := hover c hc
      omega
  induction pieces with
  | nil => simp [keep]
  | cons s rest ih =>
      rw [keep, List.forall_mem_cons, ← hroom]
      constructor
      · intro hself
        have hnil : cut s (cap - byteLength kept) = [] := by
          have hprefix := prefix_keep cap (kept ++ cut s (cap - byteLength kept)) rest
          rw [hself] at hprefix
          have hlength := hprefix.length_le
          rw [List.length_append] at hlength
          exact List.eq_nil_of_length_eq_zero (by omega)
        rw [hnil, List.append_nil] at hself
        exact ⟨hnil, ih.mp hself⟩
      · rintro ⟨hnil, hrest⟩
        rw [hnil, List.append_nil]
        exact ih.mpr hrest

/-! ## When the pieces leave what the whole leaves -/

/-- A text that is too long outgrows the cap within one of its pieces. -/
theorem exists_crossing {cap : ℕ} {pieces : List (List Char)}
    (h : cap < byteLength pieces.flatten) :
    ∃ before crossing after, pieces = before ++ crossing :: after ∧
      byteLength before.flatten ≤ cap ∧
      cap < byteLength before.flatten + byteLength crossing := by
  induction pieces generalizing cap with
  | nil => exact absurd h (Nat.not_lt_zero cap)
  | cons s rest ih =>
      rw [List.flatten_cons, byteLength_append] at h
      by_cases hfits : byteLength s ≤ cap
      · have hrest : cap - byteLength s < byteLength rest.flatten := by omega
        obtain ⟨before, crossing, after, rfl, hle, hlt⟩ := ih hrest
        refine ⟨s :: before, crossing, after, rfl, ?_, ?_⟩ <;>
          rw [List.flatten_cons, byteLength_append] <;> omega
      · refine ⟨[], s, rest, rfl, Nat.zero_le cap, ?_⟩
        simp only [List.flatten_nil, byteLength_nil]
        omega

/-- The first character of a text that does not fit, after those that do. -/
def Crosses (cap : ℕ) (text fitting : List Char) (c : Char) : Prop :=
  byteLength fitting ≤ cap ∧ cap < byteLength fitting + c.utf8Size ∧
    ∃ rest, text = fitting ++ c :: rest

theorem Crosses.cut_eq {cap : ℕ} {text fitting : List Char} {c : Char}
    (h : Crosses cap text fitting c) : cut text cap = fitting := by
  obtain ⟨hle, hlt, rest, rfl⟩ := h
  apply cut_eq_of_split hle
  intro d hd
  cases hd
  exact hlt

theorem exists_crosses {cap : ℕ} {text : List Char} (h : cap < byteLength text) :
    ∃ c, Crosses cap text (cut text cap) c := by
  obtain ⟨rest, hsplit, hle, hnext⟩ := cut_split text cap
  match rest, hsplit, hnext with
  | [], hsplit, _ =>
      rw [List.append_nil] at hsplit
      rw [← hsplit] at hle
      omega
  | c :: rest, hsplit, hnext => exact ⟨c, hle, hnext c rfl, rest, hsplit⟩

/-- No piece that begins past the cap begins with a character that fits in the
room before the character of the text that did not fit. -/
def NoneFitsLater (cap : ℕ) (pieces : List (List Char)) : Prop :=
  ∀ before piece after, pieces = before ++ piece :: after →
    cap < byteLength before.flatten →
    ∀ c ∈ piece.head?, ∀ fitting d, Crosses cap pieces.flatten fitting d →
      cap < byteLength fitting + c.utf8Size

theorem noneFitsLater_of_fits {cap : ℕ} {pieces : List (List Char)}
    (h : byteLength pieces.flatten ≤ cap) : NoneFitsLater cap pieces := by
  rintro before piece after rfl hover
  rw [List.flatten_append, byteLength_append] at h
  omega

/-- The pieces that begin past the cap are those after the piece that crosses
it. -/
theorem noneFitsLater_iff {cap : ℕ} {before after : List (List Char)}
    {crossing : List Char} (hle : byteLength before.flatten ≤ cap)
    (hlt : cap < byteLength before.flatten + byteLength crossing) :
    NoneFitsLater cap (before ++ crossing :: after) ↔
      ∀ s ∈ after, ∀ c ∈ s.head?,
        cap < byteLength (cut (before ++ crossing :: after).flatten cap) +
          c.utf8Size := by
  constructor
  · intro hnone s hs
    obtain ⟨between, rest, rfl⟩ := List.append_of_mem hs
    have hlong : ∀ more, cap < byteLength (before ++ crossing :: more).flatten := by
      intro more
      simp only [List.flatten_append, List.flatten_cons, byteLength_append]
      omega
    intro c hc
    obtain ⟨d, hcrosses⟩ := exists_crosses (hlong (between ++ s :: rest))
    exact hnone (before ++ crossing :: between) s rest (by simp) (hlong between)
      c hc _ d hcrosses
  · intro hafter before' piece after' hsplit hover c hc fitting d hcrosses
    rw [← hcrosses.cut_eq]
    apply hafter piece _ c hc
    rw [List.append_eq_append_iff] at hsplit
    rcases hsplit with ⟨between, rfl, hrest⟩ | ⟨between, rfl, -⟩
    · match between, hrest with
      | [], _ =>
          rw [List.append_nil] at hover
          omega
      | t :: between, hrest =>
          have htail := (List.cons.inj hrest).2
          rw [htail]
          exact List.mem_append_right _ List.mem_cons_self
    · rw [List.flatten_append, byteLength_append] at hle
      omega

/-- The pieces leave the cut of the text exactly when none fits later. -/
theorem keep_eq_cut_iff (cap : ℕ) (pieces : List (List Char)) :
    keep cap [] pieces = cut pieces.flatten cap ↔ NoneFitsLater cap pieces := by
  by_cases hfits : byteLength pieces.flatten ≤ cap
  · rw [keep_of_fits (by simpa using hfits), cut_eq_self hfits]
    exact iff_of_true rfl (noneFitsLater_of_fits hfits)
  · obtain ⟨before, crossing, after, rfl, hle, hlt⟩ :=
      exists_crossing (Nat.lt_of_not_le hfits)
    have hbefore : keep cap [] before = before.flatten := by
      rw [keep_of_fits (by simpa using hle), List.nil_append]
    have hcrossed : keep cap [] (before ++ [crossing]) =
        cut (before ++ crossing :: after).flatten cap := by
      rw [keep_append, hbefore, keep, keep, List.flatten_append,
        List.flatten_cons, ← List.append_assoc,
        cut_append_of_lt (by simpa using hlt), cut_append_of_le hle]
    rw [noneFitsLater_iff hle hlt, ← hcrossed,
      ← keep_eq_self_iff (byteLength_keep_le (Nat.zero_le cap) _), ← keep_append,
      List.append_assoc, List.singleton_append]

/-! ## Faithful log text -/

/-- The pieces are logged as a log of the whole text would be: what is kept is a
prefix of the text within the cap, it ends at a character boundary, `log_sample`
keeps the same, and the mark with the true length follows exactly when something
was dropped. -/
structure FaithfulLog (cap : ℕ) (logSample : List Char → Option (List Char))
    (logDisplay : List (List Char) → Option (List Char))
    (pieces : List (List Char)) (sink : Capped) : Prop where
  captured : captured cap pieces = some sink
  isPrefix : sink.kept <+: pieces.flatten
  withinCap : byteLength sink.kept ≤ cap
  boundary : isCharBoundary pieces.flatten (byteLength sink.kept) = true
  sampleKept : sampleKept cap pieces.flatten = some sink.kept
  sample : logSample pieces.flatten = some (shown pieces.flatten sink.kept)
  display : logDisplay pieces = some (shown pieces.flatten sink.kept)

theorem FaithfulLog.keep_prefix {cap : ℕ}
    {logSample : List Char → Option (List Char)}
    {logDisplay : List (List Char) → Option (List Char)}
    {pieces : List (List Char)} {sink : Capped}
    (h : FaithfulLog cap logSample logDisplay pieces sink) :
    keep cap [] pieces <+: pieces.flatten := by
  have hsink := h.captured
  rw [captured_eq, Option.some.injEq] at hsink
  have hprefix := h.isPrefix
  rwa [← hsink] at hprefix

theorem exists_faithfulLog_iff (cap : ℕ) (pieces : List (List Char)) :
    (∃ sink, FaithfulLog cap (logSample cap) (logDisplay cap) pieces sink) ↔
      NoneFitsLater cap pieces := by
  rw [← keep_eq_cut_iff]
  constructor
  · rintro ⟨sink, hfaithful⟩
    have hsink := hfaithful.captured
    rw [captured_eq, Option.some.injEq] at hsink
    have hkept := hfaithful.sampleKept
    rw [sampleKept_eq, Option.some.injEq, ← hsink] at hkept
    exact hkept.symm
  · intro hcut
    have hsink := captured_eq cap pieces
    rw [hcut] at hsink
    refine ⟨_, hsink, cut_prefix _ _, byteLength_cut_le _ _, ?_,
      sampleKept_eq _ _, logSample_eq _ _, ?_⟩
    · rw [← isSome_takeBytes, ← floorBoundary_eq, takeBytes_floorBoundary]
      rfl
    · rw [logDisplay, hsink, Option.map_some, shown]
      congr 1
      by_cases hfits : byteLength pieces.flatten ≤ cap
      · rw [if_pos (cut_eq_self hfits), if_neg]
        rw [cut_eq_self hfits]
        exact lt_irrefl _
      · rw [if_neg (fun h => hfits (cut_eq_self_iff.mp h)), if_pos]
        have hle := byteLength_cut_le pieces.flatten cap
        show byteLength (cut pieces.flatten cap) < byteLength pieces.flatten
        omega

/-! ## The two crates -/

end LogText

open Support LogText

namespace Gateway

def logSampleBytes : ℕ := 512

def logSample (line : List Char) : Option (List Char) :=
  LogText.logSample logSampleBytes line

def logDisplay (pieces : List (List Char)) : Option (List Char) :=
  LogText.logDisplay logSampleBytes pieces

/-- The pieces of a text are logged faithfully. -/
def FaithfulLog (pieces : List (List Char)) : Prop :=
  ∃ sink, LogText.FaithfulLog logSampleBytes logSample logDisplay pieces sink

end Gateway

namespace Verifier

def logSampleBytes : ℕ := 512

def logSample (line : List Char) : Option (List Char) :=
  LogText.logSample logSampleBytes line

def logDisplay (pieces : List (List Char)) : Option (List Char) :=
  LogText.logDisplay logSampleBytes pieces

/-- The pieces of a text are logged faithfully. -/
def FaithfulLog (pieces : List (List Char)) : Prop :=
  ∃ sink, LogText.FaithfulLog logSampleBytes logSample logDisplay pieces sink

end Verifier

/-- Both crates log a text faithfully exactly when no later piece of it fits in
the room that the cut left. -/
theorem faithfulLog_iff_noneFitsLater (pieces : List (List Char)) :
    (Gateway.FaithfulLog pieces ↔
      NoneFitsLater Gateway.logSampleBytes pieces) ∧
    (Verifier.FaithfulLog pieces ↔
      NoneFitsLater Verifier.logSampleBytes pieces) := by
  constructor
  · exact exists_faithfulLog_iff Gateway.logSampleBytes pieces
  · exact exists_faithfulLog_iff Verifier.logSampleBytes pieces

/-- The error of a line whose version is a text of two hundred characters of
three bytes each, in the pieces in which it is written. -/
def rejectedVersion : List (List Char) :=
  ["invalid type: string \"".toList ++ List.replicate 200 '世' ++
      "\", expected u16".toList,
    " at line ".toList, "1".toList, " column ".toList, "628".toList]

/-- The blank of the second piece fits where the next character of the text did
not, so that what is kept is no prefix of the text. -/
theorem rejectedVersion_not_faithful :
    (∃ sink, captured 512 rejectedVersion = some sink ∧
      ¬ sink.kept <+: rejectedVersion.flatten) ∧
    ¬ Gateway.FaithfulLog rejectedVersion ∧
    ¬ Verifier.FaithfulLog rejectedVersion := by
  have hprefix : ¬ keep 512 [] rejectedVersion <+: rejectedVersion.flatten := by
    decide +kernel
  refine ⟨⟨_, captured_eq 512 rejectedVersion, hprefix⟩, ?_, ?_⟩
  · rintro ⟨sink, hfaithful⟩
    exact hprefix hfaithful.keep_prefix
  · rintro ⟨sink, hfaithful⟩
    exact hprefix hfaithful.keep_prefix

end ReserveGrid
