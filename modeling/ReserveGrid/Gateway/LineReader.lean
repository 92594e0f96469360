import Mathlib.Logic.Function.Iterate
import ReserveGrid.Support.BufRead
import ReserveGrid.Support.Bytes

/-!
# The bounded line reader

The gateway reads the verifier's messages line by line, with a budget for each
line. A read can be dropped while it waits and another branch of the loop runs;
the bytes it had read stay in the buffer, which the loop clears after each line.
However the stream arrives and whenever reads are dropped, the lines are those
of the stream, up to the first one over the budget.
-/

namespace ReserveGrid.Gateway

open Support

def newline : UInt8 := 10

/-- Result of one bounded line read. -/
inductive BoundedLine where
  | line
  | eof
  | overLimit
  deriving DecidableEq

/-- What a read of a line leaves: its result, the reader and the buffer. -/
structure LineRead where
  result : ReadEnd BoundedLine
  reader : List (Arrival UInt8)
  buf : Bytes

/-- Read up to a newline from a reader that is limited to so many bytes. -/
abbrev ReadUntil := ℕ → List (Arrival UInt8) → Attempt UInt8

/-- Read one line into the buffer. The budget is charged against what the
buffer holds, so that a resumed line keeps its budget. -/
def readBoundedLine (readUntil : ReadUntil) (reader : List (Arrival UInt8))
    (buf : Bytes) (maxBytes : ℕ) : LineRead :=
  let already := buf.length
  let remaining := maxBytes - already
  if remaining = 0 then ⟨.ready .overLimit, reader, buf⟩
  else
    let attempt := readUntil remaining reader
    let buf := buf ++ attempt.appended
    match attempt.result with
    | .dropped => ⟨.dropped, attempt.rest, buf⟩
    | .failed => ⟨.failed, attempt.rest, buf⟩
    | .ready n =>
        if n = 0 ∧ buf = [] then ⟨.ready .eof, attempt.rest, buf⟩
        else if remaining ≤ n ∧ buf.getLast? ≠ some newline then
          ⟨.ready .overLimit, attempt.rest, buf⟩
        else ⟨.ready .line, attempt.rest, buf⟩

/-- How the loop stops reading. -/
inductive ReadStop where
  | eof
  | overLimit
  | failed
  deriving DecidableEq

/-- The reading side of the loop, with the lines it was given so far. -/
structure LineLoop where
  reader : List (Arrival UInt8)
  buf : Bytes := []
  lines : List Bytes := []
  stop : Option ReadStop := none

namespace LineLoop

/-- One more call of the reader. A dropped call is made again in a later turn
of the loop, with the same buffer. -/
def next (readUntil : ReadUntil) (maxBytes : ℕ) (s : LineLoop) : LineLoop :=
  match s.stop with
  | some _ => s
  | none =>
      let read := readBoundedLine readUntil s.reader s.buf maxBytes
      let s := { s with reader := read.reader, buf := read.buf }
      match read.result with
      | .ready .line => { s with lines := s.lines ++ [read.buf], buf := [] }
      | .ready .eof => { s with stop := some .eof }
      | .ready .overLimit => { s with stop := some .overLimit }
      | .failed => { s with stop := some .failed }
      | .dropped => s

/-- The loop after so many calls. -/
def afterCalls (readUntil : ReadUntil) (maxBytes : ℕ)
    (reader : List (Arrival UInt8)) (calls : ℕ) : LineLoop :=
  (next readUntil maxBytes)^[calls] { reader }

end LineLoop

/-! ## Budgets -/

/-- The bytes go over the budget before a newline comes. -/
def OverBudget (maxBytes : ℕ) (bs : Bytes) : Prop :=
  maxBytes ≤ bs.length ∧ newline ∉ bs.take maxBytes

instance (maxBytes : ℕ) : DecidablePred (OverBudget maxBytes) :=
  fun bs => inferInstanceAs (Decidable (maxBytes ≤ bs.length ∧ newline ∉ bs.take maxBytes))

/-- The lines of a stream before the first one that is over the budget. -/
def linesInBudget (maxBytes : ℕ) (stream : Bytes) : List Bytes :=
  (pieces newline stream).takeWhile fun line => ¬ OverBudget maxBytes line

section

variable {maxBytes : ℕ} {line rest stream : Bytes}

/-- A stream that goes over the budget does so in its first line. -/
theorem linesInBudget_of_overBudget (h : OverBudget maxBytes stream) :
    linesInBudget maxBytes stream = [] := by
  obtain ⟨hlong, hno⟩ := h
  by_cases hmem : newline ∈ stream
  · obtain ⟨before, after, rfl, hbefore⟩ := List.eq_append_cons_of_mem hmem
    have hle : maxBytes ≤ before.length := by
      by_contra hlt
      apply hno
      have hsplit : before ++ newline :: after = (before ++ [newline]) ++ after := by
        simp
      rw [hsplit, List.take_append, List.take_of_length_le (by simp; omega)]
      simp
    have hover : OverBudget maxBytes (before ++ [newline]) := by
      constructor
      · rw [List.length_append]
        omega
      · rw [List.take_append_of_le_length hle]
        exact fun hin => hbefore (List.mem_of_mem_take hin)
    rw [linesInBudget, pieces_append_cons hbefore]
    simp [hover]
  · by_cases hnil : stream = []
    · simp [linesInBudget, hnil, pieces]
    · have hover : OverBudget maxBytes stream := ⟨hlong, hno⟩
      rw [linesInBudget, pieces_of_not_mem hmem hnil]
      simp [hover]

/-- A line that is closed within the budget is the first of the stream. -/
theorem linesInBudget_closed (hno : newline ∉ line) (hlength : line.length < maxBytes)
    (rest : Bytes) :
    linesInBudget maxBytes (line ++ newline :: rest) =
      (line ++ [newline]) :: linesInBudget maxBytes rest := by
  have hfits : ¬ OverBudget maxBytes (line ++ [newline]) := by
    rintro ⟨-, hnone⟩
    apply hnone
    rw [List.take_of_length_le (by simp; omega)]
    simp
  rw [linesInBudget, pieces_append_cons hno]
  simp [hfits, linesInBudget]

/-- What is left without a newline, within the budget, is the last line. -/
theorem linesInBudget_last (hno : newline ∉ line) (hlength : line.length < maxBytes)
    (hne : line ≠ []) : linesInBudget maxBytes line = [line] := by
  have hfits : ¬ OverBudget maxBytes line := fun h => by
    have hle := h.1
    omega
  rw [linesInBudget, pieces_of_not_mem hno hne]
  simp [hfits]

end

/-! ## One call -/

/-- The buffer has used up the budget without a newline. -/
theorem overBudget_of_full {maxBytes : ℕ} {buf : Bytes} (hno : newline ∉ buf)
    (hlength : buf.length = maxBytes) (unread : Bytes) :
    OverBudget maxBytes (buf ++ unread) := by
  constructor
  · rw [List.length_append]
    omega
  · rw [List.take_left' hlength]
    exact hno

/-- A list whose only delimiter can be its last element, and is not. -/
theorem not_mem_of_dropLast {bs : Bytes} (hinit : newline ∉ bs.dropLast)
    (hlast : bs.getLast? ≠ some newline) : newline ∉ bs := by
  intro hmem
  by_cases hnil : bs = []
  · simp [hnil] at hmem
  · rw [← List.dropLast_append_getLast hnil, List.mem_append, List.mem_singleton] at hmem
    rcases hmem with hmem | heq
    · exact hinit hmem
    · exact hlast (by rw [List.getLast?_eq_some_getLast hnil, heq])

/-- What a call makes of the reader and of a buffer without a newline. -/
structure LineRead.Spec (maxBytes : ℕ) (reader : List (Arrival UInt8)) (buf : Bytes)
    (read : LineRead) : Prop where
  kept : buf ++ unread reader = read.buf ++ unread read.reader
  length_le : read.buf.length ≤ maxBytes
  drops_le : drops read.reader ≤ drops reader
  failure_mem : .failure ∈ read.reader → .failure ∈ reader
  dropped : read.result = .dropped →
    newline ∉ read.buf ∧ drops read.reader < drops reader
  failed : read.result = .failed → .failure ∈ reader
  eof : read.result = .ready .eof →
    read.buf ++ unread read.reader = [] ∧ 0 < maxBytes
  overLimit : read.result = .ready .overLimit →
    OverBudget maxBytes (read.buf ++ unread read.reader)
  line : read.result = .ready .line → read.buf ≠ [] ∧
    linesInBudget maxBytes (read.buf ++ unread read.reader) =
      read.buf :: linesInBudget maxBytes (unread read.reader)

section

variable {readUntil : ReadUntil} {maxBytes limit n : ℕ}
  {reader : List (Arrival UInt8)} {buf : Bytes}

/-- A line that is returned is the next one of the stream. -/
theorem linesInBudget_returned {attempt : Attempt UInt8}
    (hattempt : ReadsUntil newline limit reader attempt)
    (hready : attempt.result = .ready n) (hno : newline ∉ buf)
    (hbuf : buf.length + limit = maxBytes)
    (hsome : ¬ (n = 0 ∧ buf ++ attempt.appended = []))
    (hfits : ¬ (limit ≤ n ∧ (buf ++ attempt.appended).getLast? ≠ some newline)) :
    buf ++ attempt.appended ≠ [] ∧
      linesInBudget maxBytes (buf ++ attempt.appended ++ unread attempt.rest) =
        (buf ++ attempt.appended) :: linesInBudget maxBytes (unread attempt.rest) := by
  obtain ⟨hn, hend⟩ := hattempt.ready n hready
  have hlimited := hattempt.limited
  have hne : buf ++ attempt.appended ≠ [] := by
    intro hnil
    rw [List.append_eq_nil_iff] at hnil
    exact hsome ⟨by simp [hn, hnil.2], by simp [hnil]⟩
  refine ⟨hne, ?_⟩
  by_cases hnewline : newline ∈ attempt.appended
  · -- the newline is the last byte read
    have happended : attempt.appended ≠ [] := List.ne_nil_of_mem hnewline
    have hlast : attempt.appended = attempt.appended.dropLast ++ [newline] := by
      by_contra hother
      apply not_mem_of_dropLast hattempt.upTo _ hnewline
      rw [List.getLast?_eq_some_getLast happended]
      intro heq
      apply hother
      rw [← Option.some.inj heq, List.dropLast_append_getLast]
    have hlength := congrArg List.length hlast
    rw [List.length_append, List.length_singleton] at hlength
    have hbefore : newline ∉ buf ++ attempt.appended.dropLast := by
      simp [hno, hattempt.upTo]
    have hshort : (buf ++ attempt.appended.dropLast).length < maxBytes := by
      rw [List.length_append]
      omega
    have hclosed := linesInBudget_closed hbefore hshort (unread attempt.rest)
    have hwhole : buf ++ attempt.appended =
        buf ++ attempt.appended.dropLast ++ [newline] := by
      rw [List.append_assoc, ← hlast]
    rw [hwhole, List.append_assoc _ [newline], List.singleton_append, hclosed]
  · have hnone : newline ∉ buf ++ attempt.appended := by simp [hno, hnewline]
    have hlast : (buf ++ attempt.appended).getLast? ≠ some newline :=
      fun heq => hnone (List.mem_of_getLast? heq)
    have hshort : n < limit := by
      by_contra hle
      exact hfits ⟨Nat.le_of_not_lt hle, hlast⟩
    have hrest : unread attempt.rest = [] := by
      rcases hend with hmem | hfull | hrest
      · exact absurd hmem hnewline
      · omega
      · exact hrest
    have hbudget : (buf ++ attempt.appended).length < maxBytes := by
      rw [List.length_append]
      omega
    rw [hrest, List.append_nil, linesInBudget_last hnone hbudget hne]
    rfl

/-- A call that spent the budget without coming to a newline found a line over
the budget. -/
theorem overBudget_returned {attempt : Attempt UInt8}
    (hattempt : ReadsUntil newline limit reader attempt)
    (hready : attempt.result = .ready n) (hno : newline ∉ buf)
    (hbuf : buf.length + limit = maxBytes)
    (hfull : limit ≤ n ∧ (buf ++ attempt.appended).getLast? ≠ some newline) :
    OverBudget maxBytes (buf ++ attempt.appended ++ unread attempt.rest) := by
  obtain ⟨hn, -⟩ := hattempt.ready n hready
  have hlimited := hattempt.limited
  apply overBudget_of_full
  · apply not_mem_of_dropLast _ hfull.2
    intro hmem
    by_cases hnil : attempt.appended = []
    · rw [hnil, List.append_nil] at hmem
      exact hno (List.dropLast_subset _ hmem)
    · rw [List.dropLast_append_of_ne_nil hnil, List.mem_append] at hmem
      exact hmem.elim hno hattempt.upTo
  · rw [List.length_append]
    omega

/-- An attempt that read nothing into an empty buffer met the end. -/
theorem unread_eq_nil_of_eof {attempt : Attempt UInt8}
    (hattempt : ReadsUntil newline limit reader attempt)
    (hready : attempt.result = .ready n) (hpos : 0 < limit) (hn : n = 0)
    (hnil : buf ++ attempt.appended = []) :
    buf ++ attempt.appended ++ unread attempt.rest = [] := by
  obtain ⟨hlength, hend⟩ := hattempt.ready n hready
  rcases hend with hmem | hfull | hrest
  · rw [List.append_eq_nil_iff] at hnil
    simp [hnil.2] at hmem
  · omega
  · rw [hnil, hrest]
    rfl

/-- What an attempt leaves, with the result that is made of it. -/
theorem LineRead.spec_of_attempt {attempt : Attempt UInt8}
    {result : ReadEnd BoundedLine}
    (hattempt : ReadsUntil newline limit reader attempt)
    (hbuf : buf.length + limit = maxBytes)
    (hdropped : result = .dropped → newline ∉ buf ++ attempt.appended ∧
      drops attempt.rest < drops reader)
    (hfailed : result = .failed → .failure ∈ reader)
    (heof : result = .ready .eof →
      buf ++ attempt.appended ++ unread attempt.rest = [] ∧ 0 < maxBytes)
    (hover : result = .ready .overLimit →
      OverBudget maxBytes (buf ++ attempt.appended ++ unread attempt.rest))
    (hline : result = .ready .line → buf ++ attempt.appended ≠ [] ∧
      linesInBudget maxBytes (buf ++ attempt.appended ++ unread attempt.rest) =
        (buf ++ attempt.appended) :: linesInBudget maxBytes (unread attempt.rest)) :
    LineRead.Spec maxBytes reader buf
      ⟨result, attempt.rest, buf ++ attempt.appended⟩ where
  kept := by rw [hattempt.kept, List.append_assoc]
  length_le := by
    have hlimited := hattempt.limited
    rw [List.length_append]
    omega
  drops_le := hattempt.drops_le
  failure_mem := hattempt.failure_mem
  dropped := hdropped
  failed := hfailed
  eof := heof
  overLimit := hover
  line := hline

/-- One call of the reader. -/
theorem readBoundedLine_spec
    (hread : ∀ limit reader, ReadsUntil newline limit reader (readUntil limit reader))
    (hno : newline ∉ buf) (hle : buf.length ≤ maxBytes) :
    (readBoundedLine readUntil reader buf maxBytes).Spec maxBytes reader buf := by
  by_cases hzero : maxBytes - buf.length = 0
  · have hcall : readBoundedLine readUntil reader buf maxBytes =
        ⟨.ready .overLimit, reader, buf⟩ := by
      simp [readBoundedLine, hzero]
    have hover := overBudget_of_full hno (by omega : buf.length = maxBytes) (unread reader)
    rw [hcall]
    constructor <;> simp [hle, hover]
  · have hattempt := hread (maxBytes - buf.length) reader
    have hbuf : buf.length + (maxBytes - buf.length) = maxBytes := by omega
    generalize hlimit : maxBytes - buf.length = limit at hattempt hzero hbuf
    generalize hdone : readUntil limit reader = attempt at hattempt
    cases hresult : attempt.result with
    | dropped =>
        have hcall : readBoundedLine readUntil reader buf maxBytes =
            ⟨.dropped, attempt.rest, buf ++ attempt.appended⟩ := by
          simp [readBoundedLine, hlimit, hzero, hdone, hresult]
        have hdropped := hattempt.dropped hresult
        rw [hcall]
        refine LineRead.spec_of_attempt hattempt hbuf ?_ (by simp) (by simp) (by simp)
          (by simp)
        exact fun _ => ⟨by simp [hno, hdropped.1], hdropped.2.2⟩
    | failed =>
        have hcall : readBoundedLine readUntil reader buf maxBytes =
            ⟨.failed, attempt.rest, buf ++ attempt.appended⟩ := by
          simp [readBoundedLine, hlimit, hzero, hdone, hresult]
        rw [hcall]
        exact LineRead.spec_of_attempt hattempt hbuf (by simp)
          (fun _ => hattempt.failed hresult) (by simp) (by simp) (by simp)
    | ready n =>
        by_cases hend : n = 0 ∧ buf ++ attempt.appended = []
        · have hcall : readBoundedLine readUntil reader buf maxBytes =
              ⟨.ready .eof, attempt.rest, buf ++ attempt.appended⟩ := by
            simp only [readBoundedLine, hlimit, hdone, hresult, if_neg hzero, if_pos hend]
          have hnothing := unread_eq_nil_of_eof hattempt hresult (Nat.pos_of_ne_zero hzero)
            hend.1 hend.2
          rw [hcall]
          exact LineRead.spec_of_attempt hattempt hbuf (by simp) (by simp)
            (fun _ => ⟨hnothing, by omega⟩) (by simp) (by simp)
        · by_cases hfull : limit ≤ n ∧
              (buf ++ attempt.appended).getLast? ≠ some newline
          · have hcall : readBoundedLine readUntil reader buf maxBytes =
                ⟨.ready .overLimit, attempt.rest, buf ++ attempt.appended⟩ := by
              simp only [readBoundedLine, hlimit, hdone, hresult, if_neg hzero,
                if_neg hend, if_pos hfull]
            rw [hcall]
            exact LineRead.spec_of_attempt hattempt hbuf (by simp) (by simp) (by simp)
              (fun _ => overBudget_returned hattempt hresult hno hbuf hfull) (by simp)
          · have hcall : readBoundedLine readUntil reader buf maxBytes =
                ⟨.ready .line, attempt.rest, buf ++ attempt.appended⟩ := by
              simp only [readBoundedLine, hlimit, hdone, hresult, if_neg hzero,
                if_neg hend, if_neg hfull]
            rw [hcall]
            exact LineRead.spec_of_attempt hattempt hbuf (by simp) (by simp) (by simp)
              (by simp)
              (fun _ => linesInBudget_returned hattempt hresult hno hbuf hend hfull)

end

/-! ## The loop -/

/-- What the loop has read, and what is left to it: the lines so far are the
first ones of the stream. -/
structure LineLoop.Reads (maxBytes : ℕ) (arrivals : List (Arrival UInt8))
    (s : LineLoop) : Prop where
  whole : unread arrivals = s.lines.flatten ++ (s.buf ++ unread s.reader)
  lines : linesInBudget maxBytes (unread arrivals) =
    s.lines ++ linesInBudget maxBytes (s.buf ++ unread s.reader)
  buf_le : s.buf.length ≤ maxBytes
  failure_mem : .failure ∈ s.reader → .failure ∈ arrivals
  reading : s.stop = none → newline ∉ s.buf
  eof : s.stop = some .eof → s.buf ++ unread s.reader = [] ∧ 0 < maxBytes
  overLimit : s.stop = some .overLimit →
    OverBudget maxBytes (s.buf ++ unread s.reader)
  failed : s.stop = some .failed → .failure ∈ arrivals

namespace LineLoop

/-- What the loop can still do before it stops. -/
def pending (s : LineLoop) : ℕ :=
  (s.buf ++ unread s.reader).length + drops s.reader

section

variable {readUntil : ReadUntil} {maxBytes : ℕ} {arrivals : List (Arrival UInt8)}
  {s : LineLoop}

theorem reads_start (maxBytes : ℕ) (arrivals : List (Arrival UInt8)) :
    Reads maxBytes arrivals { reader := arrivals } where
  whole := rfl
  lines := rfl
  buf_le := Nat.zero_le _
  failure_mem := id
  reading := by simp
  eof := by simp
  overLimit := by simp
  failed := by simp

theorem next_of_stop {stop : ReadStop} (h : s.stop = some stop) :
    next readUntil maxBytes s = s := by
  simp [next, h]

/-- A call that ends the loop. -/
theorem Reads.stopAt {read : LineRead} {stop : ReadStop}
    (h : Reads maxBytes arrivals s) (hread : read.Spec maxBytes s.reader s.buf)
    (heof : stop = .eof → read.buf ++ unread read.reader = [] ∧ 0 < maxBytes)
    (hover : stop = .overLimit → OverBudget maxBytes (read.buf ++ unread read.reader))
    (hfailed : stop = .failed → .failure ∈ s.reader) :
    Reads maxBytes arrivals
      { s with reader := read.reader, buf := read.buf, stop := some stop } where
  whole := by rw [h.whole, hread.kept]
  lines := by rw [h.lines, hread.kept]
  buf_le := hread.length_le
  failure_mem := fun hmem => h.failure_mem (hread.failure_mem hmem)
  reading := by simp
  eof := fun hstop => heof (Option.some.inj hstop)
  overLimit := fun hstop => hover (Option.some.inj hstop)
  failed := fun hstop => h.failure_mem (hfailed (Option.some.inj hstop))

/-- A call that was dropped leaves its bytes in the buffer. -/
theorem Reads.drop {read : LineRead} (h : Reads maxBytes arrivals s)
    (hread : read.Spec maxBytes s.reader s.buf) (hstop : s.stop = none)
    (hdropped : read.result = .dropped) :
    Reads maxBytes arrivals { s with reader := read.reader, buf := read.buf } where
  whole := by rw [h.whole, hread.kept]
  lines := by rw [h.lines, hread.kept]
  buf_le := hread.length_le
  failure_mem := fun hmem => h.failure_mem (hread.failure_mem hmem)
  reading := fun _ => (hread.dropped hdropped).1
  eof := by simp [hstop]
  overLimit := by simp [hstop]
  failed := by simp [hstop]

/-- A line that was returned goes to the lines, and the buffer is cleared. -/
theorem Reads.line {read : LineRead} (h : Reads maxBytes arrivals s)
    (hread : read.Spec maxBytes s.reader s.buf) (hstop : s.stop = none)
    (hline : read.result = .ready .line) :
    Reads maxBytes arrivals
      { s with
        reader := read.reader, lines := s.lines ++ [read.buf], buf := [] } where
  whole := by simp [h.whole, hread.kept]
  lines := by simp [h.lines, hread.kept, (hread.line hline).2]
  buf_le := Nat.zero_le _
  failure_mem := fun hmem => h.failure_mem (hread.failure_mem hmem)
  reading := by simp
  eof := by simp [hstop]
  overLimit := by simp [hstop]
  failed := by simp [hstop]

/-- One call keeps what the loop has read, and stops the loop or brings it
nearer to its end. -/
theorem Reads.next
    (hread : ∀ limit reader, ReadsUntil newline limit reader (readUntil limit reader))
    (h : Reads maxBytes arrivals s) (hstop : s.stop = none) :
    Reads maxBytes arrivals (s.next readUntil maxBytes) ∧
      ((s.next readUntil maxBytes).stop = none →
        (s.next readUntil maxBytes).pending < s.pending) := by
  have hspec : LineRead.Spec maxBytes s.reader s.buf
      (readBoundedLine readUntil s.reader s.buf maxBytes) :=
    readBoundedLine_spec hread (h.reading hstop) h.buf_le
  generalize hcall : readBoundedLine readUntil s.reader s.buf maxBytes = read at hspec
  have hpending : s.pending = (read.buf ++ unread read.reader).length + drops s.reader := by
    rw [pending, hspec.kept]
  cases hresult : read.result with
  | dropped =>
      have hnext : s.next readUntil maxBytes =
          { s with reader := read.reader, buf := read.buf } := by
        simp [LineLoop.next, hstop, hcall, hresult]
      rw [hnext]
      refine ⟨h.drop hspec hstop hresult, fun _ => ?_⟩
      rw [hpending]
      exact Nat.add_lt_add_left (hspec.dropped hresult).2 _
  | failed =>
      have hnext : s.next readUntil maxBytes =
          { s with reader := read.reader, buf := read.buf, stop := some .failed } := by
        simp [LineLoop.next, hstop, hcall, hresult]
      rw [hnext]
      refine ⟨?_, by simp⟩
      exact h.stopAt hspec (by simp) (by simp) fun _ => hspec.failed hresult
  | ready found =>
      cases found with
      | line =>
          have hnext : s.next readUntil maxBytes =
              { s with
                reader := read.reader, lines := s.lines ++ [read.buf], buf := [] } := by
            simp [LineLoop.next, hstop, hcall, hresult]
          have hpos : 0 < read.buf.length :=
            List.length_pos_iff.mpr (hspec.line hresult).1
          have hdrops := hspec.drops_le
          rw [hnext]
          refine ⟨h.line hspec hstop hresult, fun _ => ?_⟩
          rw [hpending, pending, List.length_append, List.length_append,
            List.length_nil]
          dsimp only
          omega
      | eof =>
          have hnext : s.next readUntil maxBytes =
              { s with reader := read.reader, buf := read.buf, stop := some .eof } := by
            simp [LineLoop.next, hstop, hcall, hresult]
          rw [hnext]
          refine ⟨?_, by simp⟩
          exact h.stopAt hspec (fun _ => hspec.eof hresult) (by simp) (by simp)
      | overLimit =>
          have hnext : s.next readUntil maxBytes =
              { s with
                reader := read.reader, buf := read.buf, stop := some .overLimit } := by
            simp [LineLoop.next, hstop, hcall, hresult]
          rw [hnext]
          refine ⟨?_, by simp⟩
          exact h.stopAt hspec (by simp) (fun _ => hspec.overLimit hresult) (by simp)

/-- Over any number of calls. -/
theorem reads_afterCalls
    (hread : ∀ limit reader, ReadsUntil newline limit reader (readUntil limit reader))
    (arrivals : List (Arrival UInt8)) (calls : ℕ) :
    Reads maxBytes arrivals (afterCalls readUntil maxBytes arrivals calls) := by
  induction calls with
  | zero => exact reads_start maxBytes arrivals
  | succ calls ih =>
      rw [afterCalls, Function.iterate_succ_apply', ← afterCalls]
      cases hstop : (afterCalls readUntil maxBytes arrivals calls).stop with
      | none => exact (ih.next hread hstop).1
      | some stop =>
          rw [next_of_stop hstop]
          exact ih

/-- The loop stops. -/
theorem exists_stop
    (hread : ∀ limit reader, ReadsUntil newline limit reader (readUntil limit reader))
    (maxBytes : ℕ) (arrivals : List (Arrival UInt8)) :
    ∃ calls stop, (afterCalls readUntil maxBytes arrivals calls).stop = some stop := by
  by_contra hnever
  have hreading : ∀ calls,
      (afterCalls readUntil maxBytes arrivals calls).stop = none := by
    intro calls
    by_contra hsome
    obtain ⟨stop, hstop⟩ := Option.ne_none_iff_exists'.mp hsome
    exact hnever ⟨calls, stop, hstop⟩
  have hbound : ∀ calls,
      (afterCalls readUntil maxBytes arrivals calls).pending + calls ≤
        (afterCalls readUntil maxBytes arrivals 0).pending := by
    intro calls
    induction calls with
    | zero => exact le_rfl
    | succ calls ih =>
        have hstep := ((reads_afterCalls hread arrivals calls).next hread
          (hreading calls)).2
        have hnext := hreading (calls + 1)
        rw [afterCalls, Function.iterate_succ_apply', ← afterCalls] at hnext ⊢
        have hless := hstep hnext
        omega
  have hlast := hbound ((afterCalls readUntil maxBytes arrivals 0).pending + 1)
  omega

end

end LineLoop

/-- However the stream is cut and whenever calls are dropped, the buffer keeps
to the budget and the lines returned at any time are the first ones of the
stream. The loop stops, and unless a read failed it has then returned all lines
before the first one over the budget; it stops over the limit exactly when what
follows the lines returned goes over the budget. -/
theorem boundedLines (readUntil : ReadUntil)
    (hread : ∀ limit reader, ReadsUntil newline limit reader (readUntil limit reader))
    (maxBytes : ℕ) (arrivals : List (Arrival UInt8)) :
    (∀ calls,
      (LineLoop.afterCalls readUntil maxBytes arrivals calls).buf.length ≤ maxBytes ∧
      (LineLoop.afterCalls readUntil maxBytes arrivals calls).lines <+:
        linesInBudget maxBytes (unread arrivals)) ∧
    ∃ calls stop,
      (LineLoop.afterCalls readUntil maxBytes arrivals calls).stop = some stop ∧
      (stop = .failed → .failure ∈ arrivals) ∧
      (stop ≠ .failed →
        (LineLoop.afterCalls readUntil maxBytes arrivals calls).lines =
          linesInBudget maxBytes (unread arrivals) ∧
        (stop = .overLimit ↔ ∃ rest, OverBudget maxBytes rest ∧ unread arrivals =
          (LineLoop.afterCalls readUntil maxBytes arrivals calls).lines.flatten ++
            rest)) := by
  constructor
  · intro calls
    have hreads : LineLoop.Reads maxBytes arrivals
        (LineLoop.afterCalls readUntil maxBytes arrivals calls) :=
      LineLoop.reads_afterCalls hread arrivals calls
    exact ⟨hreads.buf_le, _, hreads.lines.symm⟩
  · obtain ⟨calls, stop, hstop⟩ := LineLoop.exists_stop hread maxBytes arrivals
    have hreads : LineLoop.Reads maxBytes arrivals
        (LineLoop.afterCalls readUntil maxBytes arrivals calls) :=
      LineLoop.reads_afterCalls hread arrivals calls
    refine ⟨calls, stop, hstop, ?_, ?_⟩
    · intro hfailed
      exact hreads.failed (hfailed ▸ hstop)
    · intro hsound
      have hwhole := hreads.whole
      have hlines := hreads.lines
      cases stop with
      | failed => exact absurd rfl hsound
      | eof =>
          obtain ⟨hempty, hpos⟩ := hreads.eof hstop
          rw [hempty] at hwhole hlines
          constructor
          · have hnone : linesInBudget maxBytes [] = [] := by simp [linesInBudget, pieces]
            rw [hlines, hnone, List.append_nil]
          · refine iff_of_false (by simp) ?_
            rintro ⟨rest, hover, hrest⟩
            rw [hwhole] at hrest
            have hnil : rest = [] := (List.append_cancel_left hrest).symm
            have hle := hover.1
            rw [hnil, List.length_nil] at hle
            omega
      | overLimit =>
          have hover := hreads.overLimit hstop
          rw [linesInBudget_of_overBudget hover, List.append_nil] at hlines
          exact ⟨hlines.symm, iff_of_true rfl ⟨_, hover, hwhole⟩⟩

/-- A line of four bytes that arrives in two pieces, with a drop between them,
and a last line without a newline: both are returned within a budget of four. -/
theorem boundedLines_four :
    let arrivals : List (Arrival UInt8) :=
      [.data [97, 98], .dropped, .data [99, 10, 100], .dropped, .data [101]]
    linesInBudget 4 (unread arrivals) = [[97, 98, 99, 10], [100, 101]] ∧
      ∃ calls stop,
        (LineLoop.afterCalls (readUntil newline) 4 arrivals calls).stop = some stop ∧
        (stop ≠ .failed →
          (LineLoop.afterCalls (readUntil newline) 4 arrivals calls).lines =
            linesInBudget 4 (unread arrivals)) := by
  refine ⟨by decide +kernel, ?_⟩
  obtain ⟨calls, stop, hstop, -, hlines⟩ :=
    (boundedLines (readUntil newline) (readUntil_readsUntil newline) 4
      [.data [97, 98], .dropped, .data [99, 10, 100], .dropped, .data [101]]).2
  exact ⟨calls, stop, hstop, fun hsound => (hlines hsound).1⟩

end ReserveGrid.Gateway
