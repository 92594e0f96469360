import Mathlib.Data.List.Infix
import ReserveGrid.Support.Lines

/-!
# Lines over a byte stream

One direction of a connection. The writer sends lines, each closed by a line feed.
The bytes arrive in their order, and the stream may break off after any of them.
The reader takes what stands up to the next line feed, and at the end of a broken
stream what is left. What it has read are then the first lines that were written,
of which only the last may be cut short.
-/

namespace ReserveGrid.Support

/-- A line feed closes the line, and no other stands in it. -/
def IsWholeLine (line : Bytes) : Prop := ∃ text, 10 ∉ text ∧ line = text ++ [10]

/-- The first lines, the last of them perhaps cut short. -/
def Truncates (read written : List Bytes) : Prop :=
  read <+: written ∨
    ∃ whole line part later, written = whole ++ line :: later ∧ part <+: line ∧
      read = whole ++ [part]

section

variable {read written : List Bytes}

theorem Truncates.append (h : Truncates read written) (more : List Bytes) :
    Truncates read (written ++ more) := by
  rcases h with h | ⟨whole, line, part, later, rfl, hpart, rfl⟩
  · exact .inl (h.trans (List.prefix_append _ _))
  · exact .inr ⟨whole, line, part, later ++ more, by simp, hpart, rfl⟩

/-- A line that was read is the first part of one that was written. -/
theorem Truncates.exists_prefix {l : Bytes} (h : Truncates read written) (hl : l ∈ read) :
    ∃ line ∈ written, l <+: line := by
  rcases h with h | ⟨whole, line, part, later, rfl, hpart, rfl⟩
  · exact ⟨l, h.subset hl, List.prefix_rfl⟩
  · rcases List.mem_append.mp hl with hl | hl
    · exact ⟨l, List.mem_append_left _ hl, List.prefix_rfl⟩
    · refine ⟨line, by simp, ?_⟩
      rw [List.mem_singleton.mp hl]
      exact hpart

/-- Where a part of a line gives what the line gives or nothing, what the lines that
were read give comes from the lines that were written, in order and once. -/
theorem Truncates.filterMap_prefix {α : Type*} {f : Bytes → Option α}
    (h : Truncates read written)
    (hf : ∀ line ∈ written, ∀ part, part <+: line → f part = none ∨ f part = f line) :
    read.filterMap f <+: written.filterMap f := by
  rcases h with h | ⟨whole, line, part, later, rfl, hpart, rfl⟩
  · exact h.filterMap f
  · rw [List.filterMap_append, List.filterMap_append, List.prefix_append_right_inj]
    rcases hf line (by simp) part hpart with hnone | hline
    · simp [hnone]
    · rw [List.filterMap_cons, List.filterMap_cons, hline]
      rcases f line with _ | a
      · exact List.nil_prefix
      · exact List.cons_prefix_cons.mpr ⟨rfl, List.nil_prefix⟩

/-- Where no line is bad, one that was read is at most once. -/
theorem Truncates.countP_le {bad : Bytes → Bool} (h : Truncates read written)
    (hgood : ∀ line ∈ written, bad line = false) : read.countP bad ≤ 1 := by
  have hzero : ∀ ls : List Bytes, (∀ line ∈ ls, line ∈ written) → ls.countP bad = 0 := by
    intro ls hls
    rw [List.countP_eq_zero]
    intro line hline
    rw [hgood line (hls line hline)]
    exact Bool.false_ne_true
  rcases h with h | ⟨whole, line, part, later, rfl, hpart, rfl⟩
  · rw [hzero read fun line hline => h.subset hline]
    exact Nat.zero_le 1
  · rw [List.countP_append, hzero whole fun line hline => by simp [hline], Nat.zero_add]
    exact List.countP_le_length

end

/-- A stream of lines: those written and those read, and the bytes under way. -/
structure Pipe where
  written : List Bytes := []
  read : List Bytes := []
  pending : Bytes := []
  broken : Bool := false

namespace Pipe

/-- A line is written. What is written to a broken stream is lost. -/
def write (p : Pipe) (line : Bytes) : Pipe :=
  { p with
    written := p.written ++ [line]
    pending := if p.broken then p.pending else p.pending ++ line }

def writes (p : Pipe) (lines : List Bytes) : Pipe := lines.foldl write p

/-- The stream breaks off, and of the bytes under way the first still arrive. -/
def cut (p : Pipe) (n : ℕ) : Pipe :=
  { p with pending := p.pending.take n, broken := true }

/-- The next line, if the stream has it. -/
def next (p : Pipe) : Option (Bytes × Pipe) :=
  let line := p.pending.takeWhile (· ≠ 10) ++ [10]
  if 10 ∈ p.pending then
    some (line, { p with
      read := p.read ++ [line]
      pending := p.pending.drop line.length })
  else if p.broken ∧ p.pending ≠ [] then
    some (p.pending, { p with read := p.read ++ [p.pending], pending := [] })
  else none

/-- The bytes under way are the next of the lines that were not read, unless the last
line was cut short. -/
structure Sound (p : Pipe) : Prop where
  closed : ∀ line ∈ p.written, IsWholeLine line
  rest : (∃ later, p.written = p.read ++ later ∧ p.pending <+: later.flatten ∧
      (p.broken = false → p.pending = later.flatten)) ∨
    (p.broken = true ∧ p.pending = [] ∧ Truncates p.read p.written)

section

variable {p q : Pipe} {line : Bytes}

theorem sound_new : ({} : Pipe).Sound :=
  ⟨fun _ h => absurd h List.not_mem_nil,
    .inl ⟨[], rfl, List.prefix_rfl, fun _ => rfl⟩⟩

theorem Sound.truncates (h : p.Sound) : Truncates p.read p.written := by
  rcases h.rest with ⟨later, hwritten, -, -⟩ | ⟨-, -, htruncates⟩
  · rw [hwritten]
    exact .inl (List.prefix_append _ _)
  · exact htruncates

theorem Sound.write (h : p.Sound) (hline : IsWholeLine line) : (p.write line).Sound := by
  refine ⟨?_, ?_⟩
  · intro l hl
    rcases List.mem_append.mp hl with hl | hl
    · exact h.closed l hl
    · rw [List.mem_singleton.mp hl]
      exact hline
  · rcases h.rest with ⟨later, hwritten, hpending, hwhole⟩ | ⟨hbroken, hnil, htruncates⟩
    · left
      refine ⟨later ++ [line], ?_, ?_, ?_⟩
      · change p.written ++ [line] = _
        rw [hwritten, List.append_assoc]
        rfl
      · change (if p.broken then _ else _) <+: _
        rw [List.flatten_append, List.flatten_singleton]
        split
        · exact hpending.trans (List.prefix_append _ _)
        · rw [hwhole (Bool.eq_false_of_not_eq_true ‹_›)]
      · intro hbroken
        change p.broken = false at hbroken
        change (if p.broken then _ else _) = _
        rw [hbroken, if_neg Bool.false_ne_true, hwhole hbroken, List.flatten_append,
          List.flatten_singleton]
    · right
      refine ⟨hbroken, ?_, htruncates.append _⟩
      change (if p.broken then _ else _) = _
      rw [if_pos hbroken, hnil]

@[simp] theorem writes_written (p : Pipe) (lines : List Bytes) :
    (p.writes lines).written = p.written ++ lines := by
  induction lines generalizing p with
  | nil => exact (List.append_nil _).symm
  | cons line lines ih =>
      change ((p.write line).writes lines).written = _
      rw [ih]
      change p.written ++ [line] ++ lines = _
      rw [List.append_assoc]
      rfl

@[simp] theorem writes_read (p : Pipe) (lines : List Bytes) :
    (p.writes lines).read = p.read := by
  induction lines generalizing p with
  | nil => rfl
  | cons line lines ih => exact ih (p.write line)

theorem Sound.writes {lines : List Bytes} (h : p.Sound)
    (hlines : ∀ line ∈ lines, IsWholeLine line) : (p.writes lines).Sound := by
  induction lines generalizing p with
  | nil => exact h
  | cons line lines ih =>
      exact ih (h.write (hlines line List.mem_cons_self))
        fun l hl => hlines l (List.mem_cons_of_mem _ hl)

theorem Sound.cut (h : p.Sound) (n : ℕ) : (p.cut n).Sound := by
  refine ⟨h.closed, ?_⟩
  rcases h.rest with ⟨later, hwritten, hpending, -⟩ | ⟨-, hnil, htruncates⟩
  · left
    refine ⟨later, hwritten, (List.take_prefix _ _).trans hpending, ?_⟩
    intro hbroken
    cases hbroken
  · right
    refine ⟨rfl, ?_, htruncates⟩
    change p.pending.take n = []
    rw [hnil, List.take_nil]

/-- What stands up to the first line feed is the next line. -/
theorem exists_next {pending : Bytes} {later : List Bytes} (hmem : 10 ∈ pending)
    (hpending : pending <+: later.flatten) (hclosed : ∀ line ∈ later, IsWholeLine line) :
    ∃ line rest tail, later = line :: rest ∧ pending = line ++ tail ∧
      pending.takeWhile (· ≠ 10) ++ [10] = line ∧ tail <+: rest.flatten ∧
      (pending = later.flatten → tail = rest.flatten) := by
  rcases later with _ | ⟨line, rest⟩
  · rw [List.flatten_nil, List.prefix_nil] at hpending
    rw [hpending] at hmem
    exact absurd hmem List.not_mem_nil
  · obtain ⟨text, htext, rfl⟩ := hclosed line List.mem_cons_self
    obtain ⟨before, tail, hsplit, hbefore⟩ := List.eq_append_cons_of_mem hmem
    obtain ⟨more, hmore⟩ := hpending
    rw [List.flatten_cons, List.append_assoc, List.singleton_append, hsplit,
      List.append_assoc, List.cons_append] at hmore
    obtain ⟨rfl, htail⟩ := append_separator_inj hbefore htext hmore
    refine ⟨before ++ [10], rest, tail, rfl, ?_, ?_, ⟨more, htail⟩, ?_⟩
    · rw [hsplit, List.append_assoc]
      rfl
    · have hbytes : ∀ b ∈ before, b ≠ 10 := fun b hb heq => hbefore (heq ▸ hb)
      rw [hsplit, List.takeWhile_append_of_pos (by simpa using hbytes),
        List.takeWhile_cons_of_neg (by simp), List.append_nil]
    · intro hall
      rw [hsplit, List.flatten_cons, List.append_assoc, List.singleton_append,
        List.append_cancel_left_eq] at hall
      exact (List.cons.inj hall).2

/-- Reading goes on in order. -/
theorem Sound.next (h : p.Sound) (hnext : p.next = some (line, q)) :
    q.Sound ∧ q.read = p.read ++ [line] ∧ q.written = p.written ∧ q.broken = p.broken := by
  rw [Pipe.next] at hnext
  split at hnext
  · rename_i hmem
    rcases h.rest with ⟨later, hwritten, hpending, hwhole⟩ | ⟨-, hnil, -⟩
    · have hclosed : ∀ line ∈ later, IsWholeLine line := by
        intro line hline
        apply h.closed
        rw [hwritten]
        exact List.mem_append_right _ hline
      obtain ⟨l, rest, tail, rfl, hsplit, htake, htail, hall⟩ :=
        exists_next hmem hpending hclosed
      rw [htake] at hnext
      cases hnext
      refine ⟨⟨h.closed, .inl ⟨rest, ?_, ?_, ?_⟩⟩, rfl, rfl, rfl⟩
      · change p.written = p.read ++ [line] ++ rest
        rw [hwritten, List.append_assoc]
        rfl
      · change p.pending.drop line.length <+: rest.flatten
        rw [hsplit, List.drop_left]
        exact htail
      · intro hbroken
        change p.pending.drop line.length = rest.flatten
        rw [hsplit, List.drop_left]
        exact hall (hwhole hbroken)
    · rw [hnil] at hmem
      exact absurd hmem List.not_mem_nil
  · rename_i hno
    split at hnext
    · rename_i hlast
      cases hnext
      refine ⟨⟨h.closed, .inr ⟨hlast.1, rfl, ?_⟩⟩, rfl, rfl, rfl⟩
      rcases h.rest with ⟨later, hwritten, hpending, -⟩ | ⟨-, hnil, -⟩
      · rcases later with _ | ⟨l, rest⟩
        · exact absurd (List.prefix_nil.mp hpending) hlast.2
        · right
          obtain ⟨text, htext, rfl⟩ : IsWholeLine l := by
            apply h.closed
            rw [hwritten]
            exact List.mem_append_right _ List.mem_cons_self
          refine ⟨p.read, text ++ [10], p.pending, rest, hwritten, ?_, rfl⟩
          rw [List.flatten_cons] at hpending
          rcases List.prefix_or_prefix_of_prefix hpending (List.prefix_append _ _) with
            hpart | hall
          · exact hpart
          · exact absurd (hall.subset (by simp)) hno
      · exact absurd hnil hlast.2
    · cases hnext

/-- A line that is written to an idle stream is the next one. -/
theorem next_write (hpending : p.pending = []) (hbroken : p.broken = false)
    (hline : IsWholeLine line) :
    (p.write line).next =
      some (line, { p.write line with read := p.read ++ [line], pending := [] }) := by
  obtain ⟨text, htext, rfl⟩ := hline
  have hunder : (p.write (text ++ [10])).pending = text ++ [10] := by
    change (if p.broken then _ else _) = _
    rw [hbroken, if_neg Bool.false_ne_true, hpending, List.nil_append]
  have hbytes : ∀ b ∈ text, b ≠ 10 := fun b hb heq => htext (heq ▸ hb)
  have htake : (text ++ [10]).takeWhile (· ≠ 10) = text := by
    rw [List.takeWhile_append_of_pos (by simpa using hbytes),
      List.takeWhile_cons_of_neg (by simp), List.append_nil]
  rw [Pipe.next, hunder, htake, if_pos (by simp), List.drop_length]
  rfl

/-- When nothing is under way in a stream that goes on, all was read. -/
theorem Sound.read_eq (h : p.Sound) (hbroken : p.broken = false) (hpending : p.pending = []) :
    p.read = p.written := by
  rcases h.rest with ⟨later, hwritten, -, hwhole⟩ | ⟨hcut, -, -⟩
  · have hflat : later.flatten = [] := (hwhole hbroken).symm.trans hpending
    rcases later with _ | ⟨l, rest⟩
    · rw [hwritten, List.append_nil]
    · obtain ⟨text, -, rfl⟩ : IsWholeLine l := by
        apply h.closed
        rw [hwritten]
        exact List.mem_append_right _ List.mem_cons_self
      simp at hflat
  · rw [hbroken] at hcut
    cases hcut

end

end Pipe

end ReserveGrid.Support
