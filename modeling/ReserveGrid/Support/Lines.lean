import ReserveGrid.Support.Bytes

/-!
# Newline-delimited byte files

A text file is a list of bytes. It is read line by line, a line being what
stands before a line feed, less one carriage return before it, or what is left
after the last line feed. A file made of whole lines, each closed by its own
line feed, reads back as these lines, and whole lines appended to it do not
merge with what was there.
-/

namespace ReserveGrid.Support

/-- Put a byte in front of the first line. -/
def consByte (b : UInt8) : List Bytes → List Bytes
  | [] => [[b]]
  | l :: ls => (b :: l) :: ls

/-- The lines of a file, without their terminators. -/
def lines : Bytes → List Bytes
  | [] => []
  | [b] => if b = 10 then [[]] else [[b]]
  | b :: c :: bs =>
      if b = 10 then [] :: lines (c :: bs)
      else if b = 13 ∧ c = 10 then lines (c :: bs)
      else consByte b (lines (c :: bs))

/-- A line that a line feed terminates without losing a byte: it holds no line
feed and does not end in a carriage return. -/
def IsLine (l : Bytes) : Prop :=
  10 ∉ l ∧ l.getLast? ≠ some 13

/-- Every line of the file has its terminator. -/
def Terminated (f : Bytes) : Prop :=
  f = [] ∨ f.getLast? = some 10

/-- The bytes of a list of lines, each with its terminator. -/
def unlines (ls : List Bytes) : Bytes :=
  ls.flatMap (· ++ [10])

@[simp] theorem lines_nil : lines [] = [] := by
  rw [lines]

theorem lines_lineFeed (bs : Bytes) : lines (10 :: bs) = [] :: lines bs := by
  cases bs <;> simp [lines]

theorem lines_cons_of_ne {b c : UInt8} {bs : Bytes}
    (hb : b ≠ 10) (hbc : ¬ (b = 13 ∧ c = 10)) :
    lines (b :: c :: bs) = consByte b (lines (c :: bs)) := by
  rw [lines, if_neg hb, if_neg hbc]

theorem lines_append_lineFeed {l : Bytes} (hl : IsLine l) (bs : Bytes) :
    lines (l ++ 10 :: bs) = l :: lines bs := by
  induction l with
  | nil => exact lines_lineFeed bs
  | cons b l ih =>
      obtain ⟨hno, hlast⟩ := hl
      have hb : b ≠ 10 := fun h => hno (by simp [h])
      cases l with
      | nil =>
          have hcr : b ≠ 13 := fun h => hlast (by simp [h])
          rw [List.cons_append, List.nil_append, lines_cons_of_ne hb (by simp [hcr]),
            lines_lineFeed]
          rfl
      | cons c l =>
          have hc : c ≠ 10 := fun h => hno (by simp [h])
          have hrest : IsLine (c :: l) := by
            refine ⟨fun h => hno (by simp [h]), ?_⟩
            simpa using hlast
          rw [List.cons_append, List.cons_append,
            lines_cons_of_ne hb (by simp [hc]), ← List.cons_append, ih hrest]
          rfl

theorem lines_cons_ne_nil (b : UInt8) (bs : Bytes) : lines (b :: bs) ≠ [] := by
  induction bs generalizing b with
  | nil =>
      rw [lines]
      split <;> simp
  | cons c bs ih =>
      rw [lines]
      split
      · simp
      · split
        · exact ih c
        · cases h : lines (c :: bs) <;> simp [consByte]

theorem Terminated.tail {b c : UInt8} {bs : Bytes}
    (h : Terminated (b :: c :: bs)) :
    Terminated (c :: bs) := by
  rcases h with h | h
  · simp at h
  · exact Or.inr (by simpa using h)

/-- What follows a terminated file is read on lines of its own. -/
theorem lines_append_of_terminated {f : Bytes} (hf : Terminated f)
    (g : Bytes) :
    lines (f ++ g) = lines f ++ lines g := by
  match f with
  | [] => simp
  | [b] =>
      have hb : b = 10 := by simpa [Terminated] using hf
      subst hb
      simp [lines_lineFeed]
  | b :: c :: bs =>
      have ih := lines_append_of_terminated hf.tail g
      by_cases hb : b = 10
      · subst hb
        rw [List.cons_append, lines_lineFeed, lines_lineFeed, ih]
        rfl
      · by_cases hbc : b = 13 ∧ c = 10
        · rw [lines, if_neg hb, if_pos hbc, ← ih, List.cons_append,
            List.cons_append, lines, if_neg hb, if_pos hbc]
        · rw [List.cons_append, List.cons_append, lines_cons_of_ne hb hbc,
            lines_cons_of_ne hb hbc, ← List.cons_append, ih]
          cases h : lines (c :: bs) with
          | nil => exact False.elim (lines_cons_ne_nil c bs h)
          | cons l ls => rfl

theorem terminated_append {f g : Bytes} (hf : Terminated f)
    (hg : Terminated g) :
    Terminated (f ++ g) := by
  rcases hg with rfl | hg
  · simpa using hf
  · exact Or.inr (by simp [List.getLast?_append, hg])

theorem terminated_unlines (ls : List Bytes) : Terminated (unlines ls) := by
  induction ls with
  | nil => exact Or.inl rfl
  | cons l ls ih =>
      rw [unlines, List.flatMap_cons]
      exact terminated_append (Or.inr (by simp)) ih

theorem lines_unlines {ls : List Bytes} (hls : ∀ l ∈ ls, IsLine l) :
    lines (unlines ls) = ls := by
  induction ls with
  | nil => simp [unlines]
  | cons l ls ih =>
      have hcons : unlines (l :: ls) = l ++ 10 :: unlines ls := by
        simp [unlines]
      rw [hcons, lines_append_lineFeed (hls l (by simp)),
        ih fun m hm => hls m (by simp [hm])]

/-- Text without a line feed is one line, unless it is empty. -/
theorem lines_of_not_mem {t : Bytes} (ht : 10 ∉ t) :
    lines t = if t = [] then [] else [t] := by
  induction t with
  | nil => rw [lines, if_pos rfl]
  | cons b t ih =>
      rw [List.mem_cons, not_or] at ht
      have hb : b ≠ 10 := fun h => ht.1 h.symm
      rw [if_neg (List.cons_ne_nil b t)]
      cases t with
      | nil => rw [lines, if_neg hb]
      | cons c t =>
          have hc : c ≠ 10 := fun h => ht.2 (h ▸ List.mem_cons_self)
          rw [lines_cons_of_ne hb (by simp [hc]), ih ht.2,
            if_neg (List.cons_ne_nil c t)]
          rfl

/-- A file cut anywhere is made of whole lines, and of a part of the next line
if there is one. -/
theorem prefix_unlines {ls : List Bytes} {f : Bytes} (h : f <+: unlines ls) :
    f = unlines ls ∨
      ∃ whole l rest t, ls = whole ++ l :: rest ∧ t <+: l ∧
        f = unlines whole ++ t := by
  induction ls generalizing f with
  | nil => exact .inl (List.prefix_nil.mp h)
  | cons l ls ih =>
      have hcons : ∀ ls, unlines (l :: ls) = (l ++ [10]) ++ unlines ls :=
        fun ls => by simp [unlines]
      have hinside : f <+: l ∨ (l ++ [10]) <+: f := by
        rcases List.prefix_or_prefix_of_prefix h
          (hcons ls ▸ List.prefix_append (l ++ [10]) (unlines ls)) with hf | hl
        · rcases List.prefix_concat_iff.mp hf with heq | hf
          · exact .inr (heq ▸ List.prefix_rfl)
          · exact .inl hf
        · exact .inr hl
      rcases hinside with hf | ⟨g, rfl⟩
      · exact .inr ⟨[], l, ls, f, rfl, hf, rfl⟩
      · rw [hcons, List.prefix_append_right_inj] at h
        rcases ih h with rfl | ⟨whole, l', rest, t, rfl, ht, rfl⟩
        · exact .inl (hcons ls).symm
        · refine .inr ⟨l :: whole, l', rest, t, rfl, ht, ?_⟩
          rw [hcons, List.append_assoc _ (unlines whole)]

/-- Two texts with the same first separator are equal before it and after it. -/
theorem append_separator_inj {α : Type*} {a : α} {l l' r r' : List α}
    (hl : a ∉ l) (hl' : a ∉ l') (h : l ++ a :: r = l' ++ a :: r') :
    l = l' ∧ r = r' := by
  induction l generalizing l' with
  | nil =>
      cases l' with
      | nil => exact ⟨rfl, List.tail_eq_of_cons_eq h⟩
      | cons b l' =>
          have hhead : a = b := List.head_eq_of_cons_eq h
          exact absurd List.mem_cons_self (hhead ▸ hl')
  | cons b l ih =>
      cases l' with
      | nil =>
          have hhead : b = a := List.head_eq_of_cons_eq h
          exact absurd List.mem_cons_self (hhead ▸ hl)
      | cons b' l' =>
          have hhead : b = b' := List.head_eq_of_cons_eq h
          obtain ⟨htail, hrest⟩ := ih (List.not_mem_of_not_mem_cons hl)
            (List.not_mem_of_not_mem_cons hl') (List.tail_eq_of_cons_eq h)
          exact ⟨by rw [hhead, htail], hrest⟩

end ReserveGrid.Support
