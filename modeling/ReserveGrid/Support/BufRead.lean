import Mathlib.Data.List.TakeWhile

/-!
# Reading up to a delimiter

A buffered reader gets its data in chunks, and an attempt to read up to a
delimiter from it, limited in length, can be dropped while it waits. What such
an attempt promises is a structure; a reader that takes the chunks one by one
keeps the promise. The pieces of a list are what the attempts should give.
-/

namespace ReserveGrid.Support

variable {α : Type*}

/-! ## Pieces -/

section pieces

variable [DecidableEq α]

/-- Put an element in front of the first piece. -/
def consPiece (a : α) : List (List α) → List (List α)
  | [] => [[a]]
  | p :: ps => (a :: p) :: ps

/-- The pieces of a list, each with the delimiter that ends it. The last one
may have none. -/
def pieces (delim : α) : List α → List (List α)
  | [] => []
  | a :: as => if a = delim then [a] :: pieces delim as else consPiece a (pieces delim as)

variable {delim : α} {l rest : List α}

theorem pieces_append_cons (h : delim ∉ l) (rest : List α) :
    pieces delim (l ++ delim :: rest) = (l ++ [delim]) :: pieces delim rest := by
  induction l with
  | nil => simp [pieces]
  | cons a l ih =>
      rw [List.mem_cons, not_or] at h
      rw [List.cons_append, pieces, if_neg (Ne.symm h.1), ih h.2]
      rfl

theorem pieces_of_not_mem (h : delim ∉ l) (hne : l ≠ []) : pieces delim l = [l] := by
  induction l with
  | nil => exact absurd rfl hne
  | cons a l ih =>
      rw [List.mem_cons, not_or] at h
      rw [pieces, if_neg (Ne.symm h.1)]
      by_cases hl : l = []
      · rw [hl]
        rfl
      · rw [ih h.2 hl]
        rfl

/-- Where the delimiter stands among the first elements, the list is cut there. -/
theorem exists_cut {limit : ℕ} (h : delim ∈ l.take limit) :
    ∃ before after, l = before ++ delim :: after ∧ delim ∉ before ∧
      before.length < limit ∧ (l.take limit).takeWhile (· ≠ delim) = before := by
  obtain ⟨before, between, htake, hno⟩ := List.eq_append_cons_of_mem h
  have hlength := congrArg List.length htake
  have hwhile : before.takeWhile (· ≠ delim) = before := by
    apply List.takeWhile_eq_self_iff.mpr
    intro a ha
    have hne : a ≠ delim := fun heq => hno (heq ▸ ha)
    simpa using hne
  refine ⟨before, between ++ l.drop limit, ?_, hno, ?_, ?_⟩
  · calc l = l.take limit ++ l.drop limit := (List.take_append_drop limit l).symm
      _ = before ++ delim :: (between ++ l.drop limit) := by
          rw [htake, List.append_assoc, List.cons_append]
  · have hle := List.length_take_le limit l
    rw [hlength, List.length_append, List.length_cons] at hle
    omega
  · rw [htake, List.takeWhile_append, if_pos (by rw [hwhile])]
    simp

end pieces

/-! ## Readers -/

/-- What a reader meets: data, the end of an attempt that waits for more, or a
failure. With nothing left it is at its end. -/
inductive Arrival (α : Type*) where
  | data (chunk : List α)
  | dropped
  | failure
  deriving DecidableEq

/-- How an attempt ends: with a result, dropped while it waits, or in error. -/
inductive ReadEnd (β : Type*) where
  | ready (result : β)
  | dropped
  | failed
  deriving DecidableEq

/-- An attempt: what it appended to the buffer, what it left to later attempts,
and how it ended. -/
structure Attempt (α : Type*) where
  appended : List α
  rest : List (Arrival α)
  result : ReadEnd ℕ
  deriving DecidableEq

def Arrival.toList : Arrival α → List α
  | .data chunk => chunk
  | .dropped | .failure => []

/-- The data still to be read. -/
def unread (arrivals : List (Arrival α)) : List α :=
  arrivals.flatMap Arrival.toList

def Arrival.isDrop : Arrival α → Bool
  | .dropped => true
  | .data _ | .failure => false

/-- How many attempts will be dropped. -/
def drops (arrivals : List (Arrival α)) : ℕ := arrivals.countP Arrival.isDrop

/-- What is promised of an attempt to read up to the delimiter, from a reader
limited to `limit` elements. Whatever was read is appended, also when the
attempt is dropped. -/
structure ReadsUntil (delim : α) (limit : ℕ) (arrivals : List (Arrival α))
    (attempt : Attempt α) : Prop where
  kept : unread arrivals = attempt.appended ++ unread attempt.rest
  limited : attempt.appended.length ≤ limit
  upTo : delim ∉ attempt.appended.dropLast
  ready : ∀ n, attempt.result = .ready n → n = attempt.appended.length ∧
    (delim ∈ attempt.appended ∨ attempt.appended.length = limit ∨
      unread attempt.rest = [])
  dropped : attempt.result = .dropped → delim ∉ attempt.appended ∧
    attempt.appended.length < limit ∧ drops attempt.rest < drops arrivals
  failed : attempt.result = .failed → .failure ∈ arrivals
  drops_le : drops attempt.rest ≤ drops arrivals
  failure_mem : .failure ∈ attempt.rest → .failure ∈ arrivals

/-- The result of an attempt that had read some data before. -/
def ReadEnd.after (before : ℕ) : ReadEnd ℕ → ReadEnd ℕ
  | .ready n => .ready (before + n)
  | .dropped => .dropped
  | .failed => .failed

/-- An attempt that takes the chunks one by one, each cut to what is left of
the limit. -/
def readUntil [DecidableEq α] (delim : α) : ℕ → List (Arrival α) → Attempt α
  | _, [] => ⟨[], [], .ready 0⟩
  | limit, .dropped :: rest =>
      if limit = 0 then ⟨[], .dropped :: rest, .ready 0⟩ else ⟨[], rest, .dropped⟩
  | limit, .failure :: rest =>
      if limit = 0 then ⟨[], .failure :: rest, .ready 0⟩ else ⟨[], rest, .failed⟩
  | limit, .data chunk :: rest =>
      let available := chunk.take limit
      if delim ∈ available then
        let used := (available.takeWhile (· ≠ delim)).length + 1
        ⟨chunk.take used, .data (chunk.drop used) :: rest, .ready used⟩
      else if limit ≤ chunk.length then
        ⟨available, .data (chunk.drop limit) :: rest, .ready limit⟩
      else
        let more := readUntil delim (limit - chunk.length) rest
        ⟨chunk ++ more.appended, more.rest, more.result.after chunk.length⟩

section readUntil

variable {delim : α} {limit : ℕ} {chunk before after : List α} {arrivals : List (Arrival α)}
  {attempt : Attempt α}

@[simp] theorem unread_nil : unread ([] : List (Arrival α)) = [] := rfl

@[simp] theorem unread_data (chunk : List α) (arrivals : List (Arrival α)) :
    unread (.data chunk :: arrivals) = chunk ++ unread arrivals := rfl

@[simp] theorem unread_dropped (arrivals : List (Arrival α)) :
    unread (.dropped :: arrivals) = unread arrivals := rfl

@[simp] theorem unread_failure (arrivals : List (Arrival α)) :
    unread (.failure :: arrivals) = unread arrivals := rfl

@[simp] theorem drops_data (chunk : List α) (arrivals : List (Arrival α)) :
    drops (.data chunk :: arrivals) = drops arrivals := by
  simp [drops, Arrival.isDrop]

@[simp] theorem drops_dropped (arrivals : List (Arrival α)) :
    drops (.dropped :: arrivals) = drops arrivals + 1 := by
  simp [drops, List.countP_cons, Arrival.isDrop]

@[simp] theorem drops_failure (arrivals : List (Arrival α)) :
    drops (.failure :: arrivals) = drops arrivals := by
  simp [drops, Arrival.isDrop]

/-- Nothing is read from a reader limited to nothing. -/
theorem readsUntil_zero (delim : α) (arrivals : List (Arrival α)) :
    ReadsUntil delim 0 arrivals ⟨[], arrivals, .ready 0⟩ where
  kept := rfl
  limited := le_rfl
  upTo := by simp
  ready := by simp
  dropped := by simp
  failed := by simp
  drops_le := le_rfl
  failure_mem := id

/-- The delimiter stands in the part of the chunk that may be read. -/
theorem readsUntil_delim (hno : delim ∉ before) (hlimit : before.length < limit)
    (after : List α) (arrivals : List (Arrival α)) :
    ReadsUntil delim limit (.data (before ++ delim :: after) :: arrivals)
      ⟨before ++ [delim], .data after :: arrivals, .ready (before.length + 1)⟩ where
  kept := by simp
  limited := by
    rw [List.length_append]
    exact hlimit
  upTo := by simpa using hno
  ready := by simp
  dropped := by simp
  failed := by simp
  drops_le := by simp
  failure_mem := by simp

/-- The limit is reached within the chunk. -/
theorem readsUntil_limit (h : delim ∉ chunk.take limit) (hlong : limit ≤ chunk.length)
    (arrivals : List (Arrival α)) :
    ReadsUntil delim limit (.data chunk :: arrivals)
      ⟨chunk.take limit, .data (chunk.drop limit) :: arrivals, .ready limit⟩ where
  kept := by simp [← List.append_assoc]
  limited := List.length_take_le limit chunk
  upTo := fun hmem => h (List.dropLast_subset _ hmem)
  ready := by simp [hlong]
  dropped := by simp
  failed := by simp
  drops_le := by simp
  failure_mem := by simp

/-- The chunk is taken whole, and the attempt goes on. -/
theorem ReadsUntil.data (h : delim ∉ chunk) (hshort : chunk.length ≤ limit)
    (hmore : ReadsUntil delim (limit - chunk.length) arrivals attempt) :
    ReadsUntil delim limit (.data chunk :: arrivals)
      ⟨chunk ++ attempt.appended, attempt.rest, attempt.result.after chunk.length⟩ where
  kept := by simp [hmore.kept]
  limited := by
    have hlimited := hmore.limited
    rw [List.length_append]
    omega
  upTo := by
    have hupTo := hmore.upTo
    by_cases hnil : attempt.appended = []
    · simp only [hnil, List.append_nil]
      exact fun hmem => h (List.dropLast_subset _ hmem)
    · simp [List.dropLast_append_of_ne_nil hnil, h, hupTo]
  ready := by
    intro n hn
    cases hresult : attempt.result with
    | ready m =>
        have hready := hmore.ready m hresult
        simp only [hresult, ReadEnd.after, ReadEnd.ready.injEq] at hn
        simp only [List.length_append, List.mem_append, h, false_or]
        refine ⟨by omega, hready.2.imp_right (Or.imp_left fun _ => by omega)⟩
    | dropped => simp [hresult, ReadEnd.after] at hn
    | failed => simp [hresult, ReadEnd.after] at hn
  dropped := by
    intro hn
    cases hresult : attempt.result with
    | ready m => simp [hresult, ReadEnd.after] at hn
    | dropped =>
        obtain ⟨hno, hlength, hdrops⟩ := hmore.dropped hresult
        simp only [List.length_append, List.mem_append, h, hno, drops_data]
        exact ⟨by simp, by omega, hdrops⟩
    | failed => simp [hresult, ReadEnd.after] at hn
  failed := by
    intro hn
    cases hresult : attempt.result with
    | ready m => simp [hresult, ReadEnd.after] at hn
    | dropped => simp [hresult, ReadEnd.after] at hn
    | failed => exact List.mem_cons_of_mem _ (hmore.failed hresult)
  drops_le := by simpa using hmore.drops_le
  failure_mem := fun hmem => List.mem_cons_of_mem _ (hmore.failure_mem hmem)

/-- The reader that takes its chunks one by one keeps the promise. -/
theorem readUntil_readsUntil [DecidableEq α] (delim : α) (limit : ℕ) (arrivals : List (Arrival α)) :
    ReadsUntil delim limit arrivals (readUntil delim limit arrivals) := by
  induction arrivals generalizing limit with
  | nil =>
      constructor <;> simp [readUntil]
  | cons arrival arrivals ih =>
      cases arrival with
      | dropped =>
          by_cases hzero : limit = 0
          · subst hzero
            simpa [readUntil] using readsUntil_zero delim (.dropped :: arrivals)
          · have hpos : 0 < limit := Nat.pos_of_ne_zero hzero
            constructor <;> simp [readUntil, hzero, hpos]
      | failure =>
          by_cases hzero : limit = 0
          · subst hzero
            simpa [readUntil] using readsUntil_zero delim (.failure :: arrivals)
          · constructor <;> simp [readUntil, hzero]
      | data chunk =>
          by_cases hmem : delim ∈ chunk.take limit
          · obtain ⟨before, after, rfl, hno, hlimit, hwhile⟩ := exists_cut hmem
            have hused : readUntil delim limit
                (.data (before ++ delim :: after) :: arrivals) =
                ⟨before ++ [delim], .data after :: arrivals,
                  .ready (before.length + 1)⟩ := by
              rw [readUntil, if_pos hmem, hwhile]
              simp [List.take_append, List.drop_append, List.take_of_length_le]
            rw [hused]
            exact readsUntil_delim hno hlimit after arrivals
          · by_cases hlong : limit ≤ chunk.length
            · simpa [readUntil, hmem, hlong] using readsUntil_limit hmem hlong arrivals
            · have hall : chunk.take limit = chunk :=
                List.take_of_length_le (by omega)
              rw [hall] at hmem
              simpa [readUntil, hall, hmem, hlong] using
                ReadsUntil.data hmem (by omega) (ih (limit - chunk.length))

end readUntil

end ReserveGrid.Support
