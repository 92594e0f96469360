import Mathlib.Data.List.Infix
import Mathlib.Order.Basic

/-!
# Windows on a history

A window holds the latest items that were put into it: those whose age has not
reached the retention, and never more than its capacity. Items that are put in
the order of their creation leave it in that order.
-/

namespace ReserveGrid.Support.AgedWindow

variable {α : Type*}

/-! ## Operations -/

/-- The items whose age has not reached the retention. -/
def expire (created : α → ℕ) (retention now : ℕ) (held : List α) : List α :=
  held.filter fun a => now - created a < retention

/-- The first item of a full window goes. -/
def makeRoom (cap : ℕ) (held : List α) : List α :=
  if cap ≤ held.length then held.tail else held

/-- What happens to a window, and when. -/
inductive Event (α : Type*) where
  | put (now : ℕ) (a : α)
  | expire (now : ℕ)

def Event.time : Event α → ℕ
  | .put now _ => now
  | .expire now => now

/-- The item that an event puts, if it puts one. -/
def Event.item : Event α → Option α
  | .put _ a => some a
  | .expire _ => none

/-- The items put, in order. -/
def history (events : List (Event α)) : List α :=
  events.filterMap Event.item

@[simp] theorem history_put (now : ℕ) (a : α) : history [.put now a] = [a] := rfl

@[simp] theorem history_expire (now : ℕ) :
    history [(.expire now : Event α)] = [] := rfl

def step (created : α → ℕ) (retention cap : ℕ) (held : List α) :
    Event α → List α
  | .put now a => makeRoom cap (expire created retention now held) ++ [a]
  | .expire now => expire created retention now held

def run (created : α → ℕ) (retention cap : ℕ) (held : List α)
    (events : List (Event α)) : List α :=
  events.foldl (step created retention cap) held

variable {created : α → ℕ} {retention cap now : ℕ} {held : List α}

/-! ## Length -/

theorem length_expire_le (created : α → ℕ) (retention now : ℕ) (held : List α) :
    (expire created retention now held).length ≤ held.length :=
  List.length_filter_le _ _

theorem length_makeRoom_lt (hcap : 1 ≤ cap) (h : held.length ≤ cap) :
    (makeRoom cap held).length < cap := by
  rw [makeRoom]
  split
  · rw [List.length_tail]
    omega
  · omega

theorem length_step_le (hcap : 1 ≤ cap) (h : held.length ≤ cap) (e : Event α) :
    (step created retention cap held e).length ≤ cap := by
  match e with
  | .put now a =>
      have hroom := length_makeRoom_lt hcap
        ((length_expire_le created retention now held).trans h)
      rw [step, List.length_append, List.length_singleton]
      omega
  | .expire now => exact (length_expire_le created retention now held).trans h

theorem length_run_le (hcap : 1 ≤ cap) (h : held.length ≤ cap)
    (events : List (Event α)) :
    (run created retention cap held events).length ≤ cap := by
  induction events generalizing held with
  | nil => exact h
  | cons e rest ih => exact ih (length_step_le hcap h e)

/-! ## What is held was put -/

theorem step_sublist {past : List α} (h : held.Sublist past) (e : Event α) :
    (step created retention cap held e).Sublist (past ++ history [e]) := by
  have hexpire : ∀ now, (expire created retention now held).Sublist past :=
    fun now => List.filter_sublist.trans h
  match e with
  | .put now a =>
      apply List.Sublist.append _ (List.Sublist.refl _)
      rw [makeRoom]
      split
      · exact (List.tail_sublist _).trans (hexpire now)
      · exact hexpire now
  | .expire now =>
      rw [history_expire, List.append_nil]
      exact hexpire now

theorem history_append (before after : List (Event α)) :
    history (before ++ after) = history before ++ history after :=
  List.filterMap_append

theorem history_cons (e : Event α) (rest : List (Event α)) :
    history (e :: rest) = history [e] ++ history rest :=
  history_append [e] rest

/-! ## Items leave in the order of their creation -/

/-- Of items in the order of their creation the first expire first. -/
theorem expire_suffix (h : held.Pairwise fun a b => created a ≤ created b) :
    expire created retention now held <:+ held := by
  induction held with
  | nil => exact List.suffix_rfl
  | cons a rest ih =>
      rw [List.pairwise_cons] at h
      by_cases hyoung : now - created a < retention
      · have hall : expire created retention now (a :: rest) = a :: rest := by
          apply List.filter_eq_self.mpr
          intro b hb
          rcases List.mem_cons.mp hb with rfl | hb
          · exact decide_eq_true hyoung
          · have hle := h.1 b hb
            apply decide_eq_true
            omega
        rw [hall]
      · rw [expire, List.filter_cons_of_neg (by simpa using hyoung)]
        exact (ih h.2).trans (List.suffix_cons a rest)

theorem makeRoom_suffix : makeRoom cap held <:+ held := by
  rw [makeRoom]
  split
  · exact List.tail_suffix held
  · exact List.suffix_rfl

theorem step_suffix {past : List α} (h : held <:+ past)
    (hcreated : past.Pairwise fun a b => created a ≤ created b) (e : Event α) :
    step created retention cap held e <:+ past ++ history [e] := by
  have hexpire : ∀ now, expire created retention now held <:+ past :=
    fun now => (expire_suffix (hcreated.sublist h.sublist)).trans h
  match e with
  | .put now a =>
      obtain ⟨gone, hgone⟩ := makeRoom_suffix.trans (hexpire now)
      refine ⟨gone, ?_⟩
      rw [step, ← List.append_assoc, hgone]
      rfl
  | .expire now =>
      rw [history_expire, List.append_nil]
      exact hexpire now

/-- What is held is the end of the history. -/
theorem run_suffix {past : List α} (h : held <:+ past) {events : List (Event α)}
    (hcreated : (past ++ history events).Pairwise fun a b =>
      created a ≤ created b) :
    run created retention cap held events <:+ past ++ history events := by
  induction events generalizing held past with
  | nil => simpa [run, history] using h
  | cons e rest ih =>
      rw [history_cons, ← List.append_assoc] at hcreated ⊢
      apply ih _ hcreated
      apply step_suffix h
      rw [List.append_assoc] at hcreated
      exact (List.pairwise_append.mp hcreated).1

/-! ## The newest item -/

/-- What is left of the items after evictions at several times. -/
theorem mem_run_expire_iff {times : List ℕ} {a : α} :
    a ∈ run created retention cap held (times.map Event.expire) ↔
      a ∈ held ∧ ∀ t ∈ times, t - created a < retention := by
  induction times generalizing held with
  | nil => simp [run]
  | cons t rest ih =>
      have hmem : a ∈ expire created retention t held ↔
          a ∈ held ∧ t - created a < retention := by
        rw [expire, List.mem_filter, decide_eq_true_eq]
      rw [List.forall_mem_cons, ← and_assoc, ← hmem, ← ih]
      rfl

/-- The item put last is held until an eviction finds that its age has reached
the retention. -/
theorem mem_run_put_iff {a : α} (before : List (Event α)) (times : List ℕ) :
    a ∈ run created retention cap held
        (before ++ .put now a :: times.map Event.expire) ↔
      ∀ t ∈ times, t - created a < retention := by
  rw [run, List.foldl_append, List.foldl_cons, ← run, mem_run_expire_iff]
  constructor
  · rintro ⟨-, hyoung⟩
    exact hyoung
  · intro hyoung
    exact ⟨List.mem_append_right _ List.mem_cons_self, hyoung⟩

/-- After the last item was put there were evictions only. -/
theorem exists_last_put {events : List (Event α)} {a : α}
    (h : a ∈ (history events).getLast?) :
    ∃ (before : List (Event α)) (now : ℕ) (times : List ℕ),
      events = before ++ .put now a :: times.map Event.expire := by
  induction events using List.reverseRecOn with
  | nil => simp [history] at h
  | append_singleton events e ih =>
      rw [history_append] at h
      match e, h with
      | .put now b, h =>
          have hb : b = a := by simpa [history, Event.item] using h
          rw [hb]
          exact ⟨events, now, [], rfl⟩
      | .expire now, h =>
          have hlast : a ∈ (history events).getLast? := by
            simpa [history, Event.item] using h
          obtain ⟨before, putAt, times, rfl⟩ := ih hlast
          exact ⟨before, putAt, times ++ [now], by simp⟩

/-- The newest item is held at every time, not before what happened, at which its
age has not reached the retention. -/
theorem mem_run_newest {events : List (Event α)} {a : α}
    (hlast : a ∈ (history events).getLast?) (htime : ∀ e ∈ events, e.time ≤ now)
    (hyoung : now - created a < retention) :
    a ∈ run created retention cap held events := by
  obtain ⟨before, putAt, times, rfl⟩ := exists_last_put hlast
  rw [mem_run_put_iff]
  intro t ht
  have hle : t ≤ now := by
    apply htime (.expire t)
    apply List.mem_append_right
    exact List.mem_cons_of_mem _ (List.mem_map.mpr ⟨t, ht, rfl⟩)
  omega

end ReserveGrid.Support.AgedWindow
