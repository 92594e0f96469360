import Mathlib.Data.List.Basic

/-!
# Runs of a labelled machine

A machine is a partial step function on states and labels; nondeterminism is
carried by the labels. This module fixes what a run of such a machine is, what
it means for every step of a run to meet a side condition, and the two
induction rules that turn a step lemma into a statement about whole runs.
-/

namespace ReserveGrid.Support

variable {σ ι : Type*}

/-- The state a list of labels leads to, when every step is enabled. -/
def run (step : σ → ι → Option σ) (s : σ) : List ι → Option σ
  | [] => some s
  | a :: as => (step s a).bind fun t => run step t as

/-- Every enabled step of the run meets the side condition `C`. -/
def Along (step : σ → ι → Option σ) (C : σ → ι → Prop) : σ → List ι → Prop
  | _, [] => True
  | s, a :: as => C s a ∧ ∀ t, step s a = some t → Along step C t as

instance Along.decidable (step : σ → ι → Option σ) (C : σ → ι → Prop)
    [∀ s a, Decidable (C s a)] : ∀ s as, Decidable (Along step C s as)
  | _, [] => isTrue trivial
  | s, a :: as =>
      have : DecidablePred fun t => Along step C t as :=
        fun t => Along.decidable step C t as
      inferInstanceAs (Decidable (C s a ∧ ∀ t ∈ step s a, Along step C t as))

@[simp] theorem run_nil (step : σ → ι → Option σ) (s : σ) :
    run step s [] = some s := rfl

theorem run_cons (step : σ → ι → Option σ) (s : σ) (a : ι) (as : List ι) :
    run step s (a :: as) = (step s a).bind fun t => run step t as := rfl

theorem run_cons_eq_some {step : σ → ι → Option σ} {s t : σ} {a : ι}
    {as : List ι} :
    run step s (a :: as) = some t ↔
      ∃ u, step s a = some u ∧ run step u as = some t := by
  rw [run_cons, Option.bind_eq_some_iff]

theorem run_append (step : σ → ι → Option σ) (s : σ) (as bs : List ι) :
    run step s (as ++ bs) = (run step s as).bind fun t => run step t bs := by
  induction as generalizing s with
  | nil => rfl
  | cons a as ih =>
      rw [List.cons_append, run_cons, run_cons, Option.bind_assoc]
      congr 1
      funext t
      exact ih t

theorem run_join {step : σ → ι → Option σ} {s t u : σ} {as bs : List ι}
    (h : run step s as = some t) (h' : run step t bs = some u) :
    run step s (as ++ bs) = some u := by
  rw [run_append, h]
  exact h'

theorem run_concat {step : σ → ι → Option σ} {s t u : σ} {as : List ι} {a : ι}
    (h : run step s as = some t) (hstep : step t a = some u) :
    run step s (as ++ [a]) = some u := by
  rw [run_append, h, Option.bind_some, run_cons_eq_some]
  exact ⟨u, hstep, rfl⟩

theorem Along.append {step : σ → ι → Option σ} {C : σ → ι → Prop} {s t : σ}
    {as bs : List ι} (h : Along step C s (as ++ bs))
    (hrun : run step s as = some t) :
    Along step C s as ∧ Along step C t bs := by
  induction as generalizing s with
  | nil =>
      cases hrun
      exact ⟨trivial, h⟩
  | cons a as ih =>
      obtain ⟨u, hu, hrest⟩ := run_cons_eq_some.mp hrun
      refine ⟨⟨h.1, ?_⟩, (ih (h.2 u hu) hrest).2⟩
      intro v hv
      cases hu.symm.trans hv
      exact (ih (h.2 u hu) hrest).1

/-- A run that goes on from where another one ended. -/
theorem Along.join {step : σ → ι → Option σ} {C : σ → ι → Prop} {s t : σ}
    {as bs : List ι} (h : Along step C s as) (hrun : run step s as = some t)
    (h' : Along step C t bs) : Along step C s (as ++ bs) := by
  induction as generalizing s with
  | nil =>
      cases hrun
      exact h'
  | cons a as ih =>
      obtain ⟨u, hu, hrest⟩ := run_cons_eq_some.mp hrun
      refine ⟨h.1, ?_⟩
      intro v hv
      cases hu.symm.trans hv
      exact ih (h.2 u hu) hrest

theorem Along.cons {step : σ → ι → Option σ} {C : σ → ι → Prop} {s t : σ}
    {a : ι} {as : List ι} (hC : C s a) (hstep : step s a = some t)
    (h : Along step C t as) : Along step C s (a :: as) := by
  refine ⟨hC, ?_⟩
  intro u hu
  cases hstep.symm.trans hu
  exact h

theorem Along.and {step : σ → ι → Option σ} {C D : σ → ι → Prop} {s : σ}
    {as : List ι} (h : Along step C s as) (h' : Along step D s as) :
    Along step (fun s a => C s a ∧ D s a) s as := by
  induction as generalizing s with
  | nil => trivial
  | cons a as ih => exact ⟨⟨h.1, h'.1⟩, fun t ht => ih (h.2 t ht) (h'.2 t ht)⟩

/-- A condition on the labels alone. -/
theorem Along.of_forall_mem {step : σ → ι → Option σ} {C : σ → ι → Prop} {s : σ}
    {as : List ι} (h : ∀ a ∈ as, ∀ s, C s a) : Along step C s as := by
  induction as generalizing s with
  | nil => trivial
  | cons a as ih =>
      refine ⟨h a List.mem_cons_self s, ?_⟩
      intro t _
      exact ih fun b hb => h b (List.mem_cons_of_mem _ hb)

/-- An invariant of every step that meets the side condition is an invariant
of every run whose steps all meet it. -/
theorem invariant_of_along {step : σ → ι → Option σ} {C : σ → ι → Prop}
    {I : σ → Prop}
    (hstep : ∀ s a t, I s → C s a → step s a = some t → I t)
    {s t : σ} {as : List ι}
    (hinit : I s) (halong : Along step C s as)
    (hrun : run step s as = some t) :
    I t := by
  induction as generalizing s with
  | nil =>
      cases hrun
      exact hinit
  | cons a as ih =>
      obtain ⟨u, hu, hrest⟩ := run_cons_eq_some.mp hrun
      exact ih (hstep s a u hinit halong.1 hu) (halong.2 u hu) hrest

/-- An invariant of every step is an invariant of every run. -/
theorem invariant_of_run {step : σ → ι → Option σ} {I : σ → Prop}
    (hstep : ∀ s a t, I s → step s a = some t → I t)
    {s t : σ} {as : List ι}
    (hinit : I s) (hrun : run step s as = some t) :
    I t := by
  have halong : Along step (fun _ _ => True) s as :=
    .of_forall_mem fun _ _ _ => trivial
  exact invariant_of_along (fun s a t hs _ => hstep s a t hs) hinit halong hrun

/-- What holds of a state and the labels that led to it. -/
theorem history_of_run {step : σ → ι → Option σ} {I : List ι → σ → Prop}
    (hstep : ∀ as s a t, I as s → step s a = some t → I (as ++ [a]) t)
    {s t : σ} {before as : List ι} (hinit : I before s) (hrun : run step s as = some t) :
    I (before ++ as) t := by
  induction as generalizing s before with
  | nil =>
      cases hrun
      rwa [List.append_nil]
  | cons a as ih =>
      obtain ⟨u, hu, hrest⟩ := run_cons_eq_some.mp hrun
      have hlast := ih (hstep before s a u hinit hu) hrest
      rwa [List.append_assoc, List.singleton_append] at hlast

/-- Some list of labels leads from one state to another. -/
def Reaches (step : σ → ι → Option σ) (s t : σ) : Prop :=
  ∃ as, run step s as = some t

theorem Reaches.of_run {step : σ → ι → Option σ} {s t : σ} {as : List ι}
    (h : run step s as = some t) : Reaches step s t := ⟨as, h⟩

theorem Reaches.of_step {step : σ → ι → Option σ} {s t : σ} {a : ι}
    (h : step s a = some t) : Reaches step s t :=
  ⟨[a], run_cons_eq_some.mpr ⟨t, h, rfl⟩⟩

theorem Reaches.trans {step : σ → ι → Option σ} {s t u : σ}
    (h : Reaches step s t) (h' : Reaches step t u) : Reaches step s u := by
  obtain ⟨as, has⟩ := h
  obtain ⟨bs, hbs⟩ := h'
  refine ⟨as ++ bs, ?_⟩
  rw [run_append, has]
  exact hbs

/-- A task of a machine after one of its tasks was replaced. -/
theorem update_eq_some {τ : Type*} {tasks : ℕ → Option τ} {k k' : ℕ}
    {new : Option τ} {task : τ}
    (h : Function.update tasks k new k' = some task) :
    (k' = k ∧ new = some task) ∨ (k' ≠ k ∧ tasks k' = some task) := by
  by_cases hk : k' = k
  · subst hk
    rw [Function.update_self] at h
    exact .inl ⟨rfl, h⟩
  · rw [Function.update_of_ne hk] at h
    exact .inr ⟨hk, h⟩

end ReserveGrid.Support
