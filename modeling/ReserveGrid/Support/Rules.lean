import Mathlib.Data.List.Basic

/-!
# Rules checked in order

A chain of checks stops at its first failure. Against a list of rules, each with
the code that names its violation, the chain is right when it passes exactly the
subjects that keep every rule and otherwise reports the first rule that is
broken.
-/

namespace ReserveGrid.Support

/-- Run the checks in order; the first failure ends the run. -/
def firstFailure {ε : Type*} : List (Except ε Unit) → Except ε Unit
  | [] => .ok ()
  | .ok () :: checks => firstFailure checks
  | .error e :: _ => .error e

/-- A chain fails with the failure of one of its checks. -/
theorem mem_of_firstFailure_eq_error {ε : Type*}
    {checks : List (Except ε Unit)} {e : ε}
    (h : firstFailure checks = .error e) :
    Except.error e ∈ checks := by
  induction checks with
  | nil => simp [firstFailure] at h
  | cons check checks ih =>
      match check with
      | .ok () => exact List.mem_cons_of_mem _ (ih h)
      | .error e' =>
          cases h
          exact List.mem_cons_self

/-- A property and the code that names its violation. -/
structure Rule (κ : Type*) where
  holds : Prop
  code : κ

variable {ε κ : Type*} {code : ε → κ}

/-- Some rule is broken, every rule before it holds, and the given code is
its own. -/
def FirstBroken (rules : List (Rule κ)) (k : κ) : Prop :=
  ∃ before rule after, rules = before ++ rule :: after ∧
    (∀ r ∈ before, r.holds) ∧ ¬ rule.holds ∧ rule.code = k

/-- A result that passes when every rule holds and otherwise names the first
broken rule. -/
def Reports (code : ε → κ) (rules : List (Rule κ)) :
    Except ε Unit → Prop
  | .ok () => ∀ r ∈ rules, r.holds
  | .error e => FirstBroken rules (code e)

theorem FirstBroken.not_all {rules : List (Rule κ)} {k : κ}
    (h : FirstBroken rules k) :
    ¬ ∀ r ∈ rules, r.holds := by
  obtain ⟨before, rule, after, rfl, -, hbroken, -⟩ := h
  intro hall
  exact hbroken (hall rule (by simp))

theorem FirstBroken.append_left {before rules : List (Rule κ)} {k : κ}
    (hbefore : ∀ r ∈ before, r.holds) (h : FirstBroken rules k) :
    FirstBroken (before ++ rules) k := by
  obtain ⟨pre, rule, after, rfl, hpre, hbroken, hcode⟩ := h
  refine ⟨before ++ pre, rule, after, by simp, ?_, hbroken, hcode⟩
  intro r hr
  rcases List.mem_append.mp hr with hr | hr
  · exact hbefore r hr
  · exact hpre r hr

theorem FirstBroken.append_right {rules after : List (Rule κ)} {k : κ}
    (h : FirstBroken rules k) :
    FirstBroken (rules ++ after) k := by
  obtain ⟨before, rule, rest, rfl, hbefore, hbroken, hcode⟩ := h
  exact ⟨before, rule, rest ++ after, by simp, hbefore, hbroken, hcode⟩

/-- The head rule is the first broken one. -/
theorem FirstBroken.head {rule : Rule κ} {rules : List (Rule κ)}
    (h : ¬ rule.holds) :
    FirstBroken (rule :: rules) rule.code :=
  ⟨[], rule, rules, rfl, by simp, h, rfl⟩

theorem FirstBroken.tail {rule : Rule κ} {rules : List (Rule κ)} {k : κ}
    (hrule : rule.holds) (h : FirstBroken rules k) :
    FirstBroken (rule :: rules) k := by
  have hcons : rule :: rules = [rule] ++ rules := rfl
  rw [hcons]
  exact FirstBroken.append_left (by simpa using hrule) h

/-- A check made in front of a chain. What the chain reports may depend on the
rules of the check. -/
theorem Reports.firstFailure_cons {rules rest : List (Rule κ)}
    {check : Except ε Unit} {checks : List (Except ε Unit)}
    (hcheck : Reports code rules check)
    (hchecks : (∀ r ∈ rules, r.holds) → Reports code rest (firstFailure checks)) :
    Reports code (rules ++ rest) (firstFailure (check :: checks)) := by
  match check, hcheck with
  | .error e, hcheck => exact hcheck.append_right
  | .ok (), hcheck =>
      have htail := hchecks hcheck
      rw [firstFailure]
      generalize firstFailure checks = result at htail ⊢
      match result, htail with
      | .ok (), htail =>
          intro r hr
          rcases List.mem_append.mp hr with hr | hr
          · exact hcheck r hr
          · exact htail r hr
      | .error e, htail => exact htail.append_left hcheck

theorem Reports.firstFailure_nil : Reports code [] (firstFailure []) := by
  intro r hr
  simp at hr

/-- A check of a single rule in front of a chain. -/
theorem Reports.firstFailure_cons_one {rule : Rule κ} {rest : List (Rule κ)}
    {check : Except ε Unit} {checks : List (Except ε Unit)}
    (hcheck : Reports code [rule] check)
    (hchecks : rule.holds → Reports code rest (firstFailure checks)) :
    Reports code (rule :: rest) (firstFailure (check :: checks)) :=
  Reports.firstFailure_cons hcheck fun h => hchecks (h rule (by simp))

/-- A check of a single rule. -/
theorem Reports.single {holds : Prop} {k : κ} {check : Except ε Unit}
    (hok : check = .ok () ↔ holds)
    (herror : ∀ e, check = .error e → code e = k) :
    Reports code [⟨holds, k⟩] check := by
  match check, hok, herror with
  | .ok (), hok, _ =>
      intro r hr
      rw [List.mem_singleton] at hr
      subst hr
      exact hok.mp rfl
  | .error e, hok, herror =>
      have hbroken : ¬ holds := fun h => by simpa using hok.mpr h
      rw [Reports, herror e rfl]
      exact ⟨[], ⟨holds, k⟩, [], rfl, by simp, hbroken, rfl⟩

end ReserveGrid.Support
