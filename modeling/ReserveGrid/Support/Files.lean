import Mathlib.Data.List.Basic
import Mathlib.Logic.Function.Basic

/-!
# Names, files and handles

A directory maps names to files. A file keeps its content while names come and
go, so a handle that was opened before a rename goes on writing to the same
file. A file is the list of what was appended to it, piece by piece.
-/

namespace ReserveGrid.Support

/-- A directory and the files it has ever had. -/
structure Files (N α : Type*) where
  dir : N → Option ℕ
  content : ℕ → List α
  next : ℕ

namespace Files

variable {N α : Type*}

/-- A directory without names. -/
def empty (N α : Type*) : Files N α := ⟨fun _ => none, fun _ => [], 0⟩

/-- What a reader finds under a name. -/
def read (fs : Files N α) (name : N) : Option (List α) :=
  (fs.dir name).map fs.content

/-- Append to the file of a handle. -/
def append (fs : Files N α) (file : ℕ) (items : List α) : Files N α :=
  { fs with content := Function.update fs.content file (fs.content file ++ items) }

/-- Every name refers to a file the directory has had. -/
def WellFormed (fs : Files N α) : Prop :=
  ∀ name file, fs.dir name = some file → file < fs.next

/-- A piece is found under a name. -/
def Holds (fs : Files N α) (name : N) (item : α) : Prop :=
  ∃ file, fs.dir name = some file ∧ item ∈ fs.content file

theorem wellFormed_empty : (empty N α).WellFormed := by
  intro name file h
  cases h

theorem WellFormed.append {fs : Files N α} (h : fs.WellFormed) (file : ℕ)
    (items : List α) : (fs.append file items).WellFormed := h

/-- What is there stays there when something is appended. -/
theorem Holds.append {fs : Files N α} {name : N} {item : α}
    (h : fs.Holds name item) (file : ℕ) (items : List α) :
    (fs.append file items).Holds name item := by
  obtain ⟨held, hdir, hmem⟩ := h
  refine ⟨held, hdir, ?_⟩
  by_cases hfile : held = file
  · subst hfile
    simp [Files.append, hmem]
  · simp [Files.append, Function.update_of_ne hfile, hmem]

theorem holds_append_self {fs : Files N α} {name : N} {file : ℕ}
    (h : fs.dir name = some file) (item : α) :
    (fs.append file [item]).Holds name item :=
  ⟨file, h, by simp [Files.append]⟩

variable [DecidableEq N]

/-- Take a name away. There need not be a file. -/
def remove (fs : Files N α) (name : N) : Files N α :=
  { fs with dir := Function.update fs.dir name none }

/-- Give a file another name, in place of the file that has it. Nothing happens
without a file under the old name. -/
def rename (fs : Files N α) (src dst : N) : Files N α :=
  match fs.dir src with
  | none => fs
  | some file =>
      { fs with dir := Function.update (Function.update fs.dir src none) dst (some file) }

/-- Open a name for appending, with a new file if there is none. -/
def openAppend (fs : Files N α) (name : N) : Files N α × ℕ :=
  match fs.dir name with
  | some file => (fs, file)
  | none =>
      ({ dir := Function.update fs.dir name (some fs.next)
         content := Function.update fs.content fs.next []
         next := fs.next + 1 }, fs.next)

variable {fs : Files N α} {name : N} {item : α}

theorem rename_of_some {src : N} {file : ℕ} (h : fs.dir src = some file)
    (dst : N) :
    fs.rename src dst =
      { fs with
        dir := Function.update (Function.update fs.dir src none) dst (some file) } := by
  rw [rename, h]

theorem rename_of_none {src : N} (h : fs.dir src = none) (dst : N) :
    fs.rename src dst = fs := by
  rw [rename, h]

theorem openAppend_of_some {file : ℕ} (h : fs.dir name = some file) :
    fs.openAppend name = (fs, file) := by
  rw [openAppend, h]

theorem openAppend_of_none (h : fs.dir name = none) :
    fs.openAppend name =
      ({ dir := Function.update fs.dir name (some fs.next)
         content := Function.update fs.content fs.next []
         next := fs.next + 1 }, fs.next) := by
  rw [openAppend, h]

theorem WellFormed.remove (h : fs.WellFormed) (gone : N) :
    (fs.remove gone).WellFormed := by
  intro name file hfile
  change Function.update fs.dir gone none name = some file at hfile
  by_cases hname : name = gone
  · subst hname
    rw [Function.update_self] at hfile
    cases hfile
  · rw [Function.update_of_ne hname] at hfile
    exact h name file hfile

theorem WellFormed.rename (h : fs.WellFormed) (src dst : N) :
    (fs.rename src dst).WellFormed := by
  cases hsrc : fs.dir src with
  | none =>
      rw [rename_of_none hsrc]
      exact h
  | some moved =>
      rw [rename_of_some hsrc]
      intro name file hfile
      dsimp only at hfile ⊢
      by_cases hdst : name = dst
      · subst hdst
        rw [Function.update_self] at hfile
        cases hfile
        exact h src _ hsrc
      · rw [Function.update_of_ne hdst] at hfile
        by_cases hname : name = src
        · subst hname
          rw [Function.update_self] at hfile
          cases hfile
        · rw [Function.update_of_ne hname] at hfile
          exact h name file hfile

theorem WellFormed.openAppend (h : fs.WellFormed) (opened : N) :
    (fs.openAppend opened).1.WellFormed := by
  cases hdir : fs.dir opened with
  | some file =>
      rw [openAppend_of_some hdir]
      exact h
  | none =>
      rw [openAppend_of_none hdir]
      intro name file hfile
      dsimp only at hfile ⊢
      by_cases hname : name = opened
      · subst hname
        rw [Function.update_self] at hfile
        cases hfile
        exact Nat.lt_succ_self _
      · rw [Function.update_of_ne hname] at hfile
        exact Nat.lt_succ_of_lt (h name file hfile)

theorem dir_openAppend (fs : Files N α) (opened : N) :
    (fs.openAppend opened).1.dir opened = some (fs.openAppend opened).2 := by
  cases hdir : fs.dir opened with
  | some file =>
      rw [openAppend_of_some hdir]
      exact hdir
  | none =>
      rw [openAppend_of_none hdir]
      exact Function.update_self _ _ _

/-- A name that is taken keeps its file when a name is opened. -/
theorem dir_openAppend_of_some {opened : N} {file : ℕ}
    (h : fs.dir name = some file) :
    (fs.openAppend opened).1.dir name = some file := by
  cases hdir : fs.dir opened with
  | some _ =>
      rw [openAppend_of_some hdir]
      exact h
  | none =>
      have hname : name ≠ opened := by
        rintro rfl
        rw [hdir] at h
        cases h
      rw [openAppend_of_none hdir]
      exact (Function.update_of_ne hname _ _).trans h

theorem Holds.remove (h : fs.Holds name item) {gone : N} (hname : name ≠ gone) :
    (fs.remove gone).Holds name item := by
  obtain ⟨held, hdir, hmem⟩ := h
  exact ⟨held, (Function.update_of_ne hname _ _).trans hdir, hmem⟩

/-- A rename leaves the other names alone. -/
theorem Holds.rename_other (h : fs.Holds name item) {src dst : N}
    (hsrc : name ≠ src) (hdst : name ≠ dst) :
    (fs.rename src dst).Holds name item := by
  obtain ⟨held, hdir, hmem⟩ := h
  cases hmoved : fs.dir src with
  | none =>
      rw [rename_of_none hmoved]
      exact ⟨held, hdir, hmem⟩
  | some moved =>
      rw [rename_of_some hmoved]
      refine ⟨held, ?_, hmem⟩
      dsimp only
      rw [Function.update_of_ne hdst, Function.update_of_ne hsrc]
      exact hdir

/-- What was under the old name is under the new one. -/
theorem Holds.rename_moved {src : N} (h : fs.Holds src item) (dst : N) :
    (fs.rename src dst).Holds dst item := by
  obtain ⟨held, hdir, hmem⟩ := h
  rw [rename_of_some hdir]
  exact ⟨held, Function.update_self _ _ _, hmem⟩

theorem Holds.openAppend (h : fs.Holds name item) (hwf : fs.WellFormed)
    (opened : N) : (fs.openAppend opened).1.Holds name item := by
  obtain ⟨held, hdir, hmem⟩ := h
  refine ⟨held, dir_openAppend_of_some hdir, ?_⟩
  have hold : held ≠ fs.next := Nat.ne_of_lt (hwf name held hdir)
  cases hopened : fs.dir opened with
  | some file =>
      rw [openAppend_of_some hopened]
      exact hmem
  | none =>
      rw [openAppend_of_none hopened]
      dsimp only
      rw [Function.update_of_ne hold]
      exact hmem

end Files

end ReserveGrid.Support
