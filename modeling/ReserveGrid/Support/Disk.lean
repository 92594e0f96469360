import ReserveGrid.Support.Lines

/-!
# A log file on a disk that may lose power

A file has a synced part, which survives everything, and a part written since
the last sync, of which a crash leaves some torn version. A file is replaced
by renaming another one over its name. Until the directory is synced a power
loss may bring the replaced file back.

What a torn write may leave is stated through the reader of the log: each
record read from the torn part is one of the records that were being written.
Truncation at any byte, lost sectors and reordered sectors are all of this
kind.
-/

namespace ReserveGrid.Support

variable {ρ : Type*}

/-- One file: what was synced and what was written since. -/
structure FileImage where
  synced : Bytes
  unsynced : Bytes

/-- The log's place on the disk: the file its name refers to, the files a
power loss may still bring back under that name, and the temporary file of a
replacement under way. -/
structure Disk where
  current : FileImage
  stale : List FileImage
  tmp : Option Bytes

/-- `left` is a torn version of the bytes `written` but not synced. -/
def Torn (read : Bytes → List ρ) (written left : Bytes) : Prop :=
  (written = [] → left = []) ∧ ∀ r ∈ read left, r ∈ read written

instance [DecidableEq ρ] (read : Bytes → List ρ) (written left : Bytes) :
    Decidable (Torn read written left) :=
  inferInstanceAs (Decidable (_ ∧ _))

namespace Disk

/-- The files the log's name may refer to after a power loss. -/
def images (d : Disk) : List FileImage := d.current :: d.stale

/-- What a reader finds under the log's name. -/
def live (d : Disk) : Bytes := d.current.synced ++ d.current.unsynced

/-- The content `f` may be found under the log's name, now or after a crash
at this moment. -/
def MayShow (read : Bytes → List ρ) (d : Disk) (f : Bytes) : Prop :=
  ∃ img ∈ d.images, ∃ left, Torn read img.unsynced left ∧
    f = img.synced ++ left

/-- Append to the file without syncing. -/
def write (d : Disk) (bs : Bytes) : Disk :=
  { d with current := { d.current with unsynced := d.current.unsynced ++ bs } }

/-- Sync the file. -/
def sync (d : Disk) : Disk :=
  { d with current := ⟨d.live, []⟩ }

/-- Rename a synced replacement over the log's name. -/
def replace (d : Disk) (content : Bytes) : Disk :=
  { current := ⟨content, []⟩, stale := d.images, tmp := none }

/-- Sync the directory, which makes the last rename durable. -/
def syncDir (d : Disk) : Disk := { d with stale := [] }

/-- The process dies and the machine stays up. -/
def afterProcessCrash (d : Disk) (left : Bytes) : Disk :=
  { d with current := { d.current with unsynced := left } }

/-- The machine loses power while the log's name comes to refer to `img`. -/
def afterPowerLoss (d : Disk) (img : FileImage) (left : Bytes) : Disk :=
  { d with current := ⟨img.synced ++ left, []⟩, stale := [] }

@[simp] theorem images_write (d : Disk) (bs : Bytes) :
    (d.write bs).images =
      ⟨d.current.synced, d.current.unsynced ++ bs⟩ :: d.stale := rfl

@[simp] theorem images_sync (d : Disk) :
    d.sync.images = ⟨d.live, []⟩ :: d.stale := rfl

@[simp] theorem images_replace (d : Disk) (content : Bytes) :
    (d.replace content).images = ⟨content, []⟩ :: d.images := rfl

@[simp] theorem images_syncDir (d : Disk) :
    d.syncDir.images = [d.current] := rfl

@[simp] theorem images_afterProcessCrash (d : Disk) (left : Bytes) :
    (d.afterProcessCrash left).images =
      ⟨d.current.synced, left⟩ :: d.stale := rfl

@[simp] theorem images_afterPowerLoss (d : Disk) (img : FileImage)
    (left : Bytes) :
    (d.afterPowerLoss img left).images = [⟨img.synced ++ left, []⟩] := rfl

theorem current_mem_images (d : Disk) : d.current ∈ d.images := by
  simp [images]

theorem mem_images_of_syncDir {d : Disk} {img : FileImage}
    (h : img ∈ d.syncDir.images) :
    img ∈ d.images := by
  rw [images_syncDir, List.mem_singleton] at h
  rw [h]
  exact d.current_mem_images

theorem mem_images_iff {d : Disk} {img : FileImage} :
    img ∈ d.images ↔ img = d.current ∨ img ∈ d.stale := by
  simp [images]

end Disk

/-- A file whose unsynced part, if any, stands on lines of its own. -/
def FileImage.WellFormed (img : FileImage) : Prop :=
  img.unsynced = [] ∨ Terminated img.synced

/-- What a torn file reads as: all synced records, and of the others only
records that were being written. -/
theorem Torn.read_append
    {read : Bytes → List ρ}
    (hread : ∀ f g, Terminated f → read (f ++ g) = read f ++ read g)
    {img : FileImage} (himg : img.WellFormed) {left : Bytes}
    (h : Torn read img.unsynced left) (r : ρ) :
    (r ∈ read img.synced → r ∈ read (img.synced ++ left)) ∧
      (r ∈ read (img.synced ++ left) →
        r ∈ read img.synced ∨ r ∈ read img.unsynced) := by
  rcases himg with hnone | hterminated
  · rw [h.1 hnone, List.append_nil]
    exact ⟨id, Or.inl⟩
  · rw [hread _ _ hterminated, List.mem_append]
    exact ⟨Or.inl, Or.imp_right (h.2 r)⟩

end ReserveGrid.Support
