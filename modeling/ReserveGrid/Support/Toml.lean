import ReserveGrid.Support.Result

/-!
# TOML documents

A document is a table, and a table keeps its entries in the order of their keys.
Setting an entry replaces the value of its key and leaves all others alone. A
structure is read from a table by name: a field that may be missing is absent
or has a value of its type, and entries that no field names are passed over.
How documents are written as text and read from it is the library's own.
-/

namespace ReserveGrid.Support

/-- A value. Floats, truth values, dates and arrays are kept as text. -/
inductive Toml where
  | string (s : String)
  | integer (n : Int64)
  | table (entries : List (String × Toml))
  | other (text : String)

namespace Toml

/-- The entries of a table. -/
abbrev Entries := List (String × Toml)

/-- The value of a key. -/
def get (entries : Entries) (key : String) : Option Toml := entries.lookup key

/-- Set the value of a key, at its place in the order. -/
def insert (key : String) (value : Toml) : Entries → Entries
  | [] => [(key, value)]
  | (k, v) :: entries =>
      if key = k then (key, value) :: entries
      else if key < k then (key, value) :: (k, v) :: entries
      else (k, v) :: insert key value entries

/-- Set the value of a key when there is one to set. -/
def insertSome (key : String) (value : Option Toml) (entries : Entries) :
    Entries :=
  match value with
  | none => entries
  | some v => insert key v entries

@[simp] theorem get_insert_self (key : String) (value : Toml)
    (entries : Entries) :
    get (insert key value entries) key = some value := by
  induction entries with
  | nil => simp [insert, get]
  | cons e entries ih =>
      obtain ⟨k, v⟩ := e
      unfold insert
      split
      · simp [get]
      · split
        · simp [get]
        · rename_i hne _
          unfold get at ih ⊢
          rw [List.lookup_cons, beq_eq_false_iff_ne.mpr hne]
          exact ih

theorem get_insert_of_ne {key j : String} (h : j ≠ key) (value : Toml)
    (entries : Entries) :
    get (insert key value entries) j = get entries j := by
  have hne : (j == key) = false := beq_eq_false_iff_ne.mpr h
  induction entries with
  | nil => simp [insert, get, List.lookup_cons, hne]
  | cons e entries ih =>
      obtain ⟨k, v⟩ := e
      unfold insert
      split
      · rename_i heq
        simp only [get, List.lookup_cons, hne, heq ▸ hne]
      · split
        · simp only [get, List.lookup_cons, hne]
        · unfold get at ih ⊢
          rw [List.lookup_cons, List.lookup_cons, ih]

theorem get_insertSome_of_ne {key j : String} (h : j ≠ key)
    (value : Option Toml) (entries : Entries) :
    get (insertSome key value entries) j = get entries j := by
  cases value with
  | none => rfl
  | some v => exact get_insert_of_ne h v entries

/-! ## Reading fields -/

def asString : Toml → Option String
  | .string s => some s
  | _ => none

def asTable : Toml → Option Entries
  | .table entries => some entries
  | _ => none

/-- An integer as an unsigned number of 64 bits. -/
def asU64 : Toml → Option UInt64
  | .integer n => if n < 0 then none else some n.toUInt64
  | _ => none

theorem asTable_eq_some {v : Toml} {entries : Entries} :
    asTable v = some entries ↔ v = .table entries := by
  cases v <;> simp [asTable]

variable {α : Type}

/-- A field that must be there. -/
def required (read : Toml → Option α) (entries : Entries) (key : String) :
    Option α :=
  (get entries key).bind read

/-- A field that may be missing. -/
def optional (read : Toml → Option α) (entries : Entries) (key : String) :
    Option (Option α) :=
  match get entries key with
  | none => some none
  | some v => (read v).map some

/-- A field that was set last reads as what it was set to. -/
theorem required_insertSome_self (read : Toml → Option α) (key : String)
    (value : Option Toml) (entries : Entries) :
    required read (insertSome key value entries) key =
      (value.map read).getD (required read entries key) := by
  cases value <;> simp [required, insertSome]

theorem optional_insertSome_self (read : Toml → Option α) (key : String)
    (value : Option Toml) (entries : Entries) :
    optional read (insertSome key value entries) key =
      (value.map fun v => (read v).map some).getD
        (optional read entries key) := by
  cases value <;> simp [optional, insertSome]

theorem required_insertSome_of_ne {key j : String} (h : j ≠ key)
    (read : Toml → Option α) (value : Option Toml) (entries : Entries) :
    required read (insertSome key value entries) j = required read entries j := by
  rw [required, get_insertSome_of_ne h]
  rfl

theorem optional_insertSome_of_ne {key j : String} (h : j ≠ key)
    (read : Toml → Option α) (value : Option Toml) (entries : Entries) :
    optional read (insertSome key value entries) j = optional read entries j := by
  rw [optional, get_insertSome_of_ne h]
  rfl

end Toml

/-- The TOML library. -/
structure TomlLib where
  fromStr : String → Except String Toml
  toStringPretty : Toml → Except String String

/-- What is written reads back as the same document. -/
structure TomlLib.Lawful (lib : TomlLib) : Prop where
  fromStr_toStringPretty : ∀ {v text}, lib.toStringPretty v = .ok text →
    lib.fromStr text = .ok v

end ReserveGrid.Support
