import ReserveGrid.Support.JsonText

/-!
# JSON objects of plain fields

A structure is serialised as an object whose fields stand in the order of their
declaration, without white space. It is read back by name: a field may stand
anywhere, other fields are passed over, and a field that stands twice is an
error. How a floating-point number is written and how a text is cut into fields
is the library's own; what a caller relies on is stated for the objects it
writes.
-/

namespace ReserveGrid.Support

open JsonText (utf8 escape decimal)

/-- A value of a field. Negative numbers, truth values, arrays and objects are
kept as text. -/
inductive JsonValue where
  | str (s : String)
  | num (n : ℕ)
  | float (x : Float)
  | null
  | other (text : Bytes)

/-- The JSON library. -/
structure SerdeJson where
  writeF64 : Float → Bytes
  fromSlice : Bytes → Option (List (String × JsonValue))

namespace SerdeJson

variable (serde : SerdeJson)

def writeValue : JsonValue → Bytes
  | .str s => 0x22 :: escape (utf8 s)
  | .num n => decimal n
  | .float x => serde.writeF64 x
  | .null => [0x6e, 0x75, 0x6c, 0x6c]
  | .other text => text

/-- The text of an object. -/
def toVec (fields : List (String × JsonValue)) : Bytes :=
  0x7b :: List.intercalate [0x2c] (fields.map fun field =>
    0x22 :: escape (utf8 field.1) ++ 0x3a :: serde.writeValue field.2) ++ [0x7d]

/-- The library reads back the object it wrote. -/
def RoundTrips (fields : List (String × JsonValue)) : Prop :=
  serde.fromSlice (serde.toVec fields) = some fields

variable {serde}

theorem RoundTrips.eq_of_toVec {fields fields' : List (String × JsonValue)}
    (h : serde.RoundTrips fields) (h' : serde.RoundTrips fields')
    (heq : serde.toVec fields = serde.toVec fields') :
    fields = fields' := by
  unfold RoundTrips at h h'
  rw [← heq, h] at h'
  exact Option.some.inj h'

end SerdeJson

namespace JsonValue

def readStr : JsonValue → Option String
  | .str s => some s
  | _ => none

def readU32 : JsonValue → Option UInt32
  | .num n => if n < 2 ^ 32 then some (UInt32.ofNat n) else none
  | _ => none

def readU64 : JsonValue → Option UInt64
  | .num n => if n < 2 ^ 64 then some (UInt64.ofNat n) else none
  | _ => none

def readF64 : JsonValue → Option Float
  | .float x => some x
  | .num n => some (Float.ofNat n)
  | _ => none

def readOptStr : JsonValue → Option (Option String)
  | .null => some none
  | .str s => some (some s)
  | _ => none

def ofOptStr : Option String → JsonValue
  | none => .null
  | some s => .str s

@[simp] theorem readStr_str (s : String) : (JsonValue.str s).readStr = some s :=
  rfl

@[simp] theorem readU32_num (n : UInt32) :
    (JsonValue.num n.toNat).readU32 = some n := by
  rw [readU32, if_pos n.toNat_lt, UInt32.ofNat_toNat]

@[simp] theorem readU64_num (n : UInt64) :
    (JsonValue.num n.toNat).readU64 = some n := by
  rw [readU64, if_pos n.toNat_lt, UInt64.ofNat_toNat]

@[simp] theorem readF64_float (x : Float) :
    (JsonValue.float x).readF64 = some x := rfl

@[simp] theorem readOptStr_ofOptStr (s : Option String) :
    (ofOptStr s).readOptStr = some s := by
  cases s <;> rfl

end JsonValue

/-! ## Reading by name -/

/-- The value of a field, if there is one; a repeated field is an error. -/
def fieldValue (fields : List (String × JsonValue)) (name : String) :
    Option (Option JsonValue) :=
  match fields.filter fun field => field.1 == name with
  | [] => some none
  | [field] => some (some field.2)
  | _ => none

/-- The values of the named fields, in the order of the names. -/
def fieldValues (fields : List (String × JsonValue)) (names : List String) :
    Option (List (Option JsonValue)) :=
  names.mapM (fieldValue fields)

theorem fieldValue_of_mem {fields : List (String × JsonValue)} {name : String}
    {value : JsonValue} (hnodup : (fields.map Prod.fst).Nodup)
    (h : (name, value) ∈ fields) :
    fieldValue fields name = some (some value) := by
  have hfilter : (fields.filter fun field => field.1 == name) =
      [(name, value)] := by
    induction fields with
    | nil => cases h
    | cons field fields ih =>
        rw [List.map_cons, List.nodup_cons] at hnodup
        rcases List.mem_cons.mp h with rfl | hrest
        · have hnone : (fields.filter fun field => field.1 == name) = [] := by
            apply List.filter_eq_nil_iff.mpr
            intro other hother hname
            rw [beq_iff_eq] at hname
            exact hnodup.1 (List.mem_map.mpr ⟨other, hother, hname⟩)
          simp [hnone]
        · have hne : field.1 ≠ name := by
            intro hname
            exact hnodup.1 (List.mem_map.mpr ⟨(name, value), hrest, hname.symm⟩)
          simp [hne, ih hnodup.2 hrest]
  rw [fieldValue, hfilter]

theorem mapM_fieldValue {fields part : List (String × JsonValue)}
    (hnodup : (fields.map Prod.fst).Nodup) (hpart : ∀ e ∈ part, e ∈ fields) :
    (part.map Prod.fst).mapM (fieldValue fields) =
      some (part.map fun e => some e.2) := by
  induction part with
  | nil => rfl
  | cons e part ih =>
      have hvalue : fieldValue fields e.1 = some (some e.2) :=
        fieldValue_of_mem hnodup (hpart e List.mem_cons_self)
      have hrest := ih fun e' he' => hpart e' (List.mem_cons_of_mem _ he')
      rw [List.map_cons, List.mapM_cons, hvalue, hrest]
      rfl

/-- What a structure writes is read back, field by field. -/
theorem fieldValues_zip {names : List String} (hnodup : names.Nodup)
    {values : List JsonValue} (hlength : names.length = values.length) :
    fieldValues (names.zip values) names = some (values.map some) := by
  have hnames : (names.zip values).map Prod.fst = names :=
    List.map_fst_zip hlength.le
  have hvalues : (names.zip values).map Prod.snd = values :=
    List.map_snd_zip hlength.ge
  have hread := mapM_fieldValue (hnames.symm ▸ hnodup) fun e he => he
  rw [hnames] at hread
  rw [fieldValues, hread]
  congr 1
  nth_rewrite 2 [← hvalues]
  rw [List.map_map]
  rfl

end ReserveGrid.Support
