import Mathlib.Data.List.Nodup
import ReserveGrid.Support.JsonText
import ReserveGrid.Support.Text

/-!
# JSON values and the structures in them

A value is a tree whose objects list their fields. A structure is read from an
object by name: a field may stand anywhere and other fields are passed over, a
field that stands twice is an error, and an optional field may be missing or
null. How a tree is written as text and read from it is the library's own; what
a caller relies on is a predicate on the library.
-/

namespace ReserveGrid.Support

open JsonText (utf8 fromUtf8 fromUtf8_utf8 utf8_of_fromUtf8)

/-- A JSON value. Arrays and numbers that are neither natural nor of floating
point are kept as text. -/
inductive JsonTree where
  | null
  | bool (b : Bool)
  | nat (n : ℕ)
  | float (x : Float)
  | str (s : String)
  | obj (fields : List (String × JsonTree))
  | other (text : Bytes)

namespace JsonTree

/-! ## Reading -/

def readBool : JsonTree → Option Bool
  | .bool b => some b
  | _ => none

/-- A natural number of so many bits. -/
def readNat (bits : ℕ) : JsonTree → Option ℕ
  | .nat n => if n < 2 ^ bits then some n else none
  | _ => none

def readU16 (v : JsonTree) : Option UInt16 := (v.readNat 16).map UInt16.ofNat

def readU32 (v : JsonTree) : Option UInt32 := (v.readNat 32).map UInt32.ofNat

def readU64 (v : JsonTree) : Option UInt64 := (v.readNat 64).map UInt64.ofNat

def readF64 : JsonTree → Option Float
  | .float x => some x
  | .nat n => some (Float.ofNat n)
  | _ => none

def readStr : JsonTree → Option String
  | .str s => some s
  | _ => none

/-- An optional value: null stands for none. -/
def readOption {α : Type} (read : JsonTree → Option α) : JsonTree → Option (Option α)
  | .null => some none
  | v => (read v).map some

/-- The fields of an object. -/
def fields : JsonTree → Option (List (String × JsonTree))
  | .obj fields => some fields
  | _ => none

/-- The value of a field, if there is one; a repeated field is an error. -/
def field (fields : List (String × JsonTree)) (name : String) :
    Option (Option JsonTree) :=
  match fields.filter fun f => f.1 = name with
  | [] => some none
  | [f] => some (some f.2)
  | _ => none

/-- A field that must be there. -/
def required {α : Type} (read : JsonTree → Option α)
    (fields : List (String × JsonTree)) (name : String) : Option α :=
  match field fields name with
  | some (some v) => read v
  | _ => none

/-- A field that may be missing, with the value it has then. -/
def orDefault {α : Type} (default : α) (read : JsonTree → Option α)
    (fields : List (String × JsonTree)) (name : String) : Option α :=
  match field fields name with
  | some (some v) => read v
  | some none => some default
  | none => none

def optional {α : Type} (read : JsonTree → Option α)
    (fields : List (String × JsonTree)) (name : String) : Option (Option α) :=
  orDefault none (readOption read) fields name

/-! ## Writing -/

def ofOption {α : Type} (write : α → JsonTree) : Option α → JsonTree
  | none => .null
  | some a => write a

/-- A number that is not finite has no text and is written as null. -/
def ofF64 (x : Float) : JsonTree := if x.isFinite then .float x else .null

section

variable {α : Type} {fs : List (String × JsonTree)} {name : String} {v : JsonTree}
  {read : JsonTree → Option α}

@[simp] theorem readBool_bool (b : Bool) : (JsonTree.bool b).readBool = some b := rfl

@[simp] theorem readU16_nat (n : UInt16) : (JsonTree.nat n.toNat).readU16 = some n := by
  simp [readU16, readNat, n.toNat_lt]

@[simp] theorem readU32_nat (n : UInt32) : (JsonTree.nat n.toNat).readU32 = some n := by
  simp [readU32, readNat, n.toNat_lt]

@[simp] theorem readU64_nat (n : UInt64) : (JsonTree.nat n.toNat).readU64 = some n := by
  simp [readU64, readNat, n.toNat_lt]

@[simp] theorem readStr_str (s : String) : (JsonTree.str s).readStr = some s := rfl

theorem field_of_mem (hnodup : (fs.map Prod.fst).Nodup) (h : (name, v) ∈ fs) :
    field fs name = some (some v) := by
  have hfilter : (fs.filter fun f => f.1 = name) = [(name, v)] := by
    induction fs with
    | nil => cases h
    | cons f fs ih =>
        rw [List.map_cons, List.nodup_cons] at hnodup
        rcases List.mem_cons.mp h with rfl | hrest
        · have hnone : (fs.filter fun f => f.1 = name) = [] := by
            apply List.filter_eq_nil_iff.mpr
            intro other hother hname
            exact hnodup.1 (List.mem_map.mpr ⟨other, hother, of_decide_eq_true hname⟩)
          simp [hnone]
        · have hne : f.1 ≠ name := fun hname =>
            hnodup.1 (List.mem_map.mpr ⟨(name, v), hrest, hname.symm⟩)
          simp [hne, ih hnodup.2 hrest]
  rw [field, hfilter]

theorem field_of_not_mem (h : name ∉ fs.map Prod.fst) : field fs name = some none := by
  have hfilter : (fs.filter fun f => f.1 = name) = [] := by
    apply List.filter_eq_nil_iff.mpr
    intro f hf hname
    exact h (List.mem_map.mpr ⟨f, hf, of_decide_eq_true hname⟩)
  rw [field, hfilter]

/-- Fields of other names do not matter. -/
theorem field_append_of_not_mem {more : List (String × JsonTree)}
    (h : name ∉ more.map Prod.fst) : field (fs ++ more) name = field fs name := by
  have hmore : (more.filter fun f => f.1 = name) = [] := by
    apply List.filter_eq_nil_iff.mpr
    intro f hf hname
    exact h (List.mem_map.mpr ⟨f, hf, of_decide_eq_true hname⟩)
  rw [field, field, List.filter_append, hmore, List.append_nil]

/-- Nor does the order in which the fields stand. -/
theorem field_perm {fs' : List (String × JsonTree)} (hperm : fs.Perm fs')
    (hnodup : (fs.map Prod.fst).Nodup) : field fs name = field fs' name := by
  by_cases hmem : name ∈ fs.map Prod.fst
  · obtain ⟨f, hf, rfl⟩ := List.mem_map.mp hmem
    have hnodup' : (fs'.map Prod.fst).Nodup := (hperm.map Prod.fst).nodup_iff.mp hnodup
    rw [field_of_mem hnodup hf, field_of_mem hnodup' (hperm.mem_iff.mp hf)]
  · have hmem' : name ∉ fs'.map Prod.fst := fun h =>
      hmem ((hperm.map Prod.fst).mem_iff.mpr h)
    rw [field_of_not_mem hmem, field_of_not_mem hmem']

end

/-! ## Objects that present fields -/

/-- The object has the known fields, apart from those that are null and missing.
It may have others, and they may stand in any order. -/
def Presents (fs known : List (String × JsonTree)) : Prop :=
  ∀ f ∈ known, field fs f.1 = some (some f.2) ∨ f.2 = .null ∧ field fs f.1 = some none

section

variable {α : Type} {fs known : List (String × JsonTree)} {name : String}
  {v : JsonTree} {read : JsonTree → Option α}

theorem presents_self (hnodup : (fs.map Prod.fst).Nodup) : Presents fs fs :=
  fun _ hf => .inl (field_of_mem hnodup hf)

/-- Fields of unknown names may be added. -/
theorem Presents.append (h : Presents fs known) {more : List (String × JsonTree)}
    (hmore : ∀ f ∈ known, f.1 ∉ more.map Prod.fst) : Presents (fs ++ more) known := by
  intro f hf
  rw [field_append_of_not_mem (hmore f hf)]
  exact h f hf

theorem Presents.perm (h : Presents fs known) {fs' : List (String × JsonTree)}
    (hperm : fs.Perm fs') (hnodup : (fs.map Prod.fst).Nodup) : Presents fs' known := by
  intro f hf
  rw [← field_perm hperm hnodup]
  exact h f hf

/-- The known field in the given place, if it is not null, is read. -/
theorem Presents.required (h : Presents fs known) (i : ℕ)
    (hi : known[i]? = some (name, v)) (hv : v ≠ .null) :
    required read fs name = read v := by
  rcases h _ (List.mem_of_getElem? hi) with hfield | ⟨hnull, -⟩
  · rw [JsonTree.required, hfield]
  · exact absurd hnull hv

theorem Presents.optional (h : Presents fs known) (i : ℕ)
    (hi : known[i]? = some (name, v)) :
    optional read fs name = readOption read v := by
  rcases h _ (List.mem_of_getElem? hi) with hfield | ⟨hnull, hfield⟩
  · rw [JsonTree.optional, orDefault, hfield]
  · dsimp only at hnull hfield
    rw [JsonTree.optional, orDefault, hfield, hnull, readOption]

theorem readOption_ofOption {write : α → JsonTree} (hread : ∀ a, read (write a) = some a)
    (hnull : ∀ a, write a ≠ .null) (a : Option α) :
    readOption read (ofOption write a) = some a := by
  rcases a with _ | a
  · rfl
  · rw [ofOption, readOption, hread]
    · rfl
    · exact hnull a

end

/-! ## Text -/

mutual

/-- The tree with its numbers of floating point changed. -/
def mapFloat (f : Float → Float) : JsonTree → JsonTree
  | .float x => .float (f x)
  | .obj fields => .obj (mapFields f fields)
  | .null => .null
  | .bool b => .bool b
  | .nat n => .nat n
  | .str s => .str s
  | .other text => .other text

def mapFields (f : Float → Float) : List (String × JsonTree) → List (String × JsonTree)
  | [] => []
  | (name, v) :: rest => (name, mapFloat f v) :: mapFields f rest

end

@[simp] theorem mapFields_eq (f : Float → Float) (fs : List (String × JsonTree)) :
    mapFields f fs = fs.map fun field => (field.1, field.2.mapFloat f) := by
  induction fs with
  | nil => rfl
  | cons field fs ih => simp [mapFields, ih]

theorem map_fst_mapFields (f : Float → Float) (fs : List (String × JsonTree)) :
    (mapFields f fs).map Prod.fst = fs.map Prod.fst := by
  simp [Function.comp_def]

@[simp] theorem mapFloat_ofOption {α : Type} (f : Float → Float) (write : α → JsonTree)
    (a : Option α) :
    (ofOption write a).mapFloat f = ofOption (fun a => (write a).mapFloat f) a := by
  rcases a with _ | a
  · rfl
  · rfl

mutual

/-- The library writes every such tree: numbers are finite and of 64 bits. -/
def Writable : JsonTree → Prop
  | .float x => x.isFinite = true
  | .nat n => n < 2 ^ 64
  | .obj fields => AllWritable fields
  | .other _ => False
  | .null | .bool _ | .str _ => True

def AllWritable : List (String × JsonTree) → Prop
  | [] => True
  | (_, v) :: rest => v.Writable ∧ AllWritable rest

end

theorem writable_ofOption {α : Type} (write : α → JsonTree)
    (h : ∀ a, (write a).Writable) (a : Option α) : (ofOption write a).Writable := by
  rcases a with _ | a
  · trivial
  · exact h a

end JsonTree

/-- The JSON library. Its parser need not give back a number of floating point
exactly. -/
structure JsonLib where
  write : JsonTree → Bytes
  read : Bytes → Option JsonTree
  reread : Float → Float

/-- What a caller relies on. Text is compact and of no control characters, the
text of an object stands between its braces, a tree that was written is read back,
up to its floating point, and the text of an object is no beginning of another. -/
structure JsonLib.Lawful (lib : JsonLib) : Prop where
  text : ∀ v : JsonTree, v.Writable → ∃ cs : List Char, asBytes cs = lib.write v
  printable : ∀ v : JsonTree, v.Writable → ∀ b ∈ lib.write v, 0x20 ≤ b
  braces : ∀ fields, ∃ inner, lib.write (.obj fields) = 0x7b :: (inner ++ [0x7d])
  read_write : ∀ v : JsonTree, v.Writable →
    lib.read (lib.write v) = some (v.mapFloat lib.reread)
  read_cut : ∀ fields, (JsonTree.obj fields).Writable → ∀ p,
    p <+: lib.write (.obj fields) → p ≠ lib.write (.obj fields) → lib.read p = none

/-! ## Lines -/

/-- No byte of a character outside ASCII is one of ASCII. -/
theorem le_of_mem_utf8EncodeChar {c : Char} (hc : 0x7f < c.val.toNat) {b : UInt8}
    (hb : b ∈ String.utf8EncodeChar c) : 0x80 ≤ b := by
  rw [UInt8.le_iff_toNat_le]
  rw [String.utf8EncodeChar, if_neg (by omega)] at hb
  split at hb
  · simp only [List.mem_cons, List.not_mem_nil, or_false] at hb
    rcases hb with rfl | rfl
    all_goals
      rw [UInt8.toNat_ofNat']
      simp only [UInt8.reduceToNat]
      omega
  · split at hb
    · simp only [List.mem_cons, List.not_mem_nil, or_false] at hb
      rcases hb with rfl | rfl | rfl
      all_goals
        rw [UInt8.toNat_ofNat']
        simp only [UInt8.reduceToNat]
        omega
    · simp only [List.mem_cons, List.not_mem_nil, or_false] at hb
      rcases hb with rfl | rfl | rfl | rfl
      all_goals
        rw [UInt8.toNat_ofNat']
        simp only [UInt8.reduceToNat]
        omega

theorem utf8_eq_asBytes (s : String) : utf8 s = asBytes s.toList := by
  rw [utf8, ← String.utf8Encode_toList, List.utf8Encode, List.data_toByteArray,
    List.toList_toArray]
  rfl

theorem utf8EncodeChar_digitChar {d : ℕ} (hd : d < 10) :
    String.utf8EncodeChar (Nat.digitChar d) = [UInt8.ofNat (0x30 + d)] := by
  have hall : ∀ d : Fin 10,
      String.utf8EncodeChar (Nat.digitChar d) = [UInt8.ofNat (0x30 + d)] := by
    decide
  exact hall ⟨d, hd⟩

/-- The digits of a number as text are its decimal digits. -/
theorem asBytes_toDigits (n : ℕ) : asBytes (Nat.toDigits 10 n) = JsonText.decimal n := by
  induction n using Nat.strong_induction_on with
  | _ n ih =>
      by_cases hlt : n < 10
      · rw [Nat.toDigits_of_lt_base hlt, asBytes, List.flatMap_singleton,
          utf8EncodeChar_digitChar hlt, JsonText.decimal]
        by_cases hzero : n = 0
        · rw [if_pos hzero, hzero]
          rfl
        · rw [if_neg hzero, Nat.digits_of_lt 10 n hzero hlt]
          rfl
      · have hpos : 0 < n := by omega
        have hmod : n % 10 < 10 := Nat.mod_lt n (by decide)
        rw [Nat.toDigits_of_base_le (by decide) (by omega), asBytes, List.flatMap_append,
          List.flatMap_singleton, utf8EncodeChar_digitChar hmod]
        change asBytes _ ++ _ = _
        rw [ih (n / 10) (by omega), JsonText.decimal, if_neg (by omega), JsonText.decimal,
          if_neg (by omega), Nat.digits_def' (by decide) hpos, List.reverse_cons,
          List.map_append]
        rfl

/-- A character with an ASCII byte is that byte. -/
theorem eq_of_mem_utf8EncodeChar {c : Char} {b : UInt8} (hb : b ∈ String.utf8EncodeChar c)
    (hlt : b < 0x80) : c.val.toNat = b.toNat := by
  by_cases hc : c.val.toNat ≤ 0x7f
  · rw [String.utf8EncodeChar, if_pos hc, List.mem_singleton] at hb
    rw [hb, UInt8.toNat_ofNat']
    omega
  · exact absurd (le_of_mem_utf8EncodeChar (by omega) hb) (UInt8.not_le.mpr hlt)

/-- A character of a byte that is no white space of ASCII is no white space. -/
theorem isWhiteSpace_of_mem {c : Char} {b : UInt8} (hb : b ∈ String.utf8EncodeChar c)
    (hplain : b < 0x80 ∧ isWhiteSpace (Char.ofNat b.toNat) = false) :
    isWhiteSpace c = false := by
  have hval := eq_of_mem_utf8EncodeChar hb hplain.1
  rw [← hplain.2, ← hval]
  exact congrArg isWhiteSpace (Char.ofNat_toNat c).symm

theorem exists_first {cs : List Char} {first : UInt8} {rest : Bytes}
    (h : asBytes cs = first :: rest)
    (hfirst : first < 0x80 ∧ isWhiteSpace (Char.ofNat first.toNat) = false) :
    ∃ c tail, cs = c :: tail ∧ isWhiteSpace c = false := by
  rcases cs with _ | ⟨c, tail⟩
  · cases h
  · have hne : String.utf8EncodeChar c ≠ [] := String.utf8EncodeChar_ne_nil
    obtain ⟨b, bs, hcons⟩ := List.exists_cons_of_ne_nil hne
    rw [asBytes, List.flatMap_cons, hcons, List.cons_append] at h
    have hmem : first ∈ String.utf8EncodeChar c := by
      rw [hcons, (List.cons.inj h).1]
      exact List.mem_cons_self
    exact ⟨c, tail, rfl, isWhiteSpace_of_mem hmem hfirst⟩

theorem exists_last {cs : List Char} {last : UInt8} {init : Bytes}
    (h : asBytes cs = init ++ [last])
    (hlast : last < 0x80 ∧ isWhiteSpace (Char.ofNat last.toNat) = false) :
    ∃ before d, cs = before ++ [d] ∧ isWhiteSpace d = false := by
  rcases List.eq_nil_or_concat cs with rfl | ⟨before, d, rfl⟩
  · exact absurd h.symm (by simp [asBytes])
  · have hne : String.utf8EncodeChar d ≠ [] := String.utf8EncodeChar_ne_nil
    rw [List.concat_eq_append, asBytes, List.flatMap_append, List.flatMap_singleton] at h
    have hgetLast := congrArg List.getLast? h
    rw [List.getLast?_append_of_ne_nil _ hne, List.getLast?_concat] at hgetLast
    exact ⟨before, d, List.concat_eq_append, isWhiteSpace_of_mem (List.mem_of_getLast? hgetLast) hlast⟩

/-- After a character that is no white space only the end is trimmed. -/
theorem trim_prefix {cs : List Char} {first : UInt8} {rest : Bytes}
    (h : asBytes cs = first :: rest)
    (hfirst : first < 0x80 ∧ isWhiteSpace (Char.ofNat first.toNat) = false) :
    trim cs <+: cs := by
  obtain ⟨c, tail, rfl, hc⟩ := exists_first h hfirst
  rw [trim, List.dropWhile_cons_of_neg (by simp [hc])]
  have hsuffix := List.dropWhile_suffix isWhiteSpace (l := (c :: tail).reverse)
  rwa [← List.reverse_prefix, List.reverse_reverse] at hsuffix

/-- Between two ASCII characters that are no white space nothing is trimmed. -/
theorem trim_plain {cs : List Char} {first last : UInt8} {inner : Bytes}
    (h : asBytes cs = first :: (inner ++ [last]))
    (hfirst : first < 0x80 ∧ isWhiteSpace (Char.ofNat first.toNat) = false)
    (hlast : last < 0x80 ∧ isWhiteSpace (Char.ofNat last.toNat) = false) :
    trim cs = cs := by
  obtain ⟨before, d, rfl, hd⟩ := exists_last (h.trans List.cons_append.symm) hlast
  obtain ⟨c, tail, hsplit, hc⟩ := exists_first h hfirst
  rw [trim, hsplit, List.dropWhile_cons_of_neg (by simp [hc]), ← hsplit,
    List.reverse_append, List.reverse_singleton, List.singleton_append,
    List.dropWhile_cons_of_neg (by simp [hd])]
  simp

theorem trim_newline {cs : List Char} {first last : UInt8} {inner : Bytes}
    (h : asBytes cs = first :: (inner ++ [last]))
    (hfirst : first < 0x80 ∧ isWhiteSpace (Char.ofNat first.toNat) = false)
    (hlast : last < 0x80 ∧ isWhiteSpace (Char.ofNat last.toNat) = false) :
    trim (cs ++ ['\n']) = cs := by
  have hnewline : isWhiteSpace '\n' = true := by decide
  have hplain := trim_plain h hfirst hlast
  obtain ⟨c, tail, rfl, hc⟩ := exists_first h hfirst
  rw [trim, List.dropWhile_cons_of_neg (by simp [hc])] at hplain
  rw [trim, List.cons_append, List.dropWhile_cons_of_neg (by simp [hc]),
    ← List.cons_append, List.reverse_append, List.reverse_singleton,
    List.singleton_append, List.dropWhile_cons_of_pos hnewline]
  exact hplain

/-- The line of an object that was written, as it is read. -/
theorem JsonLib.Lawful.read_line {lib : JsonLib} (h : lib.Lawful)
    {fields : List (String × JsonTree)} (hw : (JsonTree.obj fields).Writable) :
    ∃ s : String, fromUtf8 (lib.write (.obj fields) ++ [10]) = some s ∧
      lib.read (asBytes (trim s.toList)) =
        some ((JsonTree.obj fields).mapFloat lib.reread) := by
  obtain ⟨cs, hcs⟩ := h.text _ hw
  obtain ⟨inner, hbraces⟩ := h.braces fields
  refine ⟨String.ofList (cs ++ ['\n']), ?_, ?_⟩
  · have hutf8 : utf8 (String.ofList (cs ++ ['\n'])) = lib.write (.obj fields) ++ [10] := by
      rw [utf8_eq_asBytes, String.toList_ofList, asBytes, List.flatMap_append, ← hcs]
      rfl
    rw [← hutf8, fromUtf8_utf8]
  · rw [String.toList_ofList, trim_newline (hcs.trans hbraces) (by decide) (by decide), hcs,
      h.read_write _ hw]

/-- A part of such a line is no text, or reads as nothing or as the object. -/
theorem JsonLib.Lawful.read_part {lib : JsonLib} (h : lib.Lawful)
    {fields : List (String × JsonTree)} (hw : (JsonTree.obj fields).Writable) {part : Bytes}
    (hpart : part <+: lib.write (.obj fields) ++ [10]) {s : String}
    (hs : fromUtf8 part = some s) :
    lib.read (asBytes (trim s.toList)) = none ∨
      lib.read (asBytes (trim s.toList)) =
        some ((JsonTree.obj fields).mapFloat lib.reread) := by
  obtain ⟨inner, hbraces⟩ := h.braces fields
  have htext : asBytes s.toList = part := by
    rw [← utf8_eq_asBytes]
    exact utf8_of_fromUtf8 hs
  rcases List.prefix_concat_iff.mp hpart with rfl | hpart
  · obtain ⟨s', hs', hread⟩ := h.read_line hw
    cases hs.symm.trans hs'
    exact .inr hread
  · by_cases hwhole : part = lib.write (.obj fields)
    · right
      have hplain : trim s.toList = s.toList :=
        trim_plain (htext.trans (hwhole.trans hbraces)) (by decide) (by decide)
      rw [hplain, htext, hwhole, h.read_write _ hw]
    · left
      have htrim : asBytes (trim s.toList) <+: part := by
        rcases hcons : part with _ | ⟨b, rest⟩
        · rw [hcons] at htext
          have hnil : s.toList = [] := by
            by_contra hne
            obtain ⟨c, cs, hc⟩ := List.exists_cons_of_ne_nil hne
            rw [hc, asBytes, List.flatMap_cons] at htext
            exact String.utf8EncodeChar_ne_nil (List.append_eq_nil_iff.mp htext).1
          rw [hnil]
          exact List.prefix_rfl
        · have hb : b = 0x7b := by
            rw [hcons, hbraces] at hpart
            exact (List.cons_prefix_cons.mp hpart).1
          rw [hcons, hb] at htext
          obtain ⟨rest', hrest⟩ := trim_prefix htext (by decide)
          rw [hb, ← htext, ← hrest, asBytes, asBytes, List.flatMap_append, hrest]
          exact List.prefix_append _ _
      refine h.read_cut fields hw _ (htrim.trans hpart) ?_
      intro heq
      rw [heq] at htrim
      exact hwhole (List.IsPrefix.eq_of_length_le hpart htrim.length_le)

end ReserveGrid.Support
