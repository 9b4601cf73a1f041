import PhpHandlebars.PhpArray
import Mathlib.Tactic

/-!
# Looking up entries of wrapped PHP values

`handlebars_std_zval_map_find` first looks for the string key itself and then
for the number which `strtol` makes of it; PHP would turn a canonical decimal
into an integer and leave every other string alone.
-/

namespace PhpHandlebars

open DecimalText

/-- What the Zend handlers of objects answer: `has_dimension`,
`read_dimension`, `zend_read_property`, and the closure over a callable
method. -/
structure ObjectHandlers where
  isArrayAccess : ℕ → Bool
  hasDimension : ℕ → Bytes → Bool
  readDimension : ℕ → Bytes → Option Zval
  readProperty : ℕ → Bytes → Option Zval
  callableMethod : ℕ → Bytes → Option ℕ

/-- The `IS_ARRAY` case of `handlebars_std_zval_map_find`. -/
def arrayEntry (table : HashTable) (key : Bytes) : Option Zval :=
  match zendHashFind table key with
  | some entry => some entry
  | none =>
      let (index, rest) := strtol longMin longMax key
      if AtNul rest then zendHashIndexFind table index else none

/-- The `IS_OBJECT` case. -/
def objectEntry (objects : ObjectHandlers) (handle : ℕ) (key : Bytes) :
    Option Zval :=
  let method : Option Zval :=
    (objects.callableMethod handle key).map .object
  if objects.isArrayAccess handle then
    let entry :=
      if objects.hasDimension handle key then
        objects.readDimension handle key
      else
        none
    entry.or method
  else
    match objects.readProperty handle key with
    | none => method
    | some .null => method.or (some .null)
    | some entry => some entry

/-- The entry found is converted into `rv`; without one the result is
NULL. -/
def convertEntry (entry : Option Zval) (rv : Value) :
    Except LibError (Option Value) :=
  match entry with
  | some entry => (handlebarsValueFromZval entry rv).map some
  | none => .ok none

def handlebarsStdZvalMapFind (objects : ObjectHandlers) (intern : Zval)
    (key : Bytes) (rv : Value) : Except LibError (Option Value) :=
  match intern with
  | .array table => convertEntry (arrayEntry table key) rv
  | .object handle => convertEntry (objectEntry objects handle key) rv
  | _ => convertEntry none rv

/-- The `size_t` is taken for a `zend_ulong`, which holds signed keys. -/
def indexEntry (intern : Zval) (index : UInt64) : Option Zval :=
  match intern with
  | .array table => zendHashIndexFind table index.toInt64.toInt
  | _ => none

def handlebarsStdZvalArrayFind (intern : Zval) (index : UInt64) (rv : Value) :
    Except LibError (Option Value) :=
  convertEntry (indexEntry intern index) rv

theorem toInt_toInt64 (index : UInt64) :
    index.toInt64.toInt =
      if index.toNat < 2 ^ 63 then (index.toNat : ℤ)
      else index.toNat - 2 ^ 64 := by
  have hbits : index.toInt64.toInt = index.toBitVec.toInt := rfl
  have hnat : index.toBitVec.toNat = index.toNat := rfl
  rw [hbits, BitVec.toInt_eq_toNat_cond, hnat]
  split <;> split <;> omega

theorem toInt_toInt64_of_le {index : UInt64}
    (hindex : (index.toNat : ℤ) ≤ longMax) :
    index.toInt64.toInt = index.toNat := by
  rw [toInt_toInt64, if_pos]
  unfold longMax at hindex
  omega

variable {objects : ObjectHandlers}

/-! ## PHP subscripting -/

/-- The slot of an array under a string key. -/
def PhpArray.element (array : PhpArray) (key : Bytes) : Option Zval :=
  zendHashLookup array.buckets (symtableKey key)

/-- The value of `$array[$key]`. -/
def PhpArray.subscript (array : PhpArray) (key : Bytes) : Option Zval :=
  (array.element key).map Zval.resolve

/-- A lookup yields the value of `$array[$key]`, as it would be handed back to
PHP, and nothing where there is no such element. -/
def YieldsSubscript (lookup : Except LibError (Option Value))
    (subscript : Option Zval) : Prop :=
  ∃ found, lookup = .ok found ∧ found.map handlebarsValueToZval = subscript

/-- The element converts, if it is null into a slot which reads as null, and
where PHP has none, what `strtol` reads is not taken for a key: it stops before
the first NUL byte, or at a number under which there is no element. -/
structure LooksUpAlike (array : PhpArray) (key : Bytes) (rv : Value) :
    Prop where
  converts : ∀ entry, array.element key = some entry →
    entry.zType.Convertible ∧
      (entry.LeavesSlot → handlebarsValueToZval rv = entry)
  missing : array.element key = none →
    AtNul (strtol longMin longMax key).2 →
      zendHashIndexFind array.buckets (strtol longMin longMax key).1 = none

theorem PhpArray.zendHashFind_of_index {array : PhpArray} {key : Bytes}
    {number : ℤ} (hkey : symtableKey key = .index number) :
    zendHashFind array.buckets key = none := by
  rw [zendHashFind_eq_lookup]
  apply zendHashLookup_of_not_mem
  intro hmem
  have hstored := array.stored _ hmem
  simp [ArrayKey.Stored, hkey] at hstored

theorem strtol_of_index {key : Bytes} {number : ℤ}
    (hkey : symtableKey key = .index number) :
    strtol longMin longMax key = (number, []) := by
  rcases symtableKey_cases key with
    ⟨number', hread, hlo, hhi, hindex⟩ | hstring
  · rw [hkey] at hindex
    obtain rfl := ArrayKey.index.inj hindex
    exact strtol_of_readInteger hread hlo hhi
  · simp [hkey] at hstring

/-- What PHP finds, the fallback finds as well. -/
theorem PhpArray.arrayEntry_of_element {array : PhpArray} {key : Bytes}
    {entry : Zval} (hentry : array.element key = some entry) :
    arrayEntry array.buckets key = some entry := by
  unfold PhpArray.element at hentry
  unfold arrayEntry
  rcases symtableKey_cases key with ⟨number, _, _, _, hkey⟩ | hkey
  · rw [array.zendHashFind_of_index hkey, strtol_of_index hkey]
    rw [hkey] at hentry
    simpa [AtNul, zendHashIndexFind] using hentry
  · rw [hkey, ← zendHashFind_eq_lookup] at hentry
    rw [hentry]

theorem PhpArray.arrayEntry_of_missing {array : PhpArray} {key : Bytes}
    (hentry : array.element key = none) :
    arrayEntry array.buckets key =
      if AtNul (strtol longMin longMax key).2 then
        zendHashIndexFind array.buckets (strtol longMin longMax key).1
      else none := by
  have hfind : zendHashFind array.buckets key = none := by
    rcases symtableKey_cases key with ⟨number, _, _, _, hkey⟩ | hkey
    · exact array.zendHashFind_of_index hkey
    · unfold PhpArray.element at hentry
      rwa [hkey] at hentry
  simp only [arrayEntry, hfind]

theorem resolve_of_plain {val : Zval} (href : val.zType ≠ .isReference)
    (hindirect : val.zType ≠ .isIndirect) : val.resolve = val := by
  cases val with
  | reference target => exact absurd rfl href
  | indirect slot => exact absurd rfl hindirect
  | _ => rfl

theorem convertEntry_some_ok_iff {entry : Zval} {rv : Value}
    {found : Option Value} :
    convertEntry (some entry) rv = .ok found ↔
      ∃ value, handlebarsValueFromZval entry rv = .ok value ∧
        found = some value := by
  rw [convertEntry]
  cases handlebarsValueFromZval entry rv with
  | error error => simp [Except.map]
  | ok value => simp [Except.map, eq_comm]

/-- An element which is found comes back as what it refers to exactly when it
converts, and the slot reads as it does where it is not written. -/
theorem yieldsSubscript_some_iff (entry : Zval) (rv : Value) :
    YieldsSubscript (convertEntry (some entry) rv) (some entry.resolve) ↔
      entry.zType.Convertible ∧
        (entry.LeavesSlot → handlebarsValueToZval rv = entry) := by
  simp only [YieldsSubscript, convertEntry_some_ok_iff]
  cases entry with
  | resource handle =>
      simp [handlebarsValueFromZval, ZvalType.Convertible, Zval.zType]
  | reference target =>
      simp [handlebarsValueFromZval, ZvalType.Convertible, Zval.zType]
  | indirect slot =>
      simp [handlebarsValueFromZval, ZvalType.Convertible, Zval.zType]
  | _ =>
      simp [handlebarsValueFromZval, handlebarsValueToZval, Zval.deref,
        Zval.resolve, ZvalType.Convertible, Zval.LeavesSlot, Zval.zType]

theorem yieldsSubscript_none_iff (entry : Option Zval) (rv : Value) :
    YieldsSubscript (convertEntry entry rv) none ↔ entry = none := by
  cases entry with
  | none => simp [YieldsSubscript, convertEntry]
  | some entry => simp [YieldsSubscript, convertEntry_some_ok_iff]

/-- The lookups which yield what `$array[$key]` denotes. -/
theorem mapFind_yields_subscript_iff (objects : ObjectHandlers)
    (array : PhpArray) (key : Bytes) (rv : Value) :
    YieldsSubscript
        (handlebarsStdZvalMapFind objects (.array array.buckets) key rv)
        (array.subscript key) ↔
      LooksUpAlike array key rv := by
  change YieldsSubscript (convertEntry (arrayEntry array.buckets key) rv) _ ↔ _
  cases hentry : array.element key with
  | some entry =>
      rw [array.arrayEntry_of_element hentry, PhpArray.subscript, hentry,
        Option.map_some, yieldsSubscript_some_iff]
      constructor
      · intro hconverts
        refine ⟨?_, by simp [hentry]⟩
        intro other hother
        rw [hentry] at hother
        obtain rfl := Option.some.inj hother
        exact hconverts
      · intro halike
        exact halike.converts entry hentry
  | none =>
      rw [array.arrayEntry_of_missing hentry, PhpArray.subscript, hentry,
        Option.map_none, yieldsSubscript_none_iff, ite_eq_right_iff]
      constructor
      · intro hmissing
        exact ⟨by simp [hentry], fun _ => hmissing⟩
      · intro halike
        exact halike.missing hentry

def noObjects : ObjectHandlers where
  isArrayAccess := fun _ => false
  hasDimension := fun _ _ => false
  readDimension := fun _ _ => none
  readProperty := fun _ _ => none
  callableMethod := fun _ _ => none

def listOfOne : PhpArray where
  buckets := [(.index 0, .string (ascii "a"))]
  nodup := by simp
  stored := by simp [ArrayKey.Stored, longMin, longMax]

/-- The empty string is no key of the array, and `strtol` makes zero of it. -/
theorem empty_key_finds_first :
    ¬ YieldsSubscript
      (handlebarsStdZvalMapFind noObjects (.array listOfOne.buckets) [] .null)
      (listOfOne.subscript []) := by
  have hmissing : listOfOne.subscript [] = none := rfl
  rw [hmissing]
  rintro ⟨found, hfound, hnothing⟩
  obtain rfl := Except.ok.inj hfound
  simp at hnothing

end PhpHandlebars
