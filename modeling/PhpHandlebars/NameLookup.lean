import PhpHandlebars.SlotSharing
import PhpHandlebars.ValueLookup
import Mathlib.Tactic

/-!
# `Utils::nameLookup` and `Options::lookupProperty`

The field is looked up as an integer first, when it is one or is written in
digits alone, and then as the string it is.  PHP takes a string for an integer
only in canonical form, and has negative integers among its keys.
-/

namespace PhpHandlebars

open DecimalText

/-- `convert_to_string` on a field; what it makes of values other than
integers and strings belongs to the engine. -/
def fieldText (convertToString : Zval → Bytes) : Zval → Bytes
  | .long number => decimal number
  | .string text => text
  | field => convertToString field

def isIntegerString (text : Bytes) : Bool :=
  text.all isDigit

/-- `sscanf(text, "%ld", &target)`. -/
def sscanfLong (text : Bytes) (target : ℤ) : ℤ :=
  let (number, rest) := strtol longMin longMax text
  if rest = text then target else number

/-- `RETVAL_ZVAL` on an entry, behind an `IS_INDIRECT` slot; the value
behind a reference is copied. -/
def returnEntry : Option Zval → Zval
  | some (.indirect slot) => slot.deref
  | some entry => entry.deref
  | none => .null

def phpHandlebarsNameLookup (objects : ObjectHandlers)
    (convertToString : Zval → Bytes) (value field : Zval) : Zval :=
  let text := fieldText convertToString field
  let index :=
    match field with
    | .long number => number
    | _ => if isIntegerString text then sscanfLong text (-1) else -1
  match value with
  | .array table =>
      let found := if index > -1 then zendHashIndexFind table index else none
      match found with
      | some entry => returnEntry (some entry)
      | none => returnEntry (zendHashFind table text)
  | .object handle =>
      if objects.isArrayAccess handle then
        if objects.hasDimension handle text then
          ((objects.readDimension handle text).getD .null).deref
        else
          .null
      else
        returnEntry (objects.readProperty handle text)
  | _ => .null

def utilsNameLookup := phpHandlebarsNameLookup

def optionsLookupProperty := phpHandlebarsNameLookup

/-! ## PHP subscripting -/

/-- What PHP code sees of a value. -/
def Zval.seen (val : Zval) : Zval :=
  val.resolve.read

/-- A field as PHP code passes it; an integer is within the limits. -/
inductive LookupField where
  | integer (number : ℤ) (stored : (ArrayKey.index number).Stored)
  | text (name : Bytes)

def LookupField.zval : LookupField → Zval
  | .integer number _ => .long number
  | .text name => .string name

/-- The key which PHP makes of the field. -/
def LookupField.key : LookupField → ArrayKey
  | .integer number _ => .index number
  | .text name => symtableKey name

/-- The value of `$array[$field]`. -/
def PhpArray.valueAt (array : PhpArray) (key : ArrayKey) : Zval :=
  ((zendHashLookup array.buckets key).getD .null).seen

/-- No value other than null stands under a negative integer which is looked
up, and the integer which a string of digits is read as leads to the same value
as the string itself. -/
structure LooksUpField (array : PhpArray) (field : LookupField) : Prop where
  negative : ∀ number entry, field.key = .index number → number < 0 →
    zendHashIndexFind array.buckets number = some entry → entry.seen = .null
  padded : ∀ text, field = .text text → text ≠ [] → isIntegerString text →
    symtableKey text = .string text → ∀ entry,
      zendHashIndexFind array.buckets
        (saturate longMin longMax (positional text)) = some entry →
        entry.seen = array.valueAt (.string text)

theorem seen_returnEntry (entry : Option Zval) :
    (returnEntry entry).seen = (entry.getD .null).seen := by
  cases entry with
  | none => rfl
  | some entry =>
      cases entry with
      | reference target => rfl
      | indirect slot => cases slot <;> rfl
      | _ => rfl

theorem isIntegerString_iff (text : Bytes) :
    isIntegerString text ↔ ∀ byte ∈ text, isDigit byte := by
  rw [isIntegerString, List.all_eq_true]

theorem sscanfLong_of_digits {text : Bytes} (hne : text ≠ [])
    (hdigits : isIntegerString text) (target : ℤ) :
    sscanfLong text target =
      saturate longMin longMax (positional text) := by
  have hall := (isIntegerString_iff text).mp hdigits
  simp only [sscanfLong, strtol_of_digits _ _ hne hall, hne.symm, if_false]

theorem symtableKey_of_decimal {number : ℤ}
    (hstored : (ArrayKey.index number).Stored) :
    symtableKey (decimal number) = .index number := by
  obtain ⟨hlo, hhi⟩ := hstored
  simp [symtableKey, readInteger_decimal, hlo, hhi]

/-- The canonical form of an integer is written in digits exactly when the
integer is not negative. -/
theorem isIntegerString_of_index {text : Bytes} {number : ℤ}
    (hread : readInteger text = some number) :
    isIntegerString text = decide (0 ≤ number) := by
  rcases readInteger_cases hread with
    ⟨rest, rfl, hplain, hne, rfl⟩ | ⟨hplain, rfl⟩
  · have hpositive : positional rest ≠ 0 := by
      rw [ne_eq, hplain.positional_eq_zero_iff]
      exact hne
    have hnegative : ¬ (0 : ℤ) ≤ -(positional rest) := by omega
    rw [decide_eq_false hnegative]
    simp [isIntegerString, isDigit]
  · have hdigits := (isIntegerString_iff text).mpr hplain.digits
    simp [hdigits]

/-! ## Where the two agree -/

def arrayNameLookup (table : HashTable) (index : ℤ) (text : Bytes) : Zval :=
  match if index > -1 then zendHashIndexFind table index else none with
  | some entry => returnEntry (some entry)
  | none => returnEntry (zendHashFind table text)

theorem arrayNameLookup_of_negative {table : HashTable} {index : ℤ}
    (hindex : index ≤ -1) (text : Bytes) :
    arrayNameLookup table index text = returnEntry (zendHashFind table text) := by
  rw [arrayNameLookup, if_neg (by omega)]

variable {objects : ObjectHandlers} {convertToString : Zval → Bytes}

theorem nameLookup_integer (table : HashTable) (number : ℤ) :
    phpHandlebarsNameLookup objects convertToString (.array table)
        (.long number) =
      arrayNameLookup table number (decimal number) := rfl

theorem nameLookup_text (table : HashTable) (text : Bytes) :
    phpHandlebarsNameLookup objects convertToString (.array table)
        (.string text) =
      arrayNameLookup table
        (if isIntegerString text then sscanfLong text (-1) else -1) text := rfl

/-- An integer which is no key of the array is none as a string either. -/
theorem PhpArray.arrayNameLookup_of_index {array : PhpArray} {number : ℤ}
    {text : Bytes} (hkey : symtableKey text = .index number)
    (hnonneg : 0 ≤ number) :
    (arrayNameLookup array.buckets number text).seen =
      array.valueAt (.index number) := by
  have hmissing := array.zendHashFind_of_index hkey
  have hindex : number > -1 := by omega
  rw [arrayNameLookup, if_pos hindex, PhpArray.valueAt, zendHashIndexFind]
  cases zendHashLookup array.buckets (.index number) with
  | none => rw [hmissing, seen_returnEntry]
  | some entry => exact seen_returnEntry (some entry)

/-- A negative integer is looked up as a string, which is no key. -/
theorem PhpArray.negativeLookup_iff {array : PhpArray} {number : ℤ}
    {text : Bytes} (hkey : symtableKey text = .index number) :
    (returnEntry (zendHashFind array.buckets text)).seen =
        array.valueAt (.index number) ↔
      ∀ entry, zendHashIndexFind array.buckets number = some entry →
        entry.seen = .null := by
  rw [array.zendHashFind_of_index hkey, PhpArray.valueAt, zendHashIndexFind]
  cases zendHashLookup array.buckets (.index number) with
  | none => simp [seen_returnEntry]
  | some entry =>
      simp only [Option.getD_some, Option.some.injEq, forall_eq']
      exact eq_comm

theorem PhpArray.arrayNameLookup_string (array : PhpArray) (index : ℤ)
    {text : Bytes} :
    (arrayNameLookup array.buckets index text).seen =
        array.valueAt (.string text) ↔
      ∀ entry, index > -1 → zendHashIndexFind array.buckets index =
        some entry → entry.seen = array.valueAt (.string text) := by
  have hstring : (returnEntry (zendHashFind array.buckets text)).seen =
      array.valueAt (.string text) := by
    rw [seen_returnEntry, zendHashFind_eq_lookup, PhpArray.valueAt]
  by_cases hindex : index > -1
  · rw [arrayNameLookup, if_pos hindex]
    cases zendHashIndexFind array.buckets index with
    | none => simp [hstring]
    | some entry => simp [seen_returnEntry, hindex]
  · rw [arrayNameLookup_of_negative (by omega)]
    simp [hstring, hindex]

theorem saturate_nonneg (number : ℕ) :
    0 ≤ saturate longMin longMax number := by
  simp only [saturate, longMin, longMax]
  omega

theorem looksUpField_integer_iff (array : PhpArray) (number : ℤ)
    (hstored : (ArrayKey.index number).Stored) :
    LooksUpField array (.integer number hstored) ↔
      (number < 0 → ∀ entry,
        zendHashIndexFind array.buckets number = some entry →
          entry.seen = .null) := by
  constructor
  · intro hfield hnegative entry
    exact hfield.negative number entry rfl hnegative
  · intro hnull
    constructor
    case negative =>
      rintro other entry ⟨rfl⟩ hnegative
      exact hnull hnegative entry
    case padded =>
      rintro text ⟨⟩

theorem looksUpField_index_iff (array : PhpArray) {text : Bytes}
    {number : ℤ} (hkey : symtableKey text = .index number) :
    LooksUpField array (.text text) ↔
      (number < 0 → ∀ entry,
        zendHashIndexFind array.buckets number = some entry →
          entry.seen = .null) := by
  constructor
  · intro hfield hnegative entry
    exact hfield.negative number entry hkey hnegative
  · intro hnull
    constructor
    case negative =>
      intro other entry hother hnegative
      obtain rfl := ArrayKey.index.inj (hkey.symm.trans hother)
      exact hnull hnegative entry
    case padded =>
      rintro other ⟨rfl⟩ _ _ hstring
      simp [hkey] at hstring

theorem looksUpField_string_iff (array : PhpArray) {text : Bytes}
    (hkey : symtableKey text = .string text) :
    LooksUpField array (.text text) ↔
      (text ≠ [] → isIntegerString text → ∀ entry,
        zendHashIndexFind array.buckets
          (saturate longMin longMax (positional text)) = some entry →
          entry.seen = array.valueAt (.string text)) := by
  constructor
  · intro hfield hne hdigits
    exact hfield.padded text rfl hne hdigits hkey
  · intro hsame
    constructor
    case negative =>
      intro number entry hindex
      have hclash := hkey.symm.trans hindex
      simp at hclash
    case padded =>
      rintro other ⟨rfl⟩ hne hdigits _
      exact hsame hne hdigits

theorem nameLookup_seen_iff (objects : ObjectHandlers)
    (convertToString : Zval → Bytes) (array : PhpArray)
    (field : LookupField) :
    (phpHandlebarsNameLookup objects convertToString
        (.array array.buckets) field.zval).seen = array.valueAt field.key ↔
      LooksUpField array field := by
  cases field with
  | integer number hstored =>
      have hkey := symtableKey_of_decimal hstored
      rw [LookupField.zval, LookupField.key, nameLookup_integer,
        looksUpField_integer_iff]
      by_cases hnegative : number < 0
      · rw [arrayNameLookup_of_negative (by omega),
          array.negativeLookup_iff hkey]
        simp [hnegative]
      · exact iff_of_true (array.arrayNameLookup_of_index hkey (by omega))
          (fun hlt => absurd hlt hnegative)
  | text name =>
      rw [LookupField.zval, LookupField.key, nameLookup_text]
      rcases symtableKey_cases name with
        ⟨number, hread, hlo, hhi, hkey⟩ | hkey
      · rw [looksUpField_index_iff array hkey, hkey,
          isIntegerString_of_index hread]
        by_cases hnegative : number < 0
        · rw [decide_eq_false (by omega), if_neg (by simp),
            arrayNameLookup_of_negative (by omega),
            array.negativeLookup_iff hkey]
          simp [hnegative]
        · have hnumber : sscanfLong name (-1) = number := by
            have hstrtol := strtol_of_readInteger hread hlo hhi
            have hne : name ≠ [] := by
              rintro rfl
              simp [readInteger] at hread
            simp [sscanfLong, hstrtol, hne.symm]
          rw [decide_eq_true (by omega), if_pos rfl, hnumber]
          exact iff_of_true (array.arrayNameLookup_of_index hkey (by omega))
            (fun hlt => absurd hlt hnegative)
      · rw [looksUpField_string_iff array hkey, hkey,
          array.arrayNameLookup_string]
        by_cases hdigits : isIntegerString name
        · rw [if_pos hdigits]
          by_cases hne : name = []
          · have hempty : sscanfLong name (-1) = -1 := by
              subst hne
              rfl
            rw [hempty]
            simp [hne]
          · have hnonneg := saturate_nonneg (positional name)
            have hindex : saturate longMin longMax (positional name) > -1 := by
              omega
            rw [sscanfLong_of_digits hne hdigits]
            simp [hdigits, hne, hindex]
        · rw [if_neg hdigits]
          simp [hdigits]

/-- The lookups of both methods which give the value of `$array[$field]`. -/
theorem nameLookup_eq_subscript_iff (objects : ObjectHandlers)
    (convertToString : Zval → Bytes) (array : PhpArray)
    (field : LookupField) :
    ((utilsNameLookup objects convertToString (.array array.buckets)
          field.zval).seen = array.valueAt field.key ∧
      (optionsLookupProperty objects convertToString (.array array.buckets)
          field.zval).seen = array.valueAt field.key) ↔
      LooksUpField array field := by
  rw [utilsNameLookup, optionsLookupProperty, and_self]
  exact nameLookup_seen_iff objects convertToString array field

def belowZero : PhpArray where
  buckets := [(.index (-5), .string (ascii "x"))]
  nodup := by simp
  stored := by simp [ArrayKey.Stored, longMin, longMax]

def sevenTwice : PhpArray where
  buckets := [(.index 7, .string (ascii "a")),
    (.string (ascii "007"), .string (ascii "b"))]
  nodup := by simp
  stored := by
    intro key hkey
    simp only [List.map_cons, List.map_nil, List.mem_cons,
      List.not_mem_nil, or_false] at hkey
    rcases hkey with rfl | rfl
    · simp [ArrayKey.Stored, longMin, longMax]
    · change symtableKey (ascii "007") = .string (ascii "007")
      decide

/-- The element under -5 is not found, and `'007'` finds the element under
7. -/
theorem negative_and_padded_fields_missed :
    (utilsNameLookup noObjects (fun _ => []) (.array belowZero.buckets)
        (.string (ascii "-5"))).seen ≠
        belowZero.valueAt (LookupField.text (ascii "-5")).key ∧
      (utilsNameLookup noObjects (fun _ => []) (.array sevenTwice.buckets)
        (.string (ascii "007"))).seen ≠
        sevenTwice.valueAt (LookupField.text (ascii "007")).key := by
  constructor
  · have hmissed : utilsNameLookup noObjects (fun _ => [])
        (.array belowZero.buckets) (.string (ascii "-5")) = .null := rfl
    have hvalue : belowZero.valueAt
        (LookupField.text (ascii "-5")).key = .string (ascii "x") := rfl
    rw [hmissed, hvalue]
    simp [Zval.seen, Zval.resolve, Zval.read]
  · have hfound : utilsNameLookup noObjects (fun _ => [])
        (.array sevenTwice.buckets) (.string (ascii "007")) =
          .string (ascii "a") := rfl
    have hvalue : sevenTwice.valueAt
        (LookupField.text (ascii "007")).key = .string (ascii "b") := rfl
    rw [hfound, hvalue]
    simp [Zval.seen, Zval.resolve, Zval.read, ascii]

end PhpHandlebars
