import Mathlib.Data.List.TakeWhile
import Mathlib.Tactic

/-!
# PHP values

The part of a `zval` the extension looks at: its type tag and the payload
under that tag.  The payload accessors check the tag, so that a read through
a wrong one shows up as a fault and not as a made-up value.
-/

namespace PhpHandlebars

/-- Contents of a `zend_string` or of a `handlebars_string`. -/
abbrev Bytes := List UInt8

/-- The bytes of an ASCII literal of the source. -/
def ascii (literal : String) : Bytes :=
  literal.toList.map fun c => UInt8.ofNat c.toNat

/-- Key of a PHP array bucket: a string, or an integer without one. -/
inductive ArrayKey where
  | string (name : Bytes)
  | index (number : ℤ)
  deriving DecidableEq

inductive Zval where
  | undef
  | null
  | false
  | true
  | long (number : ℤ)
  | double (bits : UInt64)
  | string (value : Bytes)
  | array (buckets : List (ArrayKey × Zval))
  | object (handle : ℕ)
  | resource (handle : ℕ)
  | reference (target : Zval)
  | indirect (slot : Zval)

abbrev HashTable := List (ArrayKey × Zval)

inductive ZvalType where
  | isUndef | isNull | isFalse | isTrue | isLong | isDouble | isString
  | isArray | isObject | isResource | isReference | isIndirect
  deriving DecidableEq, Repr

def ZvalType.code : ZvalType → ℕ
  | .isUndef => 0
  | .isNull => 1
  | .isFalse => 2
  | .isTrue => 3
  | .isLong => 4
  | .isDouble => 5
  | .isString => 6
  | .isArray => 7
  | .isObject => 8
  | .isResource => 9
  | .isReference => 10
  | .isIndirect => 12

def Zval.zType : Zval → ZvalType
  | .undef => .isUndef
  | .null => .isNull
  | .false => .isFalse
  | .true => .isTrue
  | .long _ => .isLong
  | .double _ => .isDouble
  | .string _ => .isString
  | .array _ => .isArray
  | .object _ => .isObject
  | .resource _ => .isResource
  | .reference _ => .isReference
  | .indirect _ => .isIndirect

/-- The two branches of `PHP_MAJOR_VERSION`. -/
inductive PhpVersion where
  | php7
  | php8
  deriving DecidableEq

inductive Fault where
  /-- a payload read under a tag the value does not have -/
  | wrongTag (expected actual : ZvalType)
  /-- a NULL known-helper list read -/
  | nullKnownHelpers
  /-- a NULL iteration key read -/
  | nullKey
  /-- a conversion error raised on a NULL context -/
  | nullContext
  deriving DecidableEq

/-- `Z_ARRVAL_P`. -/
def Zval.arrval : Zval → Except Fault HashTable
  | .array buckets => .ok buckets
  | value => .error (.wrongTag .isArray value.zType)

/-- `Z_STRVAL_P` with `Z_STRLEN_P`. -/
def Zval.strval : Zval → Except Fault Bytes
  | .string value => .ok value
  | value => .error (.wrongTag .isString value.zType)

/-- `ZVAL_DEREF`. -/
def Zval.deref : Zval → Zval
  | .reference target => target
  | value => value

/-- The value behind references and `IS_INDIRECT` slots. -/
def Zval.resolve : Zval → Zval
  | .reference target => target.resolve
  | .indirect slot => slot.resolve
  | value => value

def Zval.isTrue (value : Zval) : Bool :=
  value.zType = .isTrue

def Zval.isBool (value : Zval) : Bool :=
  value.zType = .isTrue ∨ value.zType = .isFalse

/-- `zend_hash_find`: the bucket under a string key. -/
def zendHashFind (table : HashTable) (name : Bytes) : Option Zval :=
  (table.find? fun bucket => bucket.1 = .string name).map Prod.snd

theorem Zval.arrval_of_isArray {value : Zval}
    (htype : value.zType = .isArray) :
    ∃ buckets, value = .array buckets ∧ value.arrval = .ok buckets := by
  cases value <;> simp [Zval.zType] at htype
  exact ⟨_, rfl, rfl⟩

theorem Zval.arrval_isOk_iff (value : Zval) :
    (∃ buckets, value.arrval = .ok buckets) ↔ value.zType = .isArray := by
  cases value <;> simp [Zval.arrval, Zval.zType]

/-! ## C strings -/

/-- The C string at the front of a string, which ends before the first NUL
byte. -/
def cString (bytes : Bytes) : Bytes :=
  bytes.takeWhile fun byte => byte ≠ 0

theorem cString_eq_self_iff (bytes : Bytes) :
    cString bytes = bytes ↔ 0 ∉ bytes := by
  unfold cString
  rw [List.takeWhile_eq_self_iff]
  constructor
  · intro hall hmem
    have hne := hall 0 hmem
    simp at hne
  · intro hbytes byte hbyte
    have hne : byte ≠ 0 := by
      rintro rfl
      exact hbytes hbyte
    simpa using hne

theorem cString_of_not_mem {bytes : Bytes} (hbytes : 0 ∉ bytes) :
    cString bytes = bytes :=
  (cString_eq_self_iff bytes).mpr hbytes

theorem cString_append_zero {bytes : Bytes} (hbytes : 0 ∉ bytes) :
    cString (bytes ++ [0]) = bytes := by
  have hall : ∀ byte ∈ bytes, decide (byte ≠ 0) = true := by
    intro byte hbyte
    have hne : byte ≠ 0 := by
      rintro rfl
      exact hbytes hbyte
    simpa using hne
  rw [cString, List.takeWhile_append_of_pos hall]
  simp

theorem zero_not_mem_cString (bytes : Bytes) : 0 ∉ cString bytes := by
  intro hmem
  have hne := List.mem_takeWhile_imp hmem
  simp at hne

end PhpHandlebars
