import PhpHandlebars.Zval
import Mathlib.Tactic

/-!
# Errors, exceptions and the conversion of PHP values

Library errors travel to a handler by `longjmp`; the handler turns them into
PHP exceptions with `php_handlebars_throw`.  The only conversion error of the
extension itself is raised by `handlebars_value_from_zval`.
-/

namespace PhpHandlebars

/-- `enum handlebars_error_type`, as far as the extension tells them apart. -/
inductive ErrorNum where
  /-- `HANDLEBARS_ERROR` -/
  | error
  /-- `HANDELBARS_EXTERNAL_ERROR`: a PHP exception is already pending -/
  | external
  | other (number : ℕ)
  deriving DecidableEq

/-- What `handlebars_throw` is called with. -/
structure LibError where
  num : ErrorNum
  message : String
  deriving DecidableEq

def externalError : LibError where
  num := .external
  message := "external error"

inductive ExceptionClass where
  | runtimeException
  | compileException
  | invalidBinaryStringException
  /-- `zend_ce_exception` -/
  | exception
  deriving DecidableEq

/-- A PHP exception object: one thrown by user code, or one made by the
extension, alone or over a previous one. -/
inductive Exception where
  | user (object : ℕ)
  | made (cls : ExceptionClass) (message : String) (code : ErrorNum)
  | chained (cls : ExceptionClass) (message : String) (code : ErrorNum)
      (previous : Exception)
  deriving DecidableEq

/-- `zend_throw_exception` on the pending exception `EG(exception)`. -/
def zendThrowException (cls : ExceptionClass) (message : String)
    (code : ErrorNum) : Option Exception → Option Exception
  | none => some (.made cls message code)
  | some previous => some (.chained cls message code previous)

/-- `php_handlebars_throw`, up to its `goto done`. -/
def phpHandlebarsThrow (cls : ExceptionClass) (error : LibError)
    (pending : Option Exception) : Option Exception :=
  if error.num ≠ .external then
    zendThrowException cls error.message error.num pending
  else
    pending

@[simp] theorem zendThrowException_isSome
    (cls : ExceptionClass) (message : String) (code : ErrorNum)
    (pending : Option Exception) :
    (zendThrowException cls message code pending).isSome := by
  cases pending <;> rfl

theorem zendThrowException_ne_pending
    (cls : ExceptionClass) (message : String) (code : ErrorNum)
    (pending : Option Exception) :
    zendThrowException cls message code pending ≠ pending := by
  cases pending with
  | none => simp [zendThrowException]
  | some previous =>
      intro heq
      have hsize := congrArg (fun e => e.elim 0 sizeOf) heq
      simp [zendThrowException] at hsize

/-- A value of the library: its own kinds, or a PHP value wrapped in a user
cell. -/
inductive Value where
  | null
  | boolean (value : Bool)
  | integer (number : ℤ)
  | float (bits : UInt64)
  | string (value : Bytes)
  | array (elements : List Value)
  | map (entries : List (Bytes × Value))
  | user (intern : Zval)
  | closure
  | ptr
  | helper

/-- The error of the `default` branch of `handlebars_value_from_zval`. -/
def unimplementedConversion (type : ZvalType) : LibError where
  num := .error
  message := "Unimplemented handlebars value conversion for: " ++
    toString type.code

def handlebarsValueFromZval (val : Zval) (rv : Value) : Except LibError Value :=
  match val with
  | .undef => .ok rv
  | .null => .ok rv
  | .true => .ok (.boolean true)
  | .false => .ok (.boolean false)
  | .double bits => .ok (.float bits)
  | .long number => .ok (.integer number)
  | .string value => .ok (.string value)
  | .object handle => .ok (.user (.object handle))
  | .array buckets => .ok (.user (.array buckets))
  | .resource handle => .error (unimplementedConversion (.resource handle : Zval).zType)
  | .reference target => .error (unimplementedConversion (.reference target : Zval).zType)
  | .indirect slot => .error (unimplementedConversion (.indirect slot : Zval).zType)

def ZvalType.Convertible (type : ZvalType) : Prop :=
  type ≠ .isResource ∧ type ≠ .isReference ∧ type ≠ .isIndirect

instance (type : ZvalType) : Decidable type.Convertible :=
  inferInstanceAs (Decidable (_ ∧ _))

theorem handlebarsValueFromZval_error_iff
    (val : Zval) (rv : Value) (error : LibError) :
    handlebarsValueFromZval val rv = .error error ↔
      ¬ val.zType.Convertible ∧ error = unimplementedConversion val.zType := by
  cases val <;>
    simp [handlebarsValueFromZval, ZvalType.Convertible, Zval.zType, eq_comm]

theorem handlebarsValueFromZval_num
    {val : Zval} {rv : Value} {error : LibError}
    (herror : handlebarsValueFromZval val rv = .error error) :
    error.num = .error := by
  obtain ⟨_, rfl⟩ := (handlebarsValueFromZval_error_iff val rv error).mp herror
  rfl

/-! ## Values which are not written -/

/-- The values which a conversion does not write. -/
def Zval.LeavesSlot (val : Zval) : Prop :=
  val.zType = .isUndef ∨ val.zType = .isNull

theorem valueFromZval_of_leavesSlot {val : Zval} (hval : val.LeavesSlot)
    (rv : Value) : handlebarsValueFromZval val rv = .ok rv := by
  cases val <;> simp [Zval.LeavesSlot, Zval.zType] at hval <;> rfl

/-- Every other value is written over what the slot held. -/
theorem valueFromZval_overwrites {val : Zval} (hval : ¬ val.LeavesSlot)
    (rv rv' : Value) :
    handlebarsValueFromZval val rv = handlebarsValueFromZval val rv' := by
  cases val <;> simp [Zval.LeavesSlot, Zval.zType] at hval <;> rfl

theorem valueFromZval_ne_null {val : Zval} (hval : ¬ val.LeavesSlot)
    (rv : Value) : handlebarsValueFromZval val rv ≠ .ok .null := by
  cases val <;> simp [Zval.LeavesSlot, Zval.zType] at hval <;>
    simp [handlebarsValueFromZval]

theorem valueFromZval_isOk_iff (val : Zval) (rv : Value) :
    (∃ value, handlebarsValueFromZval val rv = .ok value) ↔
      val.zType.Convertible := by
  cases val <;>
    simp [handlebarsValueFromZval, ZvalType.Convertible, Zval.zType]

end PhpHandlebars
