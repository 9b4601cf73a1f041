import PhpHandlebars.BinaryTemplate
import Mathlib.Tactic

/-!
# What a rejected binary template is told about

`verify_and_load_module` names the check which failed and prints the hashes,
sizes or versions it has compared.  All of that can be read from the message.
-/

namespace PhpHandlebars

/-! ## Hexadecimal digits -/

def hexDigitValue (digit : Char) : ℕ :=
  if digit.toNat < 58 then digit.toNat - 48 else digit.toNat - 87

def readHex : List Char → Bytes
  | hi :: lo :: rest =>
      UInt8.ofNat (16 * hexDigitValue hi + hexDigitValue lo) :: readHex rest
  | _ => []

def hexDigits (byte : UInt8) : List Char :=
  [("0123456789abcdef".toList).getD (byte >>> 4).toNat '0',
    ("0123456789abcdef".toList).getD (byte &&& 15).toNat '0']

theorem readHex_hexDigits (byte : UInt8) (rest : List Char) :
    readHex (hexDigits byte ++ rest) = byte :: readHex rest := by
  have hbytes : ∀ n < 256, UInt8.ofNat
      (16 * hexDigitValue (("0123456789abcdef".toList).getD
        (UInt8.ofNat n >>> 4).toNat '0') +
      hexDigitValue (("0123456789abcdef".toList).getD
        (UInt8.ofNat n &&& 15).toNat '0')) = UInt8.ofNat n := by
    decide +kernel
  have hbyte := hbytes byte.toNat byte.toNat_lt
  rw [UInt8.ofNat_toNat] at hbyte
  exact congrArg (· :: readHex rest) hbyte

theorem hashBin2hex_toList (packed : Bytes) :
    (hashBin2hex packed).toList = (packed.take hashLen).flatMap hexDigits := by
  rw [hashBin2hex, String.toList_ofList]
  rfl

/-- A hash is read back from the digits it is printed with. -/
theorem readHex_hashBin2hex {packed : Bytes}
    (hlength : packed.length = hashLen) :
    readHex (hashBin2hex packed).toList = packed := by
  have hread : ∀ bytes : Bytes, readHex (bytes.flatMap hexDigits) = bytes := by
    intro bytes
    induction bytes with
    | nil => rfl
    | cons byte rest ih =>
        rw [List.flatMap_cons, readHex_hexDigits, ih]
  rw [hashBin2hex_toList, hread, ← hlength, List.take_length]

theorem length_hashBin2hex {packed : Bytes}
    (hlength : packed.length = hashLen) :
    (hashBin2hex packed).toList.length = 2 * hashLen := by
  have hdigits : ∀ bytes : Bytes,
      (bytes.flatMap hexDigits).length = 2 * bytes.length := by
    intro bytes
    induction bytes with
    | nil => rfl
    | cons byte rest ih =>
        rw [List.flatMap_cons, List.length_append, ih, List.length_cons]
        change 2 + 2 * rest.length = _
        omega
  rw [hashBin2hex_toList, hdigits, List.length_take, hlength, min_self]

/-! ## Numbers -/

theorem toString_nat_toList (number : ℕ) :
    (toString number).toList = Nat.toDigits 10 number := by
  change number.repr.toList = _
  rw [Nat.repr_eq_ofList_toDigits, String.toList_ofList]

theorem toString_nat_injective {number other : ℕ}
    (heq : (toString number).toList = (toString other).toList) :
    number = other := by
  have hread : ∀ n : ℕ, Nat.ofDigitChars 10 (Nat.toDigits 10 n) 0 = n :=
    fun n => Nat.ofDigitChars_toDigits (by decide) (by decide)
  rw [toString_nat_toList, toString_nat_toList] at heq
  rw [← hread number, heq, hread]

/-- No separator is a digit. -/
theorem not_mem_toString_nat {sep : Char} (hsep : sep.isDigit = false)
    (number : ℕ) : sep ∉ (toString number).toList := by
  rw [toString_nat_toList]
  intro hmem
  have hdigit := Nat.isDigit_of_mem_toDigits (by decide) (by decide) hmem
  simp [hsep] at hdigit

theorem toString_int_toList (number : ℤ) :
    (toString number).toList =
      if 0 ≤ number then (toString number.toNat).toList
      else '-' :: (toString (-number).toNat).toList := by
  change number.repr.toList = _
  rw [Int.repr_eq_if]
  split
  next => rfl
  next => rw [String.toList_append]; rfl

theorem not_mem_toString_int {sep : Char} (hsep : sep.isDigit = false)
    (hminus : sep ≠ '-') (number : ℤ) : sep ∉ (toString number).toList := by
  rw [toString_int_toList]
  split
  next => exact not_mem_toString_nat hsep _
  next =>
    have hdigits := not_mem_toString_nat hsep (-number).toNat
    rw [List.mem_cons, not_or]
    exact ⟨hminus, hdigits⟩

theorem toString_int_injective {number other : ℤ}
    (heq : (toString number).toList = (toString other).toList) :
    number = other := by
  have hminus : ∀ n : ℕ, ∀ rest : List Char,
      (toString n).toList ≠ '-' :: rest := by
    intro n rest hdigits
    have hnot : '-' ∉ (toString n).toList :=
      not_mem_toString_nat (by decide) n
    rw [hdigits] at hnot
    exact hnot (List.mem_cons_self ..)
  rw [toString_int_toList, toString_int_toList] at heq
  split at heq <;> split at heq
  next =>
    have hnat := toString_nat_injective heq
    omega
  next => exact absurd heq (hminus _ _)
  next => exact absurd heq.symm (hminus _ _)
  next =>
    have hnat := toString_nat_injective (List.cons.inj heq).2
    omega

/-! ## Messages -/

theorem append_sep_inj {sep : Char} {first second rest rest' : List Char}
    (hfirst : sep ∉ first) (hsecond : sep ∉ second)
    (heq : first ++ sep :: rest = second ++ sep :: rest') :
    first = second ∧ rest = rest' := by
  have htake : ∀ {text : List Char} (more : List Char), sep ∉ text →
      (text ++ sep :: more).takeWhile (· ≠ sep) = text := by
    intro text more htext
    rw [List.takeWhile_append_of_pos]
    · simp
    · intro char hchar
      have hne : char ≠ sep := by
        rintro rfl
        exact htext hchar
      simpa using hne
  have hsame : first = second := by
    rw [← htake rest hfirst, heq, htake rest' hsecond]
  subst hsame
  exact ⟨rfl, (List.cons.inj (List.append_cancel_left heq)).2⟩

/-- The part of the message by which the checks differ, and what follows. -/
def LoadError.subject : LoadError → String
  | .bufferNotLongEnough => "buffer not"
  | .hashMismatch _ _ => "template h"
  | .sizeMismatch _ _ => "template d"
  | .versionMismatch _ _ => "template w"

def LoadError.details : LoadError → String
  | .bufferNotLongEnough => " long enough"
  | .hashMismatch actual expected =>
      "ash was " ++ hashBin2hex actual ++ ", expected " ++
        hashBin2hex expected
  | .sizeMismatch size expected =>
      "ata segment was " ++ toString size ++ " bytes, expected " ++
        toString expected
  | .versionMismatch compiledWith current =>
      "as compiled with handlebars " ++ toString compiledWith ++
        ", current version is " ++ toString current

theorem LoadError.message_eq (error : LoadError) :
    error.message = "Failed to validate precompiled template: " ++
      (error.subject ++ error.details) := by
  cases error with
  | bufferNotLongEnough =>
      change "Failed to validate precompiled template: buffer not long enough" =
        "Failed to validate precompiled template: " ++
          ("buffer not" ++ " long enough")
      simp only [String.reduceAppend]
  | hashMismatch actual expected =>
      change "Failed to validate precompiled template: template hash was " ++
          hashBin2hex actual ++ ", expected " ++ hashBin2hex expected =
        "Failed to validate precompiled template: " ++
          ("template h" ++ ("ash was " ++ hashBin2hex actual ++
            ", expected " ++ hashBin2hex expected))
      simp only [← String.append_assoc, String.reduceAppend]
  | sizeMismatch size expected =>
      change "Failed to validate precompiled template: template data segment was " ++
          toString size ++ " bytes, expected " ++ toString expected =
        "Failed to validate precompiled template: " ++
          ("template d" ++ ("ata segment was " ++ toString size ++
            " bytes, expected " ++ toString expected))
      simp only [← String.append_assoc, String.reduceAppend]
  | versionMismatch compiledWith current =>
      change "Failed to validate precompiled template: template was compiled with " ++
          "handlebars " ++ toString compiledWith ++ ", current version is " ++
          toString current =
        "Failed to validate precompiled template: " ++
          ("template w" ++ ("as compiled with handlebars " ++
            toString compiledWith ++ ", current version is " ++
            toString current))
      simp only [← String.append_assoc, String.reduceAppend]

theorem LoadError.length_subject (error : LoadError) :
    error.subject.toList.length = 10 := by
  cases error with
  | bufferNotLongEnough => exact (by decide : "buffer not".toList.length = 10)
  | hashMismatch => exact (by decide : "template h".toList.length = 10)
  | sizeMismatch => exact (by decide : "template d".toList.length = 10)
  | versionMismatch => exact (by decide : "template w".toList.length = 10)

/-- Hashes have eight bytes. -/
def LoadError.Compared : LoadError → Prop
  | .hashMismatch actual expected =>
      actual.length = hashLen ∧ expected.length = hashLen
  | _ => True

theorem compared_of_verify {format : ModuleFormat} {pastEnd : ℕ → UInt8}
    {buf : Bytes} {error : LoadError}
    (hverify : (verifyAndLoadModule format pastEnd buf).2 = .error error) :
    error.Compared := by
  unfold verifyAndLoadModule at hverify
  split at hverify
  next => obtain rfl := Except.error.inj hverify; trivial
  next hlong =>
    simp only at hverify
    split at hverify
    next =>
      obtain rfl := Except.error.inj hverify
      exact ⟨rfl, by rw [List.length_take]; omega⟩
    next =>
      split at hverify
      next => obtain rfl := Except.error.inj hverify; trivial
      next =>
        split at hverify
        next => obtain rfl := Except.error.inj hverify; trivial
        next => cases hverify

theorem hashBin2hex_injective {packed other : Bytes}
    (hpacked : packed.length = hashLen) (hother : other.length = hashLen)
    (heq : (hashBin2hex packed).toList = (hashBin2hex other).toList) :
    packed = other := by
  rw [← readHex_hashBin2hex hpacked, heq, readHex_hashBin2hex hother]

theorem details_injective_hash {actual expected actual' expected' : Bytes}
    (herror : (LoadError.hashMismatch actual expected).Compared)
    (hother : (LoadError.hashMismatch actual' expected').Compared)
    (heq : "ash was " ++ hashBin2hex actual ++ ", expected " ++
        hashBin2hex expected =
      "ash was " ++ hashBin2hex actual' ++ ", expected " ++
        hashBin2hex expected') :
    actual = actual' ∧ expected = expected' := by
  have hlist := congrArg String.toList heq
  simp only [String.toList_append, List.append_assoc,
    List.append_cancel_left_eq] at hlist
  obtain ⟨hactual, hexpected⟩ := List.append_inj hlist
    (by rw [length_hashBin2hex herror.1, length_hashBin2hex hother.1])
  rw [List.append_cancel_left_eq] at hexpected
  exact ⟨hashBin2hex_injective herror.1 hother.1 hactual,
    hashBin2hex_injective herror.2 hother.2 hexpected⟩

theorem details_injective_size {size expected size' expected' : ℕ}
    (heq : "ata segment was " ++ toString size ++ " bytes, expected " ++
        toString expected =
      "ata segment was " ++ toString size' ++ " bytes, expected " ++
        toString expected') :
    size = size' ∧ expected = expected' := by
  have hsep : " bytes, expected ".toList = ' ' :: "bytes, expected ".toList :=
    by decide
  have hlist := congrArg String.toList heq
  simp only [String.toList_append, List.append_assoc,
    List.append_cancel_left_eq] at hlist
  rw [hsep] at hlist
  obtain ⟨hsize, hexpected⟩ := append_sep_inj
    (not_mem_toString_nat (by decide) size)
    (not_mem_toString_nat (by decide) size') hlist
  exact ⟨toString_nat_injective hsize,
    toString_nat_injective (List.append_cancel_left hexpected)⟩

theorem details_injective_version {compiled current compiled' current' : ℤ}
    (heq : "as compiled with handlebars " ++ toString compiled ++
        ", current version is " ++ toString current =
      "as compiled with handlebars " ++ toString compiled' ++
        ", current version is " ++ toString current') :
    compiled = compiled' ∧ current = current' := by
  have hsep : ", current version is ".toList =
      ',' :: " current version is ".toList := by decide
  have hlist := congrArg String.toList heq
  simp only [String.toList_append, List.append_assoc,
    List.append_cancel_left_eq] at hlist
  rw [hsep] at hlist
  obtain ⟨hcompiled, hcurrent⟩ := append_sep_inj
    (not_mem_toString_int (by decide) (by decide) compiled)
    (not_mem_toString_int (by decide) (by decide) compiled') hlist
  exact ⟨toString_int_injective hcompiled,
    toString_int_injective (List.append_cancel_left hcurrent)⟩

theorem message_injective {error other : LoadError}
    (herror : error.Compared) (hother : other.Compared)
    (heq : error.message = other.message) : error = other := by
  have hlist := congrArg String.toList heq
  rw [error.message_eq, other.message_eq] at hlist
  simp only [String.toList_append, List.append_cancel_left_eq] at hlist
  obtain ⟨hsubject, hdetails⟩ := List.append_inj hlist
    (by rw [error.length_subject, other.length_subject])
  rw [String.toList_inj] at hsubject hdetails
  cases error <;> cases other <;>
    first
      | rfl
      | (simp [LoadError.subject] at hsubject; done)
      | skip
  case hashMismatch.hashMismatch =>
    obtain ⟨rfl, rfl⟩ := details_injective_hash herror hother hdetails
    rfl
  case sizeMismatch.sizeMismatch =>
    obtain ⟨rfl, rfl⟩ := details_injective_size hdetails
    rfl
  case versionMismatch.versionMismatch =>
    obtain ⟨rfl, rfl⟩ := details_injective_version hdetails
    rfl

/-- Two binary strings are rejected with the same message only if the same
check failed and compared the same hashes, sizes or versions, under whatever
formats. -/
theorem rejections_told_apart {format format' : ModuleFormat}
    {pastEnd pastEnd' : ℕ → UInt8} {buf buf' : Bytes}
    {error error' : LoadError}
    (hverify : (verifyAndLoadModule format pastEnd buf).2 = .error error)
    (hverify' : (verifyAndLoadModule format' pastEnd' buf').2 = .error error')
    (hmessage : error.message = error'.message) : error = error' :=
  message_injective (compared_of_verify hverify) (compared_of_verify hverify')
    hmessage

/-- A format with another checksum. -/
def otherFormat : ModuleFormat :=
  { sampleFormat with
    xxh3 := fun data =>
      data.foldl (fun hash byte => hash * 33 + byte.toUInt64) 5 }

/-- Sixteen bytes of header for a module of the given version, and a byte. -/
def versionedModule (version : UInt8) (byte : UInt8) : Bytes :=
  [17, 0, 0, 0, 0, 0, 0, 0, version, 39, 0, 0, 0, 0, 0, 0, byte]

/-- Modules of one old version are rejected alike under both formats, a module
of another version is not. -/
theorem version_mismatches_told_apart :
    ∃ error other,
      (verifyAndLoadModule sampleFormat (fun _ => 0)
        (enc sampleFormat (versionedModule 15 3))).2 = .error error ∧
      (verifyAndLoadModule otherFormat (fun _ => 1)
        (enc otherFormat (versionedModule 15 4))).2 = .error error ∧
      (verifyAndLoadModule otherFormat (fun _ => 1)
        (enc otherFormat (versionedModule 14 4))).2 = .error other ∧
      error.message ≠ other.message := by
  have hsample : (verifyAndLoadModule sampleFormat (fun _ => 0)
      (enc sampleFormat (versionedModule 15 3))).2 =
        .error (.versionMismatch 9999 10000) := by decide +kernel
  have hsame : (verifyAndLoadModule otherFormat (fun _ => 1)
      (enc otherFormat (versionedModule 15 4))).2 =
        .error (.versionMismatch 9999 10000) := by decide +kernel
  have holder : (verifyAndLoadModule otherFormat (fun _ => 1)
      (enc otherFormat (versionedModule 14 4))).2 =
        .error (.versionMismatch 9998 10000) := by decide +kernel
  refine ⟨_, _, hsample, ?_, holder, ?_⟩
  · rw [rejections_told_apart hsample hsame rfl]
    exact hsame
  · intro hmessage
    exact absurd (rejections_told_apart hsample holder hmessage) (by decide)

end PhpHandlebars
