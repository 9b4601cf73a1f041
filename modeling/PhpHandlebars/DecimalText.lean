import Mathlib.Data.List.TakeWhile
import Mathlib.Data.Nat.Digits.Lemmas
import Mathlib.Tactic

/-!
# Decimal numbers in byte strings

A decimal text without sign, white space or leading zeros is determined by
its value.  `strtol` reads such texts and many others; the rest of the string
at which it stops is part of what it returns.
-/

namespace DecimalText

def isDigit (byte : UInt8) : Bool :=
  48 ≤ byte.toNat ∧ byte.toNat ≤ 57

def isSpace (byte : UInt8) : Bool :=
  byte.toNat = 32 ∨ 9 ≤ byte.toNat ∧ byte.toNat ≤ 13

def digitValue (byte : UInt8) : ℕ :=
  byte.toNat - 48

def positional (digits : List UInt8) : ℕ :=
  digits.foldl (fun number byte => 10 * number + digitValue byte) 0

/-- Digits without a leading zero. -/
structure Plain (text : List UInt8) : Prop where
  ne_nil : text ≠ []
  digits : ∀ byte ∈ text, isDigit byte
  head : 1 < text.length → text.head? ≠ some 48

theorem plain_iff (text : List UInt8) :
    text ≠ [] ∧ text.all isDigit ∧
        (1 < text.length → text.head? ≠ some 48) ↔ Plain text := by
  rw [List.all_eq_true]
  constructor
  · rintro ⟨hne, hdigits, hhead⟩
    exact ⟨hne, hdigits, hhead⟩
  · intro hplain
    exact ⟨hplain.ne_nil, hplain.digits, hplain.head⟩

instance (text : List UInt8) : Decidable (Plain text) :=
  decidable_of_iff _ (plain_iff text)

/-- The integer a text is the canonical decimal form of. -/
def readInteger : List UInt8 → Option ℤ
  | [] => none
  | first :: rest =>
      if first = 45 then
        if Plain rest ∧ rest ≠ [48] then some (-(positional rest)) else none
      else if Plain (first :: rest) then
        some (positional (first :: rest))
      else
        none

/-! ## Values of digit strings -/

theorem positional_eq_ofDigits (digits : List UInt8) :
    positional digits = Nat.ofDigits 10 (digits.reverse.map digitValue) := by
  induction digits using List.reverseRecOn with
  | nil => rfl
  | append_singleton digits last ih =>
      have hstep : positional (digits ++ [last]) =
          10 * positional digits + digitValue last := by
        simp [positional]
      rw [hstep, ih]
      simp [Nat.ofDigits_cons]
      omega

theorem digitValue_injOn {first second : UInt8} (hfirst : isDigit first)
    (hsecond : isDigit second) (heq : digitValue first = digitValue second) :
    first = second := by
  simp only [isDigit, decide_eq_true_eq] at hfirst hsecond
  simp only [digitValue] at heq
  exact UInt8.toNat_inj.mp (by omega)

theorem digitValue_lt {byte : UInt8} (hdigit : isDigit byte) :
    digitValue byte < 10 := by
  simp only [isDigit, decide_eq_true_eq] at hdigit
  simp only [digitValue]
  omega

theorem map_digitValue_injOn {first second : List UInt8}
    (hfirst : ∀ byte ∈ first, isDigit byte)
    (hsecond : ∀ byte ∈ second, isDigit byte)
    (heq : first.map digitValue = second.map digitValue) :
    first = second := by
  induction first generalizing second with
  | nil => simpa [eq_comm] using heq
  | cons byte rest ih =>
      cases second with
      | nil => simp at heq
      | cons byte' rest' =>
          simp only [List.map_cons, List.cons.injEq] at heq
          obtain rfl := digitValue_injOn (hfirst byte (by simp))
            (hsecond byte' (by simp)) heq.1
          rw [ih (fun b hb => hfirst b (by simp [hb]))
            (fun b hb => hsecond b (by simp [hb])) heq.2]

namespace Plain

variable {text other : List UInt8}

theorem eq_zero_or_head (hplain : Plain text) :
    text = [48] ∨ text.head? ≠ some 48 := by
  rcases hlength : text with _ | ⟨first, _ | ⟨second, rest⟩⟩
  · exact absurd hlength hplain.ne_nil
  · by_cases hfirst : first = 48
    · exact .inl (by rw [hfirst])
    · exact .inr (by simpa using hfirst)
  · right
    rw [← hlength]
    apply hplain.head
    simp [hlength]

/-- The digits of the value are the digits of the text. -/
theorem digits_positional (hplain : Plain text)
    (hhead : text.head? ≠ some 48) :
    Nat.digits 10 (positional text) = text.reverse.map digitValue := by
  rw [positional_eq_ofDigits]
  apply Nat.digits_ofDigits 10 (by omega)
  · intro digit hdigit
    obtain ⟨byte, hbyte, rfl⟩ := List.mem_map.mp hdigit
    exact digitValue_lt (hplain.digits byte (List.mem_reverse.mp hbyte))
  · intro hne
    obtain ⟨first, rest, rfl⟩ := List.exists_cons_of_ne_nil hplain.ne_nil
    have hdigit := hplain.digits first (by simp)
    have hfirst : first ≠ 48 := by simpa using hhead
    simp only [List.reverse_cons, List.map_append, List.map_cons,
      List.map_nil, List.getLast_append_singleton]
    intro hzero
    apply hfirst
    exact digitValue_injOn hdigit (by decide) hzero

theorem positional_eq_zero_iff (hplain : Plain text) :
    positional text = 0 ↔ text = [48] := by
  constructor
  · intro hzero
    rcases hplain.eq_zero_or_head with htext | hhead
    · exact htext
    · have hdigits := hplain.digits_positional hhead
      rw [hzero] at hdigits
      exact absurd (by simpa using hdigits.symm) hplain.ne_nil
  · rintro rfl
    rfl

/-- A plain text is determined by its value. -/
theorem eq_of_positional_eq (hplain : Plain text) (hother : Plain other)
    (heq : positional text = positional other) : text = other := by
  rcases hplain.eq_zero_or_head with rfl | hhead
  · exact (hother.positional_eq_zero_iff.mp (heq ▸ rfl)).symm
  rcases hother.eq_zero_or_head with rfl | hhead'
  · exact hplain.positional_eq_zero_iff.mp heq
  have hdigits : text.reverse.map digitValue =
      other.reverse.map digitValue := by
    rw [← hplain.digits_positional hhead, heq,
      hother.digits_positional hhead']
  apply List.reverse_inj.mp
  exact map_digitValue_injOn
    (fun byte hbyte => hplain.digits byte (List.mem_reverse.mp hbyte))
    (fun byte hbyte => hother.digits byte (List.mem_reverse.mp hbyte))
    hdigits

end Plain

theorem readInteger_cases {text : List UInt8} {number : ℤ}
    (hread : readInteger text = some number) :
    (∃ rest, text = 45 :: rest ∧ Plain rest ∧ rest ≠ [48] ∧
      number = -(positional rest)) ∨
    (Plain text ∧ number = positional text) := by
  cases text with
  | nil => simp [readInteger] at hread
  | cons first rest =>
      simp only [readInteger] at hread
      split at hread
      next hminus =>
        split at hread
        next hrest =>
          exact .inl ⟨rest, by rw [hminus], hrest.1, hrest.2,
            (Option.some.inj hread).symm⟩
        next => simp at hread
      next =>
        split at hread
        next hplain => exact .inr ⟨hplain, (Option.some.inj hread).symm⟩
        next => simp at hread

/-- A canonical decimal is determined by the integer it denotes. -/
theorem readInteger_inj {text other : List UInt8} {number : ℤ}
    (htext : readInteger text = some number)
    (hother : readInteger other = some number) : text = other := by
  rcases readInteger_cases htext with
      ⟨rest, rfl, hplain, hne, hvalue⟩ | ⟨hplain, hvalue⟩ <;>
    rcases readInteger_cases hother with
      ⟨rest', rfl, hplain', hne', hvalue'⟩ | ⟨hplain', hvalue'⟩
  · rw [hplain.eq_of_positional_eq hplain' (by omega)]
  · have hzero : positional rest = 0 := by omega
    exact absurd (hplain.positional_eq_zero_iff.mp hzero) hne
  · have hzero : positional rest' = 0 := by omega
    exact absurd (hplain'.positional_eq_zero_iff.mp hzero) hne'
  · exact hplain.eq_of_positional_eq hplain' (by omega)

/-! ## `strtol` -/

def splitSign : List UInt8 → Bool × List UInt8
  | [] => (false, [])
  | first :: rest =>
      if first = 45 then (true, rest)
      else if first = 43 then (false, rest)
      else (false, first :: rest)

def saturate (lo hi number : ℤ) : ℤ :=
  max lo (min hi number)

/-- The number read, within the limits of a `long`, and the string from the
place on where the number ends. -/
def strtol (lo hi : ℤ) (text : List UInt8) : ℤ × List UInt8 :=
  let (negative, body) := splitSign (text.dropWhile isSpace)
  let digits := body.takeWhile isDigit
  if digits = [] then
    (0, text)
  else
    (saturate lo hi
      (if negative then -(positional digits) else positional digits),
      body.dropWhile isDigit)

/-- The rest of a string starts with a NUL byte or with its terminator. -/
def AtNul (rest : List UInt8) : Prop :=
  rest.headD 0 = 0

instance (rest : List UInt8) : Decidable (AtNul rest) :=
  inferInstanceAs (Decidable (_ = _))

theorem saturate_of_mem {lo hi number : ℤ} (hlo : lo ≤ number)
    (hhi : number ≤ hi) : saturate lo hi number = number := by
  simp [saturate, hlo, hhi]

theorem not_isSpace_of_isDigit {byte : UInt8} (hdigit : isDigit byte) :
    ¬ isSpace byte := by
  simp only [isDigit, isSpace, decide_eq_true_eq] at hdigit ⊢
  omega

theorem takeWhile_digits {text : List UInt8}
    (hdigits : ∀ byte ∈ text, isDigit byte) :
    text.takeWhile isDigit = text ∧ text.dropWhile isDigit = [] := by
  constructor
  · exact List.takeWhile_eq_self_iff.mpr hdigits
  · exact List.dropWhile_eq_nil_iff.mpr hdigits

/-- A string of digits is read to its end. -/
theorem strtol_of_digits (lo hi : ℤ) {text : List UInt8} (hne : text ≠ [])
    (hdigits : ∀ byte ∈ text, isDigit byte) :
    strtol lo hi text = (saturate lo hi (positional text), []) := by
  obtain ⟨first, rest, rfl⟩ := List.exists_cons_of_ne_nil hne
  have hdigit := hdigits first (by simp)
  have hspace : (first :: rest).dropWhile isSpace = first :: rest := by
    simp [List.dropWhile, not_isSpace_of_isDigit hdigit]
  have hsign : splitSign (first :: rest) = (false, first :: rest) := by
    have hminus : first ≠ 45 := by
      rintro rfl
      simp [isDigit] at hdigit
    have hplus : first ≠ 43 := by
      rintro rfl
      simp [isDigit] at hdigit
    simp [splitSign, hminus, hplus]
  simp only [strtol, hspace, hsign, takeWhile_digits hdigits, hne, if_false,
    Bool.false_eq_true]

/-- A canonical decimal within the limits is read to its end. -/
theorem strtol_of_readInteger {lo hi number : ℤ} {text : List UInt8}
    (hread : readInteger text = some number) (hlo : lo ≤ number)
    (hhi : number ≤ hi) : strtol lo hi text = (number, []) := by
  rcases readInteger_cases hread with
    ⟨rest, rfl, hplain, _, rfl⟩ | ⟨hplain, rfl⟩
  · have hspace : (45 :: rest).dropWhile isSpace = 45 :: rest := by
      simp [List.dropWhile, isSpace]
    simp only [strtol, hspace, splitSign, if_true,
      takeWhile_digits hplain.digits, hplain.ne_nil, if_false,
      saturate_of_mem hlo hhi]
  · rw [strtol_of_digits lo hi hplain.ne_nil hplain.digits,
      saturate_of_mem hlo hhi]

/-! ## Writing an integer -/

def decimalNat (number : ℕ) : List UInt8 :=
  if number = 0 then [48]
  else (Nat.digits 10 number).reverse.map fun digit => UInt8.ofNat (48 + digit)

/-- The canonical decimal form of an integer. -/
def decimal (number : ℤ) : List UInt8 :=
  if number < 0 then 45 :: decimalNat number.natAbs
  else decimalNat number.natAbs

theorem digit_byte {digit : ℕ} (hdigit : digit < 10) :
    isDigit (UInt8.ofNat (48 + digit)) ∧
      digitValue (UInt8.ofNat (48 + digit)) = digit := by
  have hbyte : (UInt8.ofNat (48 + digit)).toNat = 48 + digit := by
    rw [UInt8.toNat_ofNat']
    omega
  simp only [isDigit, digitValue, hbyte, decide_eq_true_eq]
  omega

theorem decimalNat_plain (number : ℕ) : Plain (decimalNat number) := by
  unfold decimalNat
  split
  next => decide
  next hne =>
    have hnil : Nat.digits 10 number ≠ [] := Nat.digits_ne_nil_iff_ne_zero.mpr hne
    constructor
    case ne_nil => simpa using hnil
    case digits =>
      intro byte hbyte
      obtain ⟨digit, hdigit, rfl⟩ := List.mem_map.mp hbyte
      exact (digit_byte (Nat.digits_lt_base (by omega)
        (List.mem_reverse.mp hdigit))).1
    case head =>
      intro _
      have hlast := Nat.getLast_digit_ne_zero 10 hne
      have hlt : (Nat.digits 10 number).getLast hnil < 10 :=
        Nat.digits_lt_base (by omega) (List.getLast_mem hnil)
      rw [List.head?_map, List.head?_reverse, List.getLast?_eq_some_getLast hnil,
        Option.map_some]
      intro hzero
      have hvalue := (digit_byte hlt).2
      rw [Option.some.inj hzero] at hvalue
      exact hlast hvalue.symm

theorem positional_decimalNat (number : ℕ) :
    positional (decimalNat number) = number := by
  unfold decimalNat
  split
  next hzero => simp [hzero, positional, digitValue]
  next =>
    have hdigits : ∀ digit ∈ Nat.digits 10 number,
        digitValue (UInt8.ofNat (48 + digit)) = digit := by
      intro digit hdigit
      exact (digit_byte (Nat.digits_lt_base (by omega) hdigit)).2
    have hmap : (Nat.digits 10 number).map
        (fun digit => digitValue (UInt8.ofNat (48 + digit))) =
          Nat.digits 10 number :=
      (List.map_congr_left hdigits).trans (List.map_id' _)
    rw [positional_eq_ofDigits]
    simp only [List.map_reverse, List.reverse_reverse, List.map_map]
    exact (congrArg (Nat.ofDigits 10) hmap).trans (Nat.ofDigits_digits 10 _)

theorem decimalNat_eq_zero_iff (number : ℕ) :
    decimalNat number = [48] ↔ number = 0 := by
  rw [← (decimalNat_plain number).positional_eq_zero_iff,
    positional_decimalNat]

/-- Reading back gives the integer written. -/
theorem readInteger_decimal (number : ℤ) :
    readInteger (decimal number) = some number := by
  have hplain := decimalNat_plain number.natAbs
  have hvalue := positional_decimalNat number.natAbs
  unfold decimal
  split
  next hnegative =>
    have hne : decimalNat number.natAbs ≠ [48] := by
      rw [ne_eq, decimalNat_eq_zero_iff]
      omega
    simp only [readInteger, if_true, hplain, hne, ne_eq, not_false_eq_true,
      and_self, hvalue, Option.some.injEq]
    omega
  next hnonneg =>
    obtain ⟨first, rest, htext⟩ := List.exists_cons_of_ne_nil hplain.ne_nil
    rw [htext] at hplain hvalue ⊢
    have hminus : first ≠ 45 := by
      rintro rfl
      have hdigit := hplain.digits 45 (by simp)
      simp [isDigit] at hdigit
    simp only [readInteger, hminus, if_false, hplain, if_true, hvalue,
      Option.some.injEq]
    omega

end DecimalText
