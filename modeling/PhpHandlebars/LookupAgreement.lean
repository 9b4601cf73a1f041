import PhpHandlebars.NameLookup
import Mathlib.Tactic

/-!
# The lookup helper against a path

`Utils::nameLookup` and a path in a template both try a name as a string and
as a number, but in a different order, and they do not take the same names for
numbers.  A path converts what it finds, which fails for references and
resources; the helper copies it.
-/

namespace PhpHandlebars

open DecimalText

/-- What PHP code sees of the value which a path in a template gives, when it
is handed on to PHP; nothing found is seen as null. -/
def pathSeen (objects : ObjectHandlers) (table : HashTable) (name : Bytes) :
    Except LibError Zval :=
  (handlebarsStdZvalMapFind objects (.array table) name .null).map fun found =>
    (found.elim .null handlebarsValueToZval).seen

/-- What PHP code sees of the element which the path finds. -/
def elementSeen (table : HashTable) (name : Bytes) : Zval :=
  ((arrayEntry table name).getD .null).seen

/-- The number which is tried for a name, and the element under it. -/
def numberOf (name : Bytes) : ℤ :=
  (strtol longMin longMax name).1

/-- Both take the name for a number. -/
def WrittenInDigits (name : Bytes) : Prop :=
  name ≠ [] ∧ isIntegerString name

/-- What the path finds converts.  Where the name is written in digits, an
element under it and one under its number are the same; elsewhere there is an
element under the name itself, or what `strtol` reads from the whole of it
leads to nothing. -/
structure LooksUpAsPath (table : HashTable) (name : Bytes) : Prop where
  converts : ∀ entry, arrayEntry table name = some entry →
    entry.zType.Convertible
  digits : WrittenInDigits name → ∀ entry other,
    zendHashFind table name = some entry →
      zendHashIndexFind table (numberOf name) = some other →
        other.seen = entry.seen
  others : ¬ WrittenInDigits name → zendHashFind table name = none →
    AtNul (strtol longMin longMax name).2 → ∀ other,
      zendHashIndexFind table (numberOf name) = some other →
        other.seen = .null

theorem sscanfLong_eq_numberOf {name : Bytes} (hname : WrittenInDigits name) :
    sscanfLong name (-1) = numberOf name ∧ numberOf name > -1 ∧
      AtNul (strtol longMin longMax name).2 := by
  obtain ⟨hne, hdigits⟩ := hname
  have hall := (isIntegerString_iff name).mp hdigits
  have hstrtol := strtol_of_digits longMin longMax hne hall
  have hnonneg := saturate_nonneg (positional name)
  refine ⟨?_, ?_, ?_⟩
  · rw [sscanfLong_of_digits hne hdigits, numberOf, hstrtol]
  · rw [numberOf, hstrtol]
    omega
  · rw [hstrtol]
    rfl

/-- Other names are looked up as strings only. -/
theorem index_of_not_digits {name : Bytes} (hname : ¬ WrittenInDigits name) :
    (if isIntegerString name then sscanfLong name (-1) else -1) = -1 := by
  by_cases hdigits : isIntegerString name
  · have hempty : name = [] := by
      by_contra hne
      exact hname ⟨hne, hdigits⟩
    subst hempty
    rfl
  · rw [if_neg hdigits]

theorem seen_null : Zval.null.seen = .null := rfl

variable {table : HashTable} {name : Bytes}

theorem digits_agree_iff (hname : WrittenInDigits name) :
    (arrayNameLookup table (sscanfLong name (-1)) name).seen =
        elementSeen table name ↔
      ∀ entry other, zendHashFind table name = some entry →
        zendHashIndexFind table (numberOf name) = some other →
          other.seen = entry.seen := by
  obtain ⟨hscan, hindex, hnul⟩ := sscanfLong_eq_numberOf hname
  rw [hscan, arrayNameLookup, if_pos hindex, elementSeen, arrayEntry]
  cases hfind : zendHashFind table name with
  | none =>
      change _ = ((if AtNul (strtol longMin longMax name).2 then
        zendHashIndexFind table (numberOf name) else none).getD .null).seen ↔ _
      rw [if_pos hnul]
      cases hnumber : zendHashIndexFind table (numberOf name) <;>
        simp [seen_returnEntry]
  | some entry =>
      cases hnumber : zendHashIndexFind table (numberOf name) <;>
        simp [seen_returnEntry]

theorem others_agree_iff (hname : ¬ WrittenInDigits name) :
    (arrayNameLookup table
        (if isIntegerString name then sscanfLong name (-1) else -1)
        name).seen = elementSeen table name ↔
      (zendHashFind table name = none →
        AtNul (strtol longMin longMax name).2 → ∀ other,
          zendHashIndexFind table (numberOf name) = some other →
            other.seen = .null) := by
  rw [index_of_not_digits hname, arrayNameLookup_of_negative (Int.le_refl _),
    seen_returnEntry, elementSeen, arrayEntry]
  cases hfind : zendHashFind table name with
  | none =>
      change _ = ((if AtNul (strtol longMin longMax name).2 then
        zendHashIndexFind table (numberOf name) else none).getD .null).seen ↔ _
      by_cases hnul : AtNul (strtol longMin longMax name).2
      · rw [if_pos hnul]
        cases hnumber : zendHashIndexFind table (numberOf name) with
        | none => simp
        | some other => simp [hnul, seen_null, eq_comm]
      · simp [hnul]
  | some entry => simp

/-- A value which converts shows the same before and after. -/
theorem seen_of_converted {entry : Zval} {value : Value}
    (hvalue : handlebarsValueFromZval entry .null = .ok value) :
    (handlebarsValueToZval value).seen = entry.seen := by
  cases entry with
  | resource handle => simp [handlebarsValueFromZval] at hvalue
  | reference target => simp [handlebarsValueFromZval] at hvalue
  | indirect slot => simp [handlebarsValueFromZval] at hvalue
  | _ =>
      obtain rfl := Except.ok.inj hvalue
      rfl

theorem pathSeen_eq_ok_iff (objects : ObjectHandlers) (shown : Zval) :
    pathSeen objects table name = .ok shown ↔
      (∀ entry, arrayEntry table name = some entry →
        entry.zType.Convertible) ∧
      shown = elementSeen table name := by
  rw [pathSeen, elementSeen, handlebarsStdZvalMapFind]
  cases harray : arrayEntry table name with
  | none => simp [convertEntry, Except.map, eq_comm]
  | some entry =>
      rw [convertEntry]
      have hok := valueFromZval_isOk_iff entry .null
      cases hvalue : handlebarsValueFromZval entry .null with
      | error error =>
          have hnot : ¬ entry.zType.Convertible := by
            simpa [hvalue] using hok
          simp [Except.map, hnot]
      | ok value =>
          have hseen := seen_of_converted hvalue
          have hconverts : entry.zType.Convertible := hok.mp ⟨value, hvalue⟩
          simp [Except.map, hseen, hconverts, eq_comm]

/-- The helper and a path of one name give the same value of an array exactly
when what the path finds converts, and the number read from the name leads to
nothing which the name itself does not lead to. -/
theorem nameLookup_eq_path_iff (objects : ObjectHandlers)
    (convertToString : Zval → Bytes) (table : HashTable) (name : Bytes) :
    pathSeen objects table name = .ok
        (phpHandlebarsNameLookup objects convertToString (.array table)
          (.string name)).seen ↔
      LooksUpAsPath table name := by
  rw [nameLookup_text, pathSeen_eq_ok_iff]
  by_cases hname : WrittenInDigits name
  · rw [if_pos hname.2, digits_agree_iff hname]
    constructor
    · rintro ⟨hconverts, hsame⟩
      exact ⟨hconverts, fun _ => hsame, fun hnot => absurd hname hnot⟩
    · intro hpath
      exact ⟨hpath.converts, hpath.digits hname⟩
  · rw [others_agree_iff hname]
    constructor
    · rintro ⟨hconverts, hnone⟩
      exact ⟨hconverts, fun hdigits => absurd hdigits hname, fun _ => hnone⟩
    · intro hpath
      exact ⟨hpath.converts, hpath.others hname⟩

end PhpHandlebars
