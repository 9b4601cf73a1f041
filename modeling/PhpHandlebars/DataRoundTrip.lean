import PhpHandlebars.ValueLookup
import Mathlib.Tactic

/-!
# Handlebars data on its way through PHP

Data handed to PHP by `handlebars_value_to_zval` comes back wrapped.  Lookups
on the wrapped arrays follow the paths of the data, since a numeric string key
is looked up as the integer it was stored under.
-/

namespace PhpHandlebars

/-- Values without user cells, closures, pointers and helpers.  An array has no
more elements than a `zend_long` counts, and a map no key twice. -/
inductive Value.Data : Value → Prop where
  | null : Data .null
  | boolean (value : Bool) : Data (.boolean value)
  | integer (number : ℤ) : Data (.integer number)
  | float (bits : UInt64) : Data (.float bits)
  | string (value : Bytes) : Data (.string value)
  | array (elements : List Value) (hlength : elements.length ≤ longMax)
      (helements : ∀ child ∈ elements, Data child) : Data (.array elements)
  | map (entries : List (Bytes × Value)) (hnodup : (entries.map Prod.fst).Nodup)
      (hentries : ∀ entry ∈ entries, Data entry.2) : Data (.map entries)

inductive PathStep where
  | key (name : Bytes)
  | index (number : UInt64)

def Value.child : Value → PathStep → Option Value
  | .map entries, .key name =>
      (entries.find? fun entry => entry.1 = name).map Prod.snd
  | .array elements, .index number => elements[number.toNat]?
  | _, _ => none

def Value.follow : Value → List PathStep → Option Value
  | value, [] => some value
  | value, step :: path => (value.child step).bind fun child => child.follow path

/-- One lookup on a wrapped value, into a fresh slot. -/
def lookupStep (objects : ObjectHandlers) :
    Value → PathStep → Except LibError (Option Value)
  | .user intern, .key name =>
      handlebarsStdZvalMapFind objects intern name .null
  | .user intern, .index number =>
      handlebarsStdZvalArrayFind intern number .null
  | _, _ => .ok none

def lookupPath (objects : ObjectHandlers) :
    Value → List PathStep → Except LibError (Option Value)
  | value, [] => .ok (some value)
  | value, step :: path =>
      (lookupStep objects value step).bind fun
        | some child => lookupPath objects child path
        | none => .ok none

/-- What PHP data becomes in a fresh slot. -/
def Value.throughPhp (value : Value) : Except LibError Value :=
  handlebarsValueFromZval (handlebarsValueToZval value) .null

/-- The entries of a container are the entries of its array, in order, each
under a key of its own. -/
def Value.EntriesKept : Value → Prop
  | .array elements =>
      handlebarsValueToZval (.array elements) =
        .array (indexed (elements.map handlebarsValueToZval))
  | .map entries =>
      handlebarsValueToZval (.map entries) =
          .array (entries.map fun entry =>
            (symtableKey entry.1, handlebarsValueToZval entry.2)) ∧
        (entries.map fun entry => symtableKey entry.1).Nodup
  | _ => True

def Value.wrapped : Value → Value
  | .array elements => .user (handlebarsValueToZval (.array elements))
  | .map entries => .user (handlebarsValueToZval (.map entries))
  | value => value

theorem Value.Data.throughPhp {value : Value} (hdata : value.Data) :
    value.throughPhp = .ok value.wrapped := by
  cases hdata with
  | boolean value => cases value <;> rfl
  | array elements hlength helements =>
      simp [Value.throughPhp, valueToZval_array, handlebarsValueFromZval,
        Value.wrapped]
  | map entries hnodup hentries =>
      simp [Value.throughPhp, valueToZval_map hnodup,
        handlebarsValueFromZval, Value.wrapped]
  | _ => rfl

theorem Value.Data.convertEntry {value : Value} (hdata : value.Data) :
    convertEntry (some (handlebarsValueToZval value)) .null =
      .ok (some value.wrapped) := by
  have hthrough := hdata.throughPhp
  unfold Value.throughPhp at hthrough
  simp [PhpHandlebars.convertEntry, hthrough, Except.map]

theorem zipIdx_lookup (values : List Zval) (start number : ℕ) :
    zendHashLookup ((values.zipIdx start).map fun entry =>
        (.index entry.2, entry.1)) (.index (start + number : ℕ)) =
      values[number]? := by
  induction values generalizing start number with
  | nil => rfl
  | cons value rest ih =>
      cases number with
      | zero => simp [zendHashLookup]
      | succ number =>
          have hrest := ih (start + 1) number
          rw [show start + 1 + number = start + (number + 1) by omega] at hrest
          have hne : ¬ (start : ℤ) = (start + (number + 1) : ℕ) := by omega
          simp only [zendHashLookup, List.zipIdx_cons, List.map_cons,
            List.find?_cons, ArrayKey.index.injEq, hne, decide_false] at hrest ⊢
          simpa using hrest

theorem zendHashIndexFind_indexed (values : List Zval) (number : ℕ) :
    zendHashIndexFind (indexed values) number = values[number]? := by
  have hlookup := zipIdx_lookup values 0 number
  rwa [Nat.zero_add] at hlookup

/-- The array a map becomes. -/
def mapArray (entries : List (Bytes × Value))
    (hnodup : (entries.map Prod.fst).Nodup) : PhpArray where
  buckets := entries.map fun entry =>
    (symtableKey entry.1, handlebarsValueToZval entry.2)
  nodup := by
    have hkeys := hnodup.map symtableKey_injective
    rwa [List.map_map] at hkeys ⊢
  stored := by
    intro key hkey
    rw [List.map_map, List.mem_map] at hkey
    obtain ⟨entry, _, rfl⟩ := hkey
    exact symtableKey_stored entry.1

theorem mapArray_element {entries : List (Bytes × Value)}
    (hnodup : (entries.map Prod.fst).Nodup) (name : Bytes) :
    (mapArray entries hnodup).element name =
      (entries.find? fun entry => entry.1 = name).map fun entry =>
        handlebarsValueToZval entry.2 := by
  simp only [PhpArray.element, zendHashLookup, mapArray, List.find?_map,
    Option.map_map, Function.comp_def, symtableKey_injective.eq_iff]

theorem Value.Data.child {value child : Value} {step : PathStep}
    (hdata : value.Data) (hchild : value.child step = some child) :
    child.Data := by
  cases hdata with
  | array elements hlength helements =>
      cases step with
      | key name => simp [Value.child] at hchild
      | index number => exact helements _ (List.mem_of_getElem? hchild)
  | map entries hnodup hentries =>
      cases step with
      | index number => simp [Value.child] at hchild
      | key name =>
          obtain ⟨entry, hfind, rfl⟩ := Option.map_eq_some_iff.mp hchild
          exact hentries entry (List.mem_of_find?_eq_some hfind)
  | _ => cases step <;> simp [Value.child] at hchild

/-- A lookup reaches the conversion of what the value has there. -/
theorem Value.Data.lookupStep {value child : Value} {step : PathStep}
    (hdata : value.Data) (hchild : value.child step = some child)
    (objects : ObjectHandlers) :
    lookupStep objects value.wrapped step = .ok (some child.wrapped) := by
  have hconvert := (hdata.child hchild).convertEntry
  cases hdata with
  | array elements hlength helements =>
      cases step with
      | key name => simp [Value.child] at hchild
      | index number =>
          have hindex : elements[number.toNat]? = some child := hchild
          obtain ⟨hplace, _⟩ := List.getElem?_eq_some_iff.mp hindex
          -- the index lies below `LONG_MAX`, and is the same signed number
          have hsigned : number.toInt64.toInt = number.toNat :=
            toInt_toInt64_of_le (by omega)
          simp only [PhpHandlebars.lookupStep, Value.wrapped,
            valueToZval_array, handlebarsStdZvalArrayFind, indexEntry,
            hsigned, zendHashIndexFind_indexed, List.getElem?_map, hindex,
            Option.map_some, hconvert]
  | map entries hnodup hentries =>
      cases step with
      | index number => simp [Value.child] at hchild
      | key name =>
          obtain ⟨entry, hfind, rfl⟩ := Option.map_eq_some_iff.mp hchild
          have helement : (mapArray entries hnodup).element name =
              some (handlebarsValueToZval entry.2) := by
            rw [mapArray_element, hfind]
            rfl
          have hwrapped : (Value.map entries).wrapped =
              .user (.array (mapArray entries hnodup).buckets) := by
            rw [Value.wrapped, valueToZval_map hnodup]
            rfl
          rw [hwrapped, PhpHandlebars.lookupStep, handlebarsStdZvalMapFind,
            PhpArray.arrayEntry_of_element helement]
          exact hconvert
  | _ => cases step <;> simp [Value.child] at hchild

theorem Value.Data.lookupPath {value target : Value} {path : List PathStep}
    (hdata : value.Data) (hfollow : value.follow path = some target)
    (objects : ObjectHandlers) :
    target.Data ∧
      lookupPath objects value.wrapped path = .ok (some target.wrapped) := by
  induction path generalizing value with
  | nil =>
      obtain rfl := Option.some.inj hfollow
      exact ⟨hdata, rfl⟩
  | cons step path ih =>
      obtain ⟨child, hchild, hrest⟩ := Option.bind_eq_some_iff.mp hfollow
      obtain ⟨htarget, hpath⟩ := ih (hdata.child hchild) hrest
      refine ⟨htarget, ?_⟩
      rw [PhpHandlebars.lookupPath, hdata.lookupStep hchild objects]
      exact hpath

theorem Value.Data.entriesKept {value : Value} (hdata : value.Data) :
    value.EntriesKept := by
  cases hdata with
  | array elements hlength helements => exact valueToZval_array elements
  | map entries hnodup hentries =>
      refine ⟨valueToZval_map hnodup, ?_⟩
      have hkeys := hnodup.map symtableKey_injective
      rwa [List.map_map] at hkeys
  | _ => trivial

/-- At every path of the data, PHP holds as many entries in the same order,
and following the path there reaches the conversion of the value. -/
theorem data_survives_php
    {value target : Value} {path : List PathStep} (hdata : value.Data)
    (hfollow : value.follow path = some target) (objects : ObjectHandlers) :
    target.EntriesKept ∧
      ∃ start reached, value.throughPhp = .ok start ∧
        target.throughPhp = .ok reached ∧
        lookupPath objects start path = .ok (some reached) := by
  obtain ⟨htarget, hpath⟩ := hdata.lookupPath hfollow objects
  exact ⟨htarget.entriesKept, value.wrapped, target.wrapped,
    hdata.throughPhp, htarget.throughPhp, hpath⟩

def sampleData : Value :=
  .map [(ascii "5", .array [.boolean true]), (ascii "x", .null)]

theorem sampleData_data : sampleData.Data := by
  refine .map _ (by decide) ?_
  simp only [List.mem_cons, List.not_mem_nil, or_false]
  rintro entry (rfl | rfl)
  · refine .array _ (by simp [longMax]) ?_
    simp only [List.mem_singleton]
    rintro child rfl
    exact .boolean true
  · exact .null

theorem data_survives_php_numeric_key :
    (Value.boolean true).EntriesKept ∧
      ∃ start reached, sampleData.throughPhp = .ok start ∧
        (Value.boolean true).throughPhp = .ok reached ∧
        lookupPath noObjects start [.key (ascii "5"), .index 0] =
          .ok (some reached) :=
  data_survives_php sampleData_data rfl noObjects

end PhpHandlebars
