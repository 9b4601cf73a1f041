import PhpHandlebars.NestedLookup
import Mathlib.Tactic

/-!
# Values handed back by helpers

The hash of a helper call is a map of the library with wrapped PHP values in
it.  A helper gets it as a PHP array and may hand it back as a context, where
templates look into it.  Which entry a path then leads to is said here in terms
of the map itself.
-/

namespace PhpHandlebars

open DecimalText

/-- Containers of the library, nested to any depth, with PHP arrays and objects
among their entries. -/
inductive Value.Handed : Value → Prop where
  | null : Handed .null
  | boolean (value : Bool) : Handed (.boolean value)
  | integer (number : ℤ) : Handed (.integer number)
  | float (bits : UInt64) : Handed (.float bits)
  | string (value : Bytes) : Handed (.string value)
  | phpArray (table : HashTable) : Handed (.user (.array table))
  | phpObject (handle : ℕ) : Handed (.user (.object handle))
  | array (elements : List Value)
      (helements : ∀ child ∈ elements, Handed child) :
      Handed (.array elements)
  | map (entries : List (Bytes × Value)) (hnodup : (entries.map Prod.fst).Nodup)
      (hentries : ∀ entry ∈ entries, Handed entry.2) : Handed (.map entries)

def PathStep.name : PathStep → Option Bytes
  | .key name => some name
  | .index _ => none

/-- An index as a signed number, or the number which is read from a whole
name. -/
def PathStep.number : PathStep → Option ℤ
  | .key name =>
      let (number, rest) := strtol longMin longMax name
      if AtNul rest then some number else none
  | .index number => some number.toInt64.toInt

def entryNamed (entries : List (Bytes × Value)) (name : Bytes) :
    Option (Bytes × Value) :=
  entries.find? fun entry => entry.1 = name

/-- The entry whose key is the decimal of a number. -/
def entryNumbered (entries : List (Bytes × Value)) (number : ℤ) :
    Option (Bytes × Value) :=
  entries.find? fun entry => symtableKey entry.1 = .index number

/-- What a step leads to in a container which has been through PHP: an element
by any text for its index, an entry by its key first, then by any text for
it. -/
def Value.handedChild : Value → PathStep → Option Value
  | .array elements, step =>
      step.number.bind fun number =>
        if 0 ≤ number then elements[number.toNat]? else none
  | .map entries, step =>
      ((step.name.bind (entryNamed entries)).or
        (step.number.bind (entryNumbered entries))).map Prod.snd
  | _, _ => none

/-- PHP values within the containers are looked up as before. -/
def Value.handedStep (objects : ObjectHandlers) :
    Value → PathStep → Except LibError (Option Value)
  | .user intern, step => lookupStep objects (.user intern) step
  | value, step => .ok (value.handedChild step)

def Value.handedLookup (objects : ObjectHandlers) :
    Value → List PathStep → Except LibError (Option Value)
  | value, [] => .ok (some value)
  | value, step :: path =>
      (value.handedStep objects step).bind fun
        | some child => child.handedLookup objects path
        | none => .ok none

/-! ## Conversion -/

theorem Value.Handed.throughPhp {value : Value} (hvalue : value.Handed) :
    value.throughPhp = .ok value.wrapped := by
  cases hvalue with
  | boolean value => cases value <;> rfl
  | array elements helements =>
      simp [Value.throughPhp, valueToZval_array, handlebarsValueFromZval,
        Value.wrapped]
  | map entries hnodup hentries =>
      simp [Value.throughPhp, valueToZval_map hnodup,
        handlebarsValueFromZval, Value.wrapped]
  | _ => rfl

theorem Value.Handed.convertEntry {value : Value} (hvalue : value.Handed) :
    convertEntry (some (handlebarsValueToZval value)) .null =
      .ok (some value.wrapped) := by
  have hthrough := hvalue.throughPhp
  unfold Value.throughPhp at hthrough
  simp [PhpHandlebars.convertEntry, hthrough, Except.map]

theorem convertEntry_of_children {found : Option Value}
    (hfound : ∀ child, found = some child → child.Handed) :
    convertEntry (found.map handlebarsValueToZval) .null =
      .ok (found.map Value.wrapped) := by
  cases found with
  | none => rfl
  | some child => exact (hfound child rfl).convertEntry

/-! ## Lookups in an array -/

theorem indexed_keys (values : List Zval) :
    (indexed values).map Prod.fst =
      (List.range (indexed values).length).map
        fun index : ℕ => .index index := by
  have hplaces := List.zipIdx_map_snd 0 values
  rw [← List.range_eq_range'] at hplaces
  simp only [indexed, List.map_map, List.length_map, List.length_zipIdx]
  rw [← hplaces, List.map_map]
  rfl

theorem zendHashFind_indexed (values : List Zval) (name : Bytes) :
    zendHashFind (indexed values) name = none := by
  rw [zendHashFind_eq_lookup]
  apply zendHashLookup_of_not_mem
  rw [indexed_keys]
  simp

theorem zendHashIndexFind_indexed_int (values : List Zval) (number : ℤ) :
    zendHashIndexFind (indexed values) number =
      if 0 ≤ number then values[number.toNat]? else none := by
  by_cases hnumber : 0 ≤ number
  · rw [if_pos hnumber, ← zendHashIndexFind_indexed,
      Int.toNat_of_nonneg hnumber]
  · rw [if_neg hnumber]
    exact zendHashIndexFind_of_neg (indexed_keys values) (by omega)

theorem arrayEntry_indexed (values : List Zval) (name : Bytes) :
    arrayEntry (indexed values) name =
      (PathStep.key name).number.bind fun number =>
        if 0 ≤ number then values[number.toNat]? else none := by
  simp only [arrayEntry, zendHashFind_indexed, PathStep.number,
    zendHashIndexFind_indexed_int]
  by_cases hnul : AtNul (strtol longMin longMax name).2 <;> simp [hnul]

/-! ## Lookups in a map -/

/-- The buckets of the array a map becomes. -/
def mapBuckets (entries : List (Bytes × Value)) : HashTable :=
  entries.map fun entry =>
    (symtableKey entry.1, handlebarsValueToZval entry.2)

theorem zendHashLookup_mapBuckets (entries : List (Bytes × Value))
    (key : ArrayKey) :
    zendHashLookup (mapBuckets entries) key =
      (entries.find? fun entry => symtableKey entry.1 = key).map
        fun entry => handlebarsValueToZval entry.2 := by
  simp only [zendHashLookup, mapBuckets, List.find?_map, Option.map_map,
    Function.comp_def]

theorem zendHashIndexFind_mapBuckets (entries : List (Bytes × Value))
    (number : ℤ) :
    zendHashIndexFind (mapBuckets entries) number =
      (entryNumbered entries number).map
        fun entry => handlebarsValueToZval entry.2 :=
  zendHashLookup_mapBuckets entries (.index number)

theorem entryNamed_eq_find (entries : List (Bytes × Value)) (name : Bytes) :
    entryNamed entries name =
      entries.find? fun entry => symtableKey entry.1 = symtableKey name := by
  simp only [entryNamed, symtableKey_injective.eq_iff]

/-- No entry is stored under a string which is stored as a number. -/
theorem zendHashFind_mapBuckets_of_index {name : Bytes} {number : ℤ}
    (hname : symtableKey name = .index number)
    (entries : List (Bytes × Value)) :
    zendHashFind (mapBuckets entries) name = none := by
  rw [zendHashFind_eq_lookup, zendHashLookup_mapBuckets,
    Option.map_eq_none_iff, List.find?_eq_none]
  intro entry _
  simp only [decide_eq_true_eq]
  intro hentry
  rcases symtableKey_cases entry.1 with ⟨other, _, _, _, hkey⟩ | hkey
  · simp [hkey] at hentry
  · rw [hkey] at hentry
    rw [ArrayKey.string.inj hentry, hname] at hkey
    simp at hkey

theorem arrayEntry_mapBuckets (entries : List (Bytes × Value))
    (name : Bytes) :
    arrayEntry (mapBuckets entries) name =
      ((entryNamed entries name).or
        ((PathStep.key name).number.bind (entryNumbered entries))).map
          fun entry => handlebarsValueToZval entry.2 := by
  simp only [arrayEntry, PathStep.number, zendHashIndexFind_mapBuckets]
  rcases symtableKey_cases name with ⟨number, _, _, _, hname⟩ | hname
  · -- `strtol` reads the number under which the name is stored
    have hnamed : entryNamed entries name = entryNumbered entries number := by
      rw [entryNamed_eq_find, hname]
      rfl
    simp [zendHashFind_mapBuckets_of_index hname, strtol_of_index hname,
      AtNul, hnamed]
  · have hnamed : zendHashFind (mapBuckets entries) name =
        (entryNamed entries name).map
          fun entry => handlebarsValueToZval entry.2 := by
      rw [entryNamed_eq_find, hname, zendHashFind_eq_lookup,
        zendHashLookup_mapBuckets]
    rw [hnamed]
    cases entryNamed entries name with
    | some entry => rfl
    | none =>
        by_cases hnul : AtNul (strtol longMin longMax name).2 <;>
          simp [hnul]

/-! ## One step -/

theorem Value.Handed.child {value child : Value} {step : PathStep}
    (hvalue : value.Handed) (hchild : value.handedChild step = some child) :
    child.Handed := by
  cases hvalue with
  | array elements helements =>
      obtain ⟨number, _, hindex⟩ := Option.bind_eq_some_iff.mp hchild
      by_cases hnumber : 0 ≤ number
      · rw [if_pos hnumber] at hindex
        exact helements _ (List.mem_of_getElem? hindex)
      · simp [hnumber] at hindex
  | map entries hnodup hentries =>
      obtain ⟨entry, hfound, rfl⟩ := Option.map_eq_some_iff.mp hchild
      rcases Option.or_eq_some_iff.mp hfound with hnamed | ⟨_, hnumbered⟩
      · obtain ⟨name, _, hfind⟩ := Option.bind_eq_some_iff.mp hnamed
        exact hentries entry (List.mem_of_find?_eq_some hfind)
      · obtain ⟨number, _, hfind⟩ := Option.bind_eq_some_iff.mp hnumbered
        exact hentries entry (List.mem_of_find?_eq_some hfind)
  | _ => cases step <;> simp [Value.handedChild] at hchild

theorem lookupStep_user (objects : ObjectHandlers) (intern : Zval)
    (step : PathStep) :
    lookupStep objects (.user intern) step =
      convertEntry (stepEntry objects intern step) .null := by
  cases intern <;> cases step <;> rfl

theorem stepEntry_array (objects : ObjectHandlers) (elements : List Value)
    (step : PathStep) :
    stepEntry objects (.array (indexed (elements.map handlebarsValueToZval)))
        step =
      ((Value.array elements).handedChild step).map
        handlebarsValueToZval := by
  have helements : ∀ number : ℤ,
      (if 0 ≤ number then
          (elements.map handlebarsValueToZval)[number.toNat]? else none) =
        (if 0 ≤ number then elements[number.toNat]? else none).map
          handlebarsValueToZval := by
    intro number
    by_cases hnumber : 0 ≤ number <;> simp [hnumber]
  cases step with
  | key name =>
      rw [stepEntry, arrayEntry_indexed, Value.handedChild,
        Option.map_bind]
      exact congrArg _ (funext helements)
  | index number =>
      rw [stepEntry, indexEntry, zendHashIndexFind_indexed_int, helements]
      rfl

theorem stepEntry_map (objects : ObjectHandlers)
    (entries : List (Bytes × Value)) (step : PathStep) :
    stepEntry objects (.array (mapBuckets entries)) step =
      ((Value.map entries).handedChild step).map handlebarsValueToZval := by
  cases step with
  | key name =>
      rw [stepEntry, arrayEntry_mapBuckets, Value.handedChild,
        Option.map_map]
      rfl
  | index number =>
      rw [stepEntry, indexEntry, zendHashIndexFind_mapBuckets,
        Value.handedChild, Option.map_map]
      rfl

/-- What comes out of PHP is of the library, or wrapped already. -/
theorem handed_of_fromZval {val : Zval} {value : Value}
    (hconvert : handlebarsValueFromZval val .null = .ok value) :
    value.Handed ∧ value.wrapped = value := by
  cases val with
  | resource handle => simp [handlebarsValueFromZval] at hconvert
  | reference target => simp [handlebarsValueFromZval] at hconvert
  | indirect slot => simp [handlebarsValueFromZval] at hconvert
  | _ =>
      obtain rfl := Except.ok.inj hconvert
      exact ⟨by constructor, rfl⟩

theorem handed_of_convertEntry {entry : Option Zval} {child : Value}
    (hentry : convertEntry entry .null = .ok (some child)) :
    child.Handed ∧ child.wrapped = child := by
  cases entry with
  | none => simp [convertEntry] at hentry
  | some entry =>
      change (handlebarsValueFromZval entry .null).map some = _ at hentry
      cases hconvert : handlebarsValueFromZval entry .null with
      | error error => simp [hconvert, Except.map] at hentry
      | ok value =>
          rw [hconvert] at hentry
          obtain rfl := Option.some.inj (Except.ok.inj hentry)
          exact handed_of_fromZval hconvert

theorem handed_of_lookupStep {objects : ObjectHandlers} {intern : Zval}
    {step : PathStep} {child : Value}
    (hlookup : lookupStep objects (.user intern) step = .ok (some child)) :
    child.Handed ∧ child.wrapped = child := by
  rw [lookupStep_user] at hlookup
  exact handed_of_convertEntry hlookup

theorem Value.Handed.ofStep {objects : ObjectHandlers} {value child : Value}
    {step : PathStep} (hvalue : value.Handed)
    (hstep : value.handedStep objects step = .ok (some child)) :
    child.Handed := by
  cases value with
  | user intern => exact (handed_of_lookupStep hstep).1
  | _ => exact hvalue.child (Except.ok.inj hstep)

theorem lookupStep_wrapped (objects : ObjectHandlers) (intern : Zval)
    (step : PathStep) :
    lookupStep objects (.user intern) step =
      (lookupStep objects (.user intern) step).map
        (Option.map Value.wrapped) := by
  cases hlookup : lookupStep objects (.user intern) step with
  | error error => rfl
  | ok found =>
      cases found with
      | none => rfl
      | some child =>
          have hwrapped := (handed_of_lookupStep hlookup).2
          simp [Except.map, hwrapped]

/-- A step on the wrapped value is the step on the value itself. -/
theorem Value.Handed.lookupStep {value : Value} (hvalue : value.Handed)
    (objects : ObjectHandlers) (step : PathStep) :
    lookupStep objects value.wrapped step =
      (value.handedStep objects step).map (Option.map Value.wrapped) := by
  have hchild : ∀ child, value.handedChild step = some child →
      child.Handed := fun _ hfound => hvalue.child hfound
  -- a container of the library has become an array with all its entries
  cases hvalue with
  | phpArray table => exact lookupStep_wrapped objects (.array table) step
  | phpObject handle => exact lookupStep_wrapped objects (.object handle) step
  | array elements helements =>
      rw [Value.wrapped, valueToZval_array, lookupStep_user,
        stepEntry_array, convertEntry_of_children hchild]
      rfl
  | map entries hnodup hentries =>
      have hmap : handlebarsValueToZval (.map entries) =
          .array (mapBuckets entries) := valueToZval_map hnodup
      rw [Value.wrapped, hmap, lookupStep_user, stepEntry_map,
        convertEntry_of_children hchild]
      rfl
  | _ => cases step <;> rfl

/-! ## Paths -/

theorem Value.Handed.lookupPath {value : Value} (hvalue : value.Handed)
    (objects : ObjectHandlers) (path : List PathStep) :
    lookupPath objects value.wrapped path =
      (value.handedLookup objects path).map (Option.map Value.wrapped) := by
  induction path generalizing value with
  | nil => rfl
  | cons step path ih =>
      rw [PhpHandlebars.lookupPath, Value.handedLookup,
        hvalue.lookupStep objects step]
      cases hstep : value.handedStep objects step with
      | error error => rfl
      | ok found =>
          cases found with
          | none => rfl
          | some child => exact ih (hvalue.ofStep hstep)

/-- A value handed back by a helper is looked up, along every path, by its own
keys and indices and by the texts which stand for them. -/
theorem handed_back_lookups {value : Value} (hvalue : value.Handed)
    (objects : ObjectHandlers) (path : List PathStep) :
    (value.throughPhp.bind fun context =>
        lookupPath objects context path) =
      (value.handedLookup objects path).map (Option.map Value.wrapped) := by
  rw [hvalue.throughPhp]
  exact hvalue.lookupPath objects path

def sampleHash : Value :=
  .map [(ascii "5", .user (.array [(.string (ascii "x"), .true)]))]

theorem sampleHash_handed : sampleHash.Handed := by
  refine .map _ (by decide) ?_
  simp only [List.mem_singleton]
  rintro entry rfl
  exact .phpArray _

/-- No key is spelled this way, but `strtol` reads a five. -/
theorem handed_back_other_spelling :
    (sampleHash.throughPhp.bind fun context =>
        lookupPath noObjects context
          [.key (ascii " +05"), .key (ascii "x")]) =
      .ok (some (.boolean true)) :=
  handed_back_lookups sampleHash_handed noObjects
    [.key (ascii " +05"), .key (ascii "x")]

end PhpHandlebars
