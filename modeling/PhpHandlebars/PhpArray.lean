import PhpHandlebars.DecimalText
import PhpHandlebars.ValueConversion
import Mathlib.Tactic

/-!
# PHP arrays as the extension builds and reads them

A string key which is a canonical decimal within the range of a `zend_long`
is stored as an integer.  `handlebars_value_to_zval` stores the entries of a
handlebars map this way, and its elements under the indices from zero on.
-/

namespace PhpHandlebars

open DecimalText

def longMin : ℤ := -9223372036854775808

def longMax : ℤ := 9223372036854775807

/-- `ZEND_HANDLE_NUMERIC_STR`: the key under which the symtable functions
store and look up a string. -/
def symtableKey (name : Bytes) : ArrayKey :=
  match readInteger name with
  | some number =>
      if longMin ≤ number ∧ number ≤ longMax then .index number
      else .string name
  | none => .string name

def zendHashLookup (table : HashTable) (key : ArrayKey) : Option Zval :=
  (table.find? fun bucket => bucket.1 = key).map Prod.snd

def zendHashIndexFind (table : HashTable) (number : ℤ) : Option Zval :=
  zendHashLookup table (.index number)

def zendHashUpdate (table : HashTable) (key : ArrayKey) (value : Zval) :
    HashTable :=
  if key ∈ table.map Prod.fst then
    table.map fun bucket => if bucket.1 = key then (key, value) else bucket
  else
    table ++ [(key, value)]

/-- `nNextFreeElement`, for the integer keys present. -/
def nextFreeElement (table : HashTable) : ℤ :=
  table.foldl
    (fun next bucket =>
      match bucket.1 with
      | .index number => max next (number + 1)
      | .string _ => next)
    0

def addNextIndexZval (table : HashTable) (value : Zval) : HashTable :=
  table ++ [(.index (nextFreeElement table), value)]

def addAssocZvalEx (table : HashTable) (name : Bytes) (value : Zval) :
    HashTable :=
  zendHashUpdate table (symtableKey name) value

/-- A key as it stands in an array. -/
def ArrayKey.Stored : ArrayKey → Prop
  | .string name => symtableKey name = .string name
  | .index number => longMin ≤ number ∧ number ≤ longMax

structure PhpArray where
  buckets : HashTable
  nodup : (buckets.map Prod.fst).Nodup
  stored : ∀ key ∈ buckets.map Prod.fst, key.Stored

/-- The loop of `php_handlebars_is_int_array`, at the place `idx`. -/
def isIntArrayFrom (idx : ℕ) : HashTable → Bool
  | [] => true
  | (.string _, _) :: _ => false
  | (.index index, _) :: rest =>
      if index ≠ idx then false else isIntArrayFrom (idx + 1) rest

def phpHandlebarsIsIntArray (zarr : Zval) : Bool :=
  match zarr with
  | .array arr => if arr.length = 0 then true else isIntArrayFrom 0 arr
  | _ => false

/-! ## Keys -/

theorem zendHashFind_eq_lookup (table : HashTable) (name : Bytes) :
    zendHashFind table name = zendHashLookup table (.string name) := rfl

theorem zendHashLookup_of_not_mem {table : HashTable} {key : ArrayKey}
    (hkey : key ∉ table.map Prod.fst) : zendHashLookup table key = none := by
  unfold zendHashLookup
  rw [Option.map_eq_none_iff, List.find?_eq_none]
  intro bucket hbucket
  simp only [decide_eq_true_eq]
  rintro rfl
  exact hkey (List.mem_map_of_mem hbucket)

theorem zendHashLookup_cons (bucket : ArrayKey × Zval) (rest : HashTable)
    (key : ArrayKey) :
    zendHashLookup (bucket :: rest) key =
      if bucket.1 = key then some bucket.2 else zendHashLookup rest key := by
  by_cases heq : bucket.1 = key <;> simp [zendHashLookup, heq]

theorem zendHashLookup_isSome_iff (table : HashTable) (key : ArrayKey) :
    (zendHashLookup table key).isSome ↔ key ∈ table.map Prod.fst := by
  induction table with
  | nil => simp [zendHashLookup]
  | cons bucket rest ih =>
      rw [zendHashLookup_cons]
      by_cases heq : bucket.1 = key
      · simp [heq]
      · simp [heq, ih, Ne.symm heq]

theorem zendHashLookup_append (first second : HashTable) (key : ArrayKey) :
    zendHashLookup (first ++ second) key =
      (zendHashLookup first key).or (zendHashLookup second key) := by
  simp [zendHashLookup, List.find?_append, Option.map_or]

theorem zendHashLookup_overwrite (table : HashTable) (key other : ArrayKey)
    (value : Zval) :
    zendHashLookup (table.map fun bucket =>
        if bucket.1 = key then (key, value) else bucket) other =
      if other = key then (zendHashLookup table key).map fun _ => value
      else zendHashLookup table other := by
  induction table with
  | nil => simp [zendHashLookup]
  | cons bucket rest ih =>
      rw [List.map_cons, zendHashLookup_cons, ih, zendHashLookup_cons,
        zendHashLookup_cons]
      by_cases hother : other = key
      · by_cases hbucket : bucket.1 = key <;> simp [hbucket, hother]
      · by_cases hbucket : bucket.1 = key
        · simp [hbucket, hother, Ne.symm hother]
        · simp [hbucket, hother]

/-- An update is seen under its key and under no other. -/
theorem zendHashLookup_update (table : HashTable) (key other : ArrayKey)
    (value : Zval) :
    zendHashLookup (zendHashUpdate table key value) other =
      if other = key then some value else zendHashLookup table other := by
  unfold zendHashUpdate
  split
  next hmem =>
    obtain ⟨old, hold⟩ := Option.isSome_iff_exists.mp
      ((zendHashLookup_isSome_iff table key).mpr hmem)
    rw [zendHashLookup_overwrite, hold, Option.map_some]
  next hmem =>
    rw [zendHashLookup_append]
    by_cases hother : other = key
    · subst other
      rw [zendHashLookup_of_not_mem hmem]
      simp [zendHashLookup]
    · simp [zendHashLookup, hother, Ne.symm hother]

theorem zendHashUpdate_keys_nodup {table : HashTable}
    (hnodup : (table.map Prod.fst).Nodup) (key : ArrayKey) (value : Zval) :
    ((zendHashUpdate table key value).map Prod.fst).Nodup := by
  unfold zendHashUpdate
  split
  next hmem =>
    have hkeys : (table.map fun bucket =>
        if bucket.1 = key then (key, value) else bucket).map Prod.fst =
          table.map Prod.fst := by
      rw [List.map_map]
      apply List.map_congr_left
      intro bucket _
      by_cases hbucket : bucket.1 = key <;> simp [hbucket]
    rw [hkeys]
    exact hnodup
  next hmem =>
    rw [List.map_append]
    apply List.Nodup.append hnodup (by simp)
    simpa using hmem

theorem symtableKey_cases (name : Bytes) :
    (∃ number, readInteger name = some number ∧ longMin ≤ number ∧
      number ≤ longMax ∧ symtableKey name = .index number) ∨
    symtableKey name = .string name := by
  unfold symtableKey
  cases hread : readInteger name with
  | none => exact .inr rfl
  | some number =>
      by_cases hrange : longMin ≤ number ∧ number ≤ longMax
      · exact .inl ⟨number, rfl, hrange.1, hrange.2, by simp [hrange]⟩
      · exact .inr (by simp [hrange])

/-- Different strings are stored under different keys. -/
theorem symtableKey_injective : Function.Injective symtableKey := by
  intro first second heq
  rcases symtableKey_cases first with ⟨number, hread, _, _, hfirst⟩ | hfirst <;>
    rcases symtableKey_cases second with
      ⟨number', hread', _, _, hsecond⟩ | hsecond <;>
    rw [hfirst, hsecond] at heq
  · obtain rfl := ArrayKey.index.inj heq
    exact readInteger_inj hread hread'
  · simp at heq
  · simp at heq
  · exact ArrayKey.string.inj heq

theorem symtableKey_stored (name : Bytes) : (symtableKey name).Stored := by
  rcases symtableKey_cases name with ⟨number, _, hlo, hhi, hkey⟩ | hkey
  · rw [hkey]
    exact ⟨hlo, hhi⟩
  · rw [hkey]
    exact hkey

/-! ## Arrays numbered from zero on -/

theorem isIntArrayFrom_iff (idx : ℕ) (table : HashTable) :
    isIntArrayFrom idx table ↔
      table.map Prod.fst =
        (List.range' idx table.length).map fun index : ℕ => .index index := by
  induction table generalizing idx with
  | nil => simp [isIntArrayFrom]
  | cons bucket rest ih =>
      rcases bucket with ⟨key, value⟩
      cases key with
      | string name => simp [isIntArrayFrom, List.range'_succ]
      | index index =>
          by_cases heq : index = idx
          · simp [isIntArrayFrom, heq, ih, List.range'_succ]
          · simp [isIntArrayFrom, heq, List.range'_succ]

/-- The keys in order are 0, 1, and so on. -/
theorem isIntArray_iff (table : HashTable) :
    phpHandlebarsIsIntArray (.array table) ↔
      table.map Prod.fst =
        (List.range table.length).map fun index : ℕ => .index index := by
  rw [List.range_eq_range', ← isIntArrayFrom_iff]
  cases table with
  | nil => simp [phpHandlebarsIsIntArray, isIntArrayFrom]
  | cons bucket rest => simp [phpHandlebarsIsIntArray]

theorem zendHashIndexFind_of_range' {idx : ℕ} {table : HashTable}
    (hkeys : table.map Prod.fst =
      (List.range' idx table.length).map fun index : ℕ => .index index)
    (place : ℕ) :
    zendHashIndexFind table ((idx + place : ℕ) : ℤ) =
      table[place]?.map Prod.snd := by
  induction table generalizing idx place with
  | nil => simp [zendHashIndexFind, zendHashLookup]
  | cons bucket rest ih =>
      simp only [List.map_cons, List.length_cons, List.range'_succ,
        List.cons.injEq] at hkeys
      obtain ⟨hkey, hrest⟩ := hkeys
      rw [zendHashIndexFind, zendHashLookup_cons, hkey]
      cases place with
      | zero => simp
      | succ place =>
          have hplace : idx + (place + 1) = idx + 1 + place := by omega
          have hne : ArrayKey.index idx ≠
              .index ((idx + (place + 1) : ℕ) : ℤ) := by
            rw [Ne, ArrayKey.index.injEq]
            omega
          rw [if_neg hne, hplace]
          exact ih hrest place

/-- A list is looked up by its places. -/
theorem zendHashIndexFind_of_range {table : HashTable}
    (hkeys : table.map Prod.fst =
      (List.range table.length).map fun index : ℕ => .index index)
    (place : ℕ) :
    zendHashIndexFind table place = table[place]?.map Prod.snd := by
  rw [List.range_eq_range'] at hkeys
  simpa using zendHashIndexFind_of_range' hkeys place

theorem zendHashIndexFind_of_neg {table : HashTable}
    (hkeys : table.map Prod.fst =
      (List.range table.length).map fun index : ℕ => .index index)
    {number : ℤ} (hneg : number < 0) :
    zendHashIndexFind table number = none := by
  apply zendHashLookup_of_not_mem
  rw [hkeys]
  intro hmem
  obtain ⟨index, _, hindex⟩ := List.mem_map.mp hmem
  have heq : (index : ℤ) = number := ArrayKey.index.inj hindex
  omega

/-- A list ends within the range of a `zend_long`. -/
theorem PhpArray.place_le_longMax (array : PhpArray)
    (hkeys : array.buckets.map Prod.fst =
      (List.range array.buckets.length).map fun index : ℕ => .index index)
    {place : ℕ} (hplace : place < array.buckets.length) :
    (place : ℤ) ≤ longMax := by
  have hmem : ArrayKey.index place ∈ array.buckets.map Prod.fst := by
    rw [hkeys]
    exact List.mem_map.mpr ⟨place, List.mem_range.mpr hplace, rfl⟩
  exact (array.stored _ hmem).2

/-! ## `handlebars_value_to_zval` -/

mutual

/-- Closures, pointers and helpers run into `assert(0)`, which is compiled
out unless PHP is a debug build, and become null. -/
def handlebarsValueToZval : Value → Zval
  | .null => .null
  | .boolean value => if value then .true else .false
  | .float bits => .double bits
  | .integer number => .long number
  | .string value => .string value
  | .array elements => .array (handlebarsValueArrayToZval [] elements)
  | .map entries => .array (handlebarsValueMapToZval [] entries)
  | .user intern => intern.deref
  | .closure => .null
  | .ptr => .null
  | .helper => .null

def handlebarsValueArrayToZval (val : HashTable) : List Value → HashTable
  | [] => val
  | child :: rest =>
      handlebarsValueArrayToZval
        (addNextIndexZval val (handlebarsValueToZval child)) rest

def handlebarsValueMapToZval (val : HashTable) :
    List (Bytes × Value) → HashTable
  | [] => val
  | (key, child) :: rest =>
      handlebarsValueMapToZval
        (addAssocZvalEx val key (handlebarsValueToZval child)) rest

end

/-! ## The arrays built -/

/-- A list under the indices from zero on. -/
def indexed (values : List Zval) : HashTable :=
  values.zipIdx.map fun entry => (.index entry.2, entry.1)

@[simp] theorem indexed_nil : indexed [] = [] := rfl

theorem indexed_append_singleton (values : List Zval) (value : Zval) :
    indexed (values ++ [value]) =
      indexed values ++ [(.index values.length, value)] := by
  simp [indexed, List.zipIdx_append]

theorem nextFreeElement_indexed (values : List Zval) :
    nextFreeElement (indexed values) = values.length := by
  induction values using List.reverseRecOn with
  | nil => rfl
  | append_singleton values value ih =>
      unfold nextFreeElement at ih ⊢
      rw [indexed_append_singleton, List.foldl_append, ih]
      simp

theorem valueArrayToZval_indexed (values : List Zval)
    (elements : List Value) :
    handlebarsValueArrayToZval (indexed values) elements =
      indexed (values ++ elements.map handlebarsValueToZval) := by
  induction elements generalizing values with
  | nil => simp [handlebarsValueArrayToZval]
  | cons child rest ih =>
      have hstep : addNextIndexZval (indexed values)
          (handlebarsValueToZval child) =
            indexed (values ++ [handlebarsValueToZval child]) := by
        rw [addNextIndexZval, nextFreeElement_indexed,
          indexed_append_singleton]
      rw [handlebarsValueArrayToZval, hstep, ih]
      simp

theorem valueMapToZval_append {val : HashTable}
    {entries : List (Bytes × Value)}
    (hnodup : (entries.map Prod.fst).Nodup)
    (hfresh : ∀ key ∈ entries.map Prod.fst,
      symtableKey key ∉ val.map Prod.fst) :
    handlebarsValueMapToZval val entries = val ++ entries.map fun entry =>
      (symtableKey entry.1, handlebarsValueToZval entry.2) := by
  induction entries generalizing val with
  | nil => simp [handlebarsValueMapToZval]
  | cons entry rest ih =>
      obtain ⟨key, child⟩ := entry
      simp only [List.map_cons, List.nodup_cons] at hnodup hfresh
      have hkey := hfresh key (by simp)
      have hstep : addAssocZvalEx val key (handlebarsValueToZval child) =
          val ++ [(symtableKey key, handlebarsValueToZval child)] := by
        rw [addAssocZvalEx, zendHashUpdate, if_neg hkey]
      rw [handlebarsValueMapToZval, hstep, ih hnodup.2]
      · simp
      · intro other hother hmem
        rw [List.map_append, List.mem_append] at hmem
        rcases hmem with hmem | hmem
        · exact hfresh other (by simp [hother]) hmem
        · have heq : symtableKey other = symtableKey key := by
            simpa using hmem
          rw [symtableKey_injective heq] at hother
          exact hnodup.1 hother

theorem valueToZval_array (elements : List Value) :
    handlebarsValueToZval (.array elements) =
      .array (indexed (elements.map handlebarsValueToZval)) := by
  have harray := valueArrayToZval_indexed [] elements
  rw [indexed_nil, List.nil_append] at harray
  rw [handlebarsValueToZval, harray]

theorem valueToZval_map {entries : List (Bytes × Value)}
    (hnodup : (entries.map Prod.fst).Nodup) :
    handlebarsValueToZval (.map entries) =
      .array (entries.map fun entry =>
        (symtableKey entry.1, handlebarsValueToZval entry.2)) := by
  rw [handlebarsValueToZval, valueMapToZval_append hnodup (by simp)]
  rfl

end PhpHandlebars
