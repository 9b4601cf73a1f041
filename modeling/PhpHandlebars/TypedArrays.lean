import PhpHandlebars.Branching
import PhpHandlebars.PhpArray
import Mathlib.Tactic

/-!
# Arrays with a type

The arrays inside a PHP value which have a `type` entry span a tree: the
children of one are the nearest ones inside it.
-/

namespace PhpHandlebars

def typeKey : ArrayKey := .string (ascii "type")

def HasType (table : HashTable) : Prop :=
  typeKey ∈ table.map Prod.fst

instance (table : HashTable) : Decidable (HasType table) :=
  inferInstanceAs (Decidable (_ ∈ _))

mutual

/-- Every array with a type, at any depth. -/
def typedArrays : Zval → List HashTable
  | .array buckets =>
      if HasType buckets then buckets :: typedArraysIn buckets
      else typedArraysIn buckets
  | _ => []

def typedArraysIn : HashTable → List HashTable
  | [] => []
  | (_, value) :: rest => typedArrays value ++ typedArraysIn rest

end

mutual

/-- The outermost arrays with a type. -/
def nearestTyped : Zval → List HashTable
  | .array buckets =>
      if HasType buckets then [buckets] else nearestTypedIn buckets
  | _ => []

def nearestTypedIn : HashTable → List HashTable
  | [] => []
  | (_, value) :: rest => nearestTyped value ++ nearestTypedIn rest

end

theorem nearestTypedIn_eq (table : HashTable) :
    nearestTypedIn table = table.flatMap fun bucket => nearestTyped bucket.2 := by
  induction table with
  | nil => rfl
  | cons bucket rest ih =>
      rw [List.flatMap_cons, ← ih]
      rfl

mutual

/-- Every array with a type is an outermost one or inside one. -/
theorem typedArrays_eq : ∀ value, typedArrays value =
    (nearestTyped value).flatMap fun table => table :: typedArraysIn table
  | .array buckets => by
      have hinside := typedArraysIn_eq buckets
      by_cases htype : HasType buckets
      · simp [typedArrays, nearestTyped, htype]
      · simp only [typedArrays, nearestTyped, htype, if_false, hinside]
  | .undef | .null | .false | .true | .long _ | .double _ | .string _
  | .object _ | .resource _ | .reference _ | .indirect _ => by
      simp [typedArrays, nearestTyped]

theorem typedArraysIn_eq : ∀ table, typedArraysIn table =
    (nearestTypedIn table).flatMap fun inner => inner :: typedArraysIn inner
  | [] => rfl
  | (_, value) :: rest => by
      rw [typedArraysIn, nearestTypedIn, List.flatMap_append,
        ← typedArrays_eq value, ← typedArraysIn_eq rest]

end

theorem typedArraysIn_length_lt {table child : HashTable}
    (hchild : child ∈ nearestTypedIn table) :
    (typedArraysIn child).length < (typedArraysIn table).length := by
  rw [typedArraysIn_eq table]
  have hsub : (child :: typedArraysIn child).Sublist
      ((nearestTypedIn table).flatMap fun inner =>
        inner :: typedArraysIn inner) := by
    rw [List.flatMap_def]
    apply List.sublist_flatten_of_mem
    exact List.mem_map_of_mem hchild
  have hlength := hsub.length_le
  rw [List.length_cons] at hlength
  omega

def typedBranching : Branching HashTable where
  children := nearestTypedIn
  size := fun table => (typedArraysIn table).length
  size_lt := fun _ _ hchild => typedArraysIn_length_lt hchild

/-- The labels of the tree are the arrays with a type. -/
theorem labels_typedTree (table : HashTable) :
    (typedBranching.tree table).labels = table :: typedArraysIn table := by
  induction hsize : (typedArraysIn table).length using
      Nat.strong_induction_on generalizing table with
  | h size ih =>
      rw [Branching.labels_tree, typedArraysIn_eq table]
      congr 1
      apply List.flatMap_congr
      intro child hchild
      have hlt := typedArraysIn_length_lt hchild
      exact ih _ (hsize ▸ hlt) child rfl

/-! ## Arrays made field by field -/

/-- A field which is written unless it is NULL. -/
def addField (current : HashTable) (field : Bytes × Option Zval) : HashTable :=
  match field.2 with
  | some value => addAssocZvalEx current field.1 value
  | none => current

def addFields (current : HashTable) (fields : List (Bytes × Option Zval)) :
    HashTable :=
  fields.foldl addField current

def fieldBucket (field : Bytes × Option Zval) : Option (ArrayKey × Zval) :=
  field.2.map fun value => (symtableKey field.1, value)

/-- Fields of different names stand in the array one after another. -/
theorem addFields_eq {current : HashTable}
    {fields : List (Bytes × Option Zval)}
    (hnodup : (fields.map Prod.fst).Nodup)
    (hfresh : ∀ name ∈ fields.map Prod.fst,
      symtableKey name ∉ current.map Prod.fst) :
    addFields current fields = current ++ fields.filterMap fieldBucket := by
  induction fields generalizing current with
  | nil => simp [addFields]
  | cons field rest ih =>
      obtain ⟨name, slot⟩ := field
      rw [List.map_cons, List.nodup_cons] at hnodup
      have hkey := hfresh name (by simp)
      cases slot with
      | none =>
          have hrest : addFields current rest =
              current ++ rest.filterMap fieldBucket :=
            ih hnodup.2 fun other hother =>
              hfresh other (List.mem_cons_of_mem name hother)
          exact hrest
      | some value =>
          have hstep : addField current (name, some value) =
              current ++ [(symtableKey name, value)] := by
            simp only [addField, addAssocZvalEx, zendHashUpdate, if_neg hkey]
          change addFields (addField current (name, some value)) rest = _
          rw [hstep, ih hnodup.2]
          · simp [fieldBucket]
          · intro other hother hmem
            rw [List.map_append, List.mem_append] at hmem
            rcases hmem with hold | hnew
            · exact hfresh other (List.mem_cons_of_mem name hother) hold
            · have heq : symtableKey other = symtableKey name := by
                simpa using hnew
              rw [symtableKey_injective heq] at hother
              exact hnodup.1 hother

theorem bucket_not_mem {name : Bytes} {fields : List (Bytes × Option Zval)}
    (hname : name ∉ fields.map Prod.fst) (value : Zval) :
    (symtableKey name, value) ∉ fields.filterMap fieldBucket := by
  intro hbucket
  obtain ⟨⟨other, slot⟩, hfield, hslot⟩ := List.mem_filterMap.mp hbucket
  cases slot with
  | none => simp [fieldBucket] at hslot
  | some inner =>
      have hkey : symtableKey other = symtableKey name :=
        congrArg Prod.fst (Option.some.inj hslot)
      rw [symtableKey_injective hkey] at hfield
      exact hname (List.mem_map_of_mem hfield)

/-- Which fields are written, and with what, can be told from the array. -/
theorem addFields_eq_iff {fields fields' : List (Bytes × Option Zval)}
    (hnames : fields.map Prod.fst = fields'.map Prod.fst)
    (hnodup : (fields.map Prod.fst).Nodup) :
    addFields [] fields = addFields [] fields' ↔ fields = fields' := by
  rw [addFields_eq hnodup (by simp), addFields_eq (hnames ▸ hnodup) (by simp),
    List.nil_append, List.nil_append]
  induction fields generalizing fields' with
  | nil => simp [List.map_eq_nil_iff.mp hnames.symm]
  | cons field rest ih =>
      obtain ⟨name, slot⟩ := field
      cases fields' with
      | nil => simp at hnames
      | cons field' rest' =>
          obtain ⟨name', slot'⟩ := field'
          obtain ⟨hname, hrest⟩ := List.cons.inj hnames
          dsimp only at hname
          subst hname
          obtain ⟨hfresh, hnodup⟩ := List.nodup_cons.mp hnodup
          have hih := ih hrest hnodup
          have hfresh' : name ∉ rest'.map Prod.fst := hrest ▸ hfresh
          cases slot with
          | none =>
              cases slot' with
              | none =>
                  rw [List.filterMap_cons_none rfl, List.filterMap_cons_none rfl,
                    hih, List.cons_inj_right]
              | some value' =>
                  apply iff_of_false
                  · intro heq
                    apply bucket_not_mem hfresh value'
                    simp only [List.filterMap_cons, fieldBucket,
                      Option.map_none, Option.map_some] at heq
                    exact heq ▸ List.mem_cons_self
                  · simp
          | some value =>
              cases slot' with
              | none =>
                  apply iff_of_false
                  · intro heq
                    apply bucket_not_mem hfresh' value
                    simp only [List.filterMap_cons, fieldBucket,
                      Option.map_none, Option.map_some] at heq
                    exact heq ▸ List.mem_cons_self
                  · simp
              | some value' => simp [fieldBucket, hih]

def fieldTyped (field : Bytes × Option Zval) : List HashTable :=
  field.2.elim [] nearestTyped

theorem nearestTypedIn_addFields {fields : List (Bytes × Option Zval)}
    (hnodup : (fields.map Prod.fst).Nodup) :
    nearestTypedIn (addFields [] fields) = fields.flatMap fieldTyped := by
  rw [addFields_eq hnodup (by simp), List.nil_append, nearestTypedIn_eq]
  clear hnodup
  induction fields with
  | nil => rfl
  | cons field rest ih =>
      obtain ⟨name, slot⟩ := field
      cases slot with
      | none => exact ih
      | some value =>
          rw [List.flatMap_cons, ← ih]
          rfl

/-- An array made of fields has a type when one of them is named so. -/
theorem hasType_addFields_iff {fields : List (Bytes × Option Zval)}
    (hnodup : (fields.map Prod.fst).Nodup) :
    HasType (addFields [] fields) ↔
      ∃ value, (ascii "type", some value) ∈ fields := by
  have hkey : symtableKey (ascii "type") = typeKey := by decide
  unfold HasType
  rw [addFields_eq hnodup (by simp), List.nil_append, List.mem_map]
  constructor
  · rintro ⟨bucket, hbucket, htype⟩
    rw [List.mem_filterMap] at hbucket
    obtain ⟨⟨name, slot⟩, hfield, hslot⟩ := hbucket
    cases slot with
    | none => simp [fieldBucket] at hslot
    | some value =>
        have hname : symtableKey name = symtableKey (ascii "type") := by
          rw [hkey, ← htype, ← Option.some.inj hslot]
        rw [symtableKey_injective hname] at hfield
        exact ⟨value, hfield⟩
  · rintro ⟨value, hfield⟩
    use (typeKey, value)
    constructor
    · rw [List.mem_filterMap]
      exact ⟨_, hfield, by simp [fieldBucket, hkey]⟩
    · rfl

theorem nearestTyped_indexed (values : List Zval) :
    nearestTyped (.array (indexed values)) = values.flatMap nearestTyped := by
  have huntyped : ¬HasType (indexed values) := by
    simp [HasType, typeKey, indexed]
  rw [nearestTyped, if_neg huntyped, nearestTypedIn_eq]
  unfold indexed
  rw [List.flatMap_map]
  have hvalues : (values.zipIdx.map Prod.fst).flatMap nearestTyped =
      values.flatMap nearestTyped := by
    rw [List.zipIdx_map_fst]
  rw [← hvalues, List.flatMap_map]

/-! ## Arrays without a type -/

/-- Neither the array nor anything inside it has a type. -/
structure Untyped (table : HashTable) : Prop where
  keys : ∀ bucket ∈ table, bucket.1 ≠ typeKey
  values : ∀ bucket ∈ table, nearestTyped bucket.2 = []

theorem untyped_nil : Untyped [] where
  keys := by simp
  values := by simp

theorem Untyped.nearestTyped {table : HashTable} (huntyped : Untyped table) :
    nearestTyped (.array table) = [] := by
  have hno : ¬HasType table := by
    intro htype
    obtain ⟨bucket, hbucket, hkey⟩ := List.mem_map.mp htype
    exact huntyped.keys bucket hbucket hkey
  rw [PhpHandlebars.nearestTyped, if_neg hno, nearestTypedIn_eq,
    List.flatMap_eq_nil_iff]
  exact huntyped.values

theorem mem_zendHashUpdate {table : HashTable} {key : ArrayKey} {value : Zval}
    {bucket : ArrayKey × Zval} (hbucket : bucket ∈ zendHashUpdate table key value) :
    bucket ∈ table ∨ bucket = (key, value) := by
  unfold zendHashUpdate at hbucket
  split at hbucket
  · obtain ⟨old, hold, hnew⟩ := List.mem_map.mp hbucket
    by_cases hkey : old.1 = key
    · rw [if_pos hkey] at hnew
      exact .inr hnew.symm
    · rw [if_neg hkey] at hnew
      exact .inl (hnew ▸ hold)
  · simpa using hbucket

theorem Untyped.addAssoc {table : HashTable} (huntyped : Untyped table)
    {name : Bytes} (hname : name ≠ ascii "type") {value : Zval}
    (hvalue : PhpHandlebars.nearestTyped value = []) :
    Untyped (addAssocZvalEx table name value) where
  keys := by
    intro bucket hbucket
    rcases mem_zendHashUpdate hbucket with hold | rfl
    · exact huntyped.keys bucket hold
    · have hkey : symtableKey (ascii "type") = typeKey := by decide
      rw [← hkey]
      exact symtableKey_injective.ne hname
  values := by
    intro bucket hbucket
    rcases mem_zendHashUpdate hbucket with hold | rfl
    · exact huntyped.values bucket hold
    · exact hvalue

end PhpHandlebars
