import PhpHandlebars.NameLookup
import Mathlib.Tactic

/-!
# Data frames

`Utils::createFrame` merges an array into an empty one and adds the array
itself under `_parent`.  The merge keeps string keys and numbers everything
else anew, in the order of the array.
-/

namespace PhpHandlebars

def parentKey : ArrayKey := .string (ascii "_parent")

/-- `php_array_merge`.  A reference nothing else refers to is replaced by its
value; `sole` says which ones these are. -/
def phpArrayMerge (sole : Zval → Bool) (dest : HashTable) :
    HashTable → HashTable
  | [] => dest
  | (key, srcEntry) :: rest =>
      let entry := if sole srcEntry then srcEntry.deref else srcEntry
      match key with
      | .string name =>
          phpArrayMerge sole (zendHashUpdate dest (.string name) entry) rest
      | .index _ => phpArrayMerge sole (addNextIndexZval dest entry) rest

def phpHandlebarsCreateFrame (sole : Zval → Bool) (value : Zval) : Zval :=
  match value with
  | .array table =>
      .array (addAssocZvalEx (phpArrayMerge sole [] table) (ascii "_parent")
        value)
  | value => .array (addNextIndexZval [] value)

def frames (sole : Zval → Bool) (value : Zval) (level : ℕ) : Zval :=
  (phpHandlebarsCreateFrame sole)^[level] value

def Zval.entry (value : Zval) (key : ArrayKey) : Option Zval :=
  match value with
  | .array table => zendHashLookup table key
  | _ => none

def followParent : ℕ → Zval → Option Zval
  | 0, value => some value
  | count + 1, value => (value.entry parentKey).bind (followParent count)

/-- The parents lead back to the array, and every frame on the way has the
entries of the array and no others, apart from `_parent`. -/
structure FramesInherit (sole : Zval → Bool) (array : PhpArray) (n : ℕ) :
    Prop where
  parents : followParent n (frames sole (.array array.buckets) n) =
    some (.array array.buckets)
  entries : ∀ level, 1 ≤ level → level ≤ n → ∀ key, key ≠ parentKey →
    ((frames sole (.array array.buckets) level).entry key).map Zval.seen =
      (zendHashLookup array.buckets key).map Zval.seen

/-- The values under integer keys, in the order of the array. -/
def integerValues : HashTable → List Zval
  | [] => []
  | (.index _, value) :: rest => value :: integerValues rest
  | (.string _, _) :: rest => integerValues rest

def listed (values : List Zval) (number : ℤ) : Option Zval :=
  if 0 ≤ number then values[number.toNat]? else none

/-- The integer keys are those of a list, and the values stand under them in
the order of the array. -/
def NumberedInOrder (array : PhpArray) : Prop :=
  ∀ number, (zendHashIndexFind array.buckets number).map Zval.seen =
    (listed (integerValues array.buckets) number).map Zval.seen

/-! ## What the merge makes of an array -/

def unwrapped (sole : Zval → Bool) (entry : Zval) : Zval :=
  if sole entry then entry.deref else entry

/-- The buckets with the integer keys numbered from `next` on. -/
def renumbered (sole : Zval → Bool) (next : ℕ) : HashTable → HashTable
  | [] => []
  | (.string name, value) :: rest =>
      (.string name, unwrapped sole value) :: renumbered sole next rest
  | (.index _, value) :: rest =>
      (.index next, unwrapped sole value) :: renumbered sole (next + 1) rest

variable {sole : Zval → Bool}

theorem seen_unwrapped (entry : Zval) :
    (unwrapped sole entry).seen = entry.seen := by
  unfold unwrapped
  split
  next => cases entry <;> rfl
  next => rfl

theorem nextFreeElement_append_string (table : HashTable) (name : Bytes)
    (value : Zval) :
    nextFreeElement (table ++ [(.string name, value)]) =
      nextFreeElement table := by
  simp [nextFreeElement]

theorem nextFreeElement_append_index (table : HashTable) (number : ℤ)
    (value : Zval) :
    nextFreeElement (table ++ [(.index number, value)]) =
      max (nextFreeElement table) (number + 1) := by
  simp [nextFreeElement]

/-- Merging into a table which has none of the string keys appends. -/
theorem phpArrayMerge_eq (dest : HashTable) {table : HashTable} {next : ℕ}
    (hnodup : (table.map Prod.fst).Nodup)
    (hfresh : ∀ name, .string name ∈ table.map Prod.fst →
      .string name ∉ dest.map Prod.fst)
    (hnext : nextFreeElement dest = next) :
    phpArrayMerge sole dest table = dest ++ renumbered sole next table := by
  induction table generalizing dest next with
  | nil => simp [phpArrayMerge, renumbered]
  | cons bucket rest ih =>
      rcases bucket with ⟨key, value⟩
      simp only [List.map_cons, List.nodup_cons] at hnodup hfresh
      cases key with
      | string name =>
          have hnew : .string name ∉ dest.map Prod.fst :=
            hfresh name (by simp)
          have hstep : zendHashUpdate dest (.string name)
              (unwrapped sole value) =
                dest ++ [(.string name, unwrapped sole value)] := by
            rw [zendHashUpdate, if_neg hnew]
          have hrest := ih (dest ++ [(.string name, unwrapped sole value)])
            hnodup.2 ?_
            ((nextFreeElement_append_string dest name _).trans hnext)
          · change phpArrayMerge sole (zendHashUpdate dest (.string name)
              (unwrapped sole value)) rest = _
            rw [hstep, hrest]
            simp [renumbered]
          · intro other hother hmem
            simp only [List.map_append, List.map_cons, List.map_nil,
              List.mem_append, List.mem_singleton] at hmem
            rcases hmem with hold | heq
            · exact hfresh other (by simp [hother]) hold
            · exact hnodup.1 (heq ▸ hother)
      | index number =>
          have hstep : addNextIndexZval dest (unwrapped sole value) =
              dest ++ [(.index next, unwrapped sole value)] := by
            rw [addNextIndexZval, hnext]
          have hcount : nextFreeElement
              (dest ++ [(.index next, unwrapped sole value)]) =
                ((next + 1 : ℕ) : ℤ) := by
            rw [nextFreeElement_append_index, hnext]
            simp
          have hrest := ih (dest ++ [(.index next, unwrapped sole value)])
            hnodup.2 ?_ hcount
          · change phpArrayMerge sole (addNextIndexZval dest
              (unwrapped sole value)) rest = _
            rw [hstep, hrest]
            simp [renumbered]
          · intro other hother hmem
            simp only [List.map_append, List.map_cons, List.map_nil,
              List.mem_append, List.mem_singleton, reduceCtorEq,
              or_false] at hmem
            exact hfresh other (by simp [hother]) hmem

theorem lookup_renumbered_string (next : ℕ) (table : HashTable)
    (name : Bytes) :
    zendHashLookup (renumbered sole next table) (.string name) =
      (zendHashLookup table (.string name)).map (unwrapped sole) := by
  induction table generalizing next with
  | nil => simp [renumbered, zendHashLookup]
  | cons bucket rest ih =>
      rcases bucket with ⟨key, value⟩
      cases key with
      | string other =>
          rw [renumbered, zendHashLookup_cons, zendHashLookup_cons, ih]
          split <;> simp
      | index number =>
          rw [renumbered, zendHashLookup_cons, zendHashLookup_cons, ih]
          simp

theorem lookup_renumbered_index (next : ℕ) (table : HashTable) (number : ℤ) :
    zendHashLookup (renumbered sole next table) (.index number) =
      (listed (integerValues table) (number - next)).map
        (unwrapped sole) := by
  induction table generalizing next with
  | nil => simp [renumbered, zendHashLookup, integerValues, listed]
  | cons bucket rest ih =>
      rcases bucket with ⟨key, value⟩
      cases key with
      | string other =>
          rw [renumbered, zendHashLookup_cons, ih, integerValues]
          simp
      | index old =>
          rw [renumbered, zendHashLookup_cons, ih, integerValues]
          by_cases heq : number = next
          · subst heq
            simp [listed]
          · have hne : ArrayKey.index next ≠ .index number := by
              simpa using Ne.symm heq
            rw [if_neg hne]
            congr 1
            unfold listed
            by_cases hlt : (0 : ℤ) ≤ number - next
            · have hpred : 0 ≤ number - ((next + 1 : ℕ) : ℤ) := by
                omega
              have hsucc : (number - next).toNat =
                  (number - ((next + 1 : ℕ) : ℤ)).toNat + 1 := by
                omega
              rw [if_pos hlt, if_pos hpred, hsucc, List.getElem?_cons_succ]
            · rw [if_neg hlt, if_neg (by omega)]

theorem integerValues_renumbered (next : ℕ) (table : HashTable) :
    integerValues (renumbered sole next table) =
      (integerValues table).map (unwrapped sole) := by
  induction table generalizing next with
  | nil => rfl
  | cons bucket rest ih =>
      rcases bucket with ⟨key, value⟩
      cases key <;> simp [renumbered, integerValues, ih]

theorem renumbered_keys_nodup {next : ℕ} {table : HashTable}
    (hnodup : (table.map Prod.fst).Nodup) :
    ((renumbered sole next table).map Prod.fst).Nodup := by
  induction table generalizing next with
  | nil => simp [renumbered]
  | cons bucket rest ih =>
      rcases bucket with ⟨key, value⟩
      simp only [List.map_cons, List.nodup_cons] at hnodup
      cases key with
      | string name =>
          have hkey : .string name ∉
              (renumbered sole next rest).map Prod.fst := by
            rw [← zendHashLookup_isSome_iff, lookup_renumbered_string,
              zendHashLookup_of_not_mem hnodup.1]
            simp
          exact List.nodup_cons.mpr ⟨hkey, ih hnodup.2⟩
      | index number =>
          have hkey : .index next ∉
              (renumbered sole (next + 1) rest).map Prod.fst := by
            rw [← zendHashLookup_isSome_iff, lookup_renumbered_index, listed,
              if_neg (by omega)]
            simp
          exact List.nodup_cons.mpr ⟨hkey, ih hnodup.2⟩

/-! ## One frame -/

def frameTable (sole : Zval → Bool) (table : HashTable) : HashTable :=
  zendHashUpdate (renumbered sole 0 table) parentKey (.array table)

theorem createFrame_array {table : HashTable}
    (hnodup : (table.map Prod.fst).Nodup) :
    phpHandlebarsCreateFrame sole (.array table) =
      .array (frameTable sole table) := by
  have hkey : symtableKey (ascii "_parent") = parentKey := by decide
  have hmerge : phpArrayMerge sole [] table =
      [] ++ renumbered sole 0 table :=
    phpArrayMerge_eq [] hnodup (by simp) rfl
  rw [phpHandlebarsCreateFrame, hmerge, addAssocZvalEx, hkey]
  rfl

theorem frameTable_keys_nodup {table : HashTable}
    (hnodup : (table.map Prod.fst).Nodup) :
    ((frameTable sole table).map Prod.fst).Nodup :=
  zendHashUpdate_keys_nodup (renumbered_keys_nodup hnodup) _ _

theorem frameTable_parent (table : HashTable) :
    zendHashLookup (frameTable sole table) parentKey =
      some (.array table) := by
  rw [frameTable, zendHashLookup_update, if_pos rfl]

theorem frameTable_string (table : HashTable) {name : Bytes}
    (hname : .string name ≠ parentKey) :
    (zendHashLookup (frameTable sole table) (.string name)).map Zval.seen =
      (zendHashLookup table (.string name)).map Zval.seen := by
  rw [frameTable, zendHashLookup_update, if_neg hname,
    lookup_renumbered_string, Option.map_map]
  congr 1
  funext entry
  exact seen_unwrapped entry

theorem frameTable_index (table : HashTable) (number : ℤ) :
    (zendHashLookup (frameTable sole table) (.index number)).map Zval.seen =
      (listed (integerValues table) number).map Zval.seen := by
  have hne : ArrayKey.index number ≠ parentKey := by simp [parentKey]
  rw [frameTable, zendHashLookup_update, if_neg hne, lookup_renumbered_index,
    Option.map_map, Nat.cast_zero, sub_zero]
  congr 1
  funext entry
  exact seen_unwrapped entry

theorem integerValues_overwrite (table : HashTable) (name : Bytes)
    (value : Zval) :
    integerValues (table.map fun bucket =>
      if bucket.1 = .string name then (.string name, value) else bucket) =
        integerValues table := by
  induction table with
  | nil => rfl
  | cons bucket rest ih =>
      rcases bucket with ⟨key, old⟩
      cases key with
      | index number => simp [integerValues, ih]
      | string other =>
          by_cases heq : other = name <;> simp [integerValues, heq, ih]

theorem integerValues_append_string (table : HashTable) (name : Bytes)
    (value : Zval) :
    integerValues (table ++ [(.string name, value)]) =
      integerValues table := by
  induction table with
  | nil => rfl
  | cons bucket rest ih =>
      rcases bucket with ⟨key, old⟩
      cases key <;> simp [integerValues, ih]

theorem integerValues_frameTable (table : HashTable) :
    (integerValues (frameTable sole table)).map Zval.seen =
      (integerValues table).map Zval.seen := by
  have hupdate : integerValues (frameTable sole table) =
      integerValues (renumbered sole 0 table) := by
    unfold frameTable zendHashUpdate
    split
    next => exact integerValues_overwrite _ _ _
    next => exact integerValues_append_string _ _ _
  rw [hupdate, integerValues_renumbered, List.map_map]
  apply List.map_congr_left
  intro entry _
  exact seen_unwrapped entry

/-! ## Frames of frames -/

structure FrameOver (array : PhpArray) (table : HashTable) : Prop where
  nodup : (table.map Prod.fst).Nodup
  strings : ∀ name, .string name ≠ parentKey →
    (zendHashLookup table (.string name)).map Zval.seen =
      (zendHashLookup array.buckets (.string name)).map Zval.seen
  integers : (integerValues table).map Zval.seen =
    (integerValues array.buckets).map Zval.seen

theorem FrameOver.start (array : PhpArray) :
    FrameOver array array.buckets :=
  ⟨array.nodup, fun _ _ => rfl, rfl⟩

theorem FrameOver.step {array : PhpArray} {table : HashTable}
    (hframe : FrameOver array table) :
    FrameOver array (frameTable sole table) where
  nodup := frameTable_keys_nodup hframe.nodup
  strings := fun name hname =>
    (frameTable_string table hname).trans (hframe.strings name hname)
  integers := (integerValues_frameTable table).trans hframe.integers

def frameTables (sole : Zval → Bool) (table : HashTable) : ℕ → HashTable
  | 0 => table
  | level + 1 => frameTable sole (frameTables sole table level)

theorem frames_over (sole : Zval → Bool) (array : PhpArray) (level : ℕ) :
    frames sole (.array array.buckets) level =
        .array (frameTables sole array.buckets level) ∧
      FrameOver array (frameTables sole array.buckets level) := by
  induction level with
  | zero => exact ⟨rfl, .start array⟩
  | succ level ih =>
      refine ⟨?_, ih.2.step⟩
      have hframes : frames sole (.array array.buckets) (level + 1) =
          phpHandlebarsCreateFrame sole
            (frames sole (.array array.buckets) level) :=
        Function.iterate_succ_apply' _ _ _
      rw [hframes, ih.1, createFrame_array ih.2.nodup]
      rfl

theorem followParent_frames (sole : Zval → Bool) (array : PhpArray)
    (level : ℕ) :
    followParent level (frames sole (.array array.buckets) level) =
      some (.array array.buckets) := by
  induction level with
  | zero => rfl
  | succ level ih =>
      have hparent : (frames sole (.array array.buckets) (level + 1)).entry
          parentKey = some (frames sole (.array array.buckets) level) := by
        rw [(frames_over sole array (level + 1)).1,
          (frames_over sole array level).1]
        exact frameTable_parent _
      rw [followParent, hparent, Option.bind_some, ih]

theorem listed_map (values : List Zval) (number : ℤ) (f : Zval → Zval) :
    (listed values number).map f = listed (values.map f) number := by
  unfold listed
  split <;> simp

theorem frames_index (sole : Zval → Bool) (array : PhpArray) (level : ℕ)
    (number : ℤ) :
    ((frames sole (.array array.buckets) (level + 1)).entry
        (.index number)).map Zval.seen =
      (listed (integerValues array.buckets) number).map Zval.seen := by
  have hover := (frames_over sole array level).2
  rw [(frames_over sole array (level + 1)).1]
  change (zendHashLookup (frameTable sole
    (frameTables sole array.buckets level)) (.index number)).map _ = _
  rw [frameTable_index, listed_map, listed_map, hover.integers]

/-- The arrays whose frames have the same entries: only those with integer
keys are told apart by the merge. -/
theorem frames_inherit_iff (sole : Zval → Bool) (array : PhpArray) {n : ℕ}
    (hn : 1 ≤ n) :
    FramesInherit sole array n ↔ NumberedInOrder array := by
  constructor
  · intro hinherit number
    have hentry := hinherit.entries 1 (Nat.le_refl 1) hn (.index number)
      (by simp [parentKey])
    exact hentry.symm.trans (frames_index sole array 0 number)
  · intro hordered
    constructor
    case parents => exact followParent_frames sole array n
    case entries =>
      intro level hlevel _ key hkey
      obtain ⟨level, rfl⟩ := Nat.exists_eq_add_of_le' hlevel
      cases key with
      | string name =>
          rw [(frames_over sole array (level + 1)).1]
          exact (frames_over sole array (level + 1)).2.strings name hkey
      | index number =>
          rw [frames_index]
          exact (hordered number).symm

def namedAndListed : PhpArray where
  buckets := [(.string (ascii "a"), .long 1), (.index 0, .long 2)]
  nodup := by simp
  stored := by
    intro key hkey
    simp only [List.map_cons, List.map_nil, List.mem_cons,
      List.not_mem_nil, or_false] at hkey
    rcases hkey with rfl | rfl
    · change symtableKey (ascii "a") = .string (ascii "a")
      decide
    · simp [ArrayKey.Stored, longMin, longMax]

theorem namedAndListed_numberedInOrder : NumberedInOrder namedAndListed := by
  intro number
  by_cases hzero : number = 0
  · subst hzero
    rfl
  · have hleft : zendHashIndexFind namedAndListed.buckets number = none := by
      apply zendHashLookup_of_not_mem
      simp [namedAndListed, hzero]
    have hright : listed (integerValues namedAndListed.buckets) number =
        none := by
      unfold listed
      split
      next hnonneg =>
        have hlength : (integerValues namedAndListed.buckets).length ≤
            number.toNat := by
          simp only [namedAndListed, integerValues, List.length_cons,
            List.length_nil]
          omega
        exact List.getElem?_eq_none hlength
      next => rfl
    rw [hleft, hright]

theorem frames_inherit_twice :
    FramesInherit (fun _ => false) namedAndListed 2 :=
  (frames_inherit_iff (fun _ => false) namedAndListed (by decide)).mpr
    namedAndListed_numberedInOrder

def atFive : PhpArray where
  buckets := [(.index 5, .long 1)]
  nodup := by simp
  stored := by simp [ArrayKey.Stored, longMin, longMax]

/-- The element under 5 is under 0 in the frame. -/
theorem frame_renumbers_keys :
    ¬ FramesInherit (fun _ => false) atFive 1 := by
  intro hinherit
  have hentry := hinherit.entries 1 (Nat.le_refl 1) (Nat.le_refl 1) (.index 5)
    (by decide)
  have hframe : (frames (fun _ => false) (.array atFive.buckets) 1).entry
      (.index 5) = none := rfl
  have harray : zendHashLookup atFive.buckets (.index 5) =
      some (.long 1) := rfl
  rw [hframe, harray] at hentry
  simp at hentry

end PhpHandlebars
