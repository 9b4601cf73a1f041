import PhpHandlebars.EventRun
import PhpHandlebars.PhpArray
import Mathlib.Logic.Function.Basic
import Mathlib.Tactic

/-!
# Value slots and the cells behind them

A value of the library lies in a slot.  PHP arrays and objects are not copied
into it: the slot points to a cell which holds them, and a copy of the slot
points to the same cell.  `set_intern_zval` writes into the cell a slot points
to already.
-/

namespace PhpHandlebars

/-- A PHP value which is wrapped and not copied. -/
structure WrappedZval where
  zval : Zval
  wraps : zval.zType = .isArray ∨ zval.zType = .isObject

/-- `struct handlebars_zval`: `none` stands for NULL, and for -1 in the two
caches.  Of `fcc` it is the object which a call through it goes to. -/
structure Cell where
  ctx : Option ℕ
  callable : Option Bool
  intArray : Option Bool
  fcc : Option ℕ
  intern : WrappedZval

inductive Slot where
  | null
  | boolean (value : Bool)
  | integer (number : ℤ)
  | float (bits : UInt64)
  | string (value : Bytes)
  | array (elements : List Slot)
  | map (entries : List (Bytes × Slot))
  | user (cell : ℕ)
  | closure
  | ptr
  | helper

structure Heap where
  cells : ℕ → Cell
  size : ℕ

/-- A library error with the context it is raised on. -/
structure RaisedOn where
  context : Option ℕ
  error : LibError

def Heap.empty : Heap where
  cells := fun _ => ⟨none, none, none, none, ⟨.array [], .inl rfl⟩⟩
  size := 0

def Heap.store (heap : Heap) (cell : ℕ) (content : Cell) : Heap :=
  { heap with cells := Function.update heap.cells cell content }

/-- `handlebars_talloc_zero` leaves `user.ctx` NULL, and nothing sets it
afterwards.  A cell which is written again keeps its `fcc`. -/
def Heap.setInternZval (heap : Heap) (slot : Slot) (val : WrappedZval) :
    Heap × Slot :=
  match slot with
  | .user cell =>
      (heap.store cell { heap.cells cell with
        callable := none, intArray := none, intern := val }, slot)
  | _ =>
      ({ heap.store heap.size ⟨none, none, none, none, val⟩ with
        size := heap.size + 1 }, .user heap.size)

/-- `handlebars_value_from_zval` on a slot. -/
def Heap.valueFromZval (heap : Heap) (context : Option ℕ) (val : Zval)
    (rv : Slot) : Except RaisedOn (Heap × Slot) :=
  match val with
  | .undef => .ok (heap, rv)
  | .null => .ok (heap, rv)
  | .true => .ok (heap, .boolean true)
  | .false => .ok (heap, .boolean false)
  | .double bits => .ok (heap, .float bits)
  | .long number => .ok (heap, .integer number)
  | .string value => .ok (heap, .string value)
  | .object handle =>
      .ok (heap.setInternZval rv ⟨.object handle, .inr rfl⟩)
  | .array buckets =>
      .ok (heap.setInternZval rv ⟨.array buckets, .inl rfl⟩)
  | val => .error ⟨context, unimplementedConversion val.zType⟩

/-! ## What a slot denotes -/

mutual

def Slot.denote (heap : Heap) : Slot → Value
  | .null => .null
  | .boolean value => .boolean value
  | .integer number => .integer number
  | .float bits => .float bits
  | .string value => .string value
  | .array elements => .array (denoteElements heap elements)
  | .map entries => .map (denoteEntries heap entries)
  | .user cell => .user (heap.cells cell).intern.zval
  | .closure => .closure
  | .ptr => .ptr
  | .helper => .helper

def denoteElements (heap : Heap) : List Slot → List Value
  | [] => []
  | child :: rest => child.denote heap :: denoteElements heap rest

def denoteEntries (heap : Heap) : List (Bytes × Slot) → List (Bytes × Value)
  | [] => []
  | (key, child) :: rest =>
      (key, child.denote heap) :: denoteEntries heap rest

end

mutual

/-- The cells a slot points to, at any depth. -/
def Slot.cells : Slot → List ℕ
  | .array elements => cellsOfElements elements
  | .map entries => cellsOfEntries entries
  | .user cell => [cell]
  | _ => []

def cellsOfElements : List Slot → List ℕ
  | [] => []
  | child :: rest => child.cells ++ cellsOfElements rest

def cellsOfEntries : List (Bytes × Slot) → List ℕ
  | [] => []
  | (_, child) :: rest => child.cells ++ cellsOfEntries rest

end

mutual

/-- A slot denotes the same in heaps which agree on its cells. -/
theorem Slot.denote_congr {heap heap' : Heap} : ∀ (slot : Slot),
    (∀ cell ∈ slot.cells, (heap'.cells cell).intern.zval =
      (heap.cells cell).intern.zval) → slot.denote heap' = slot.denote heap
  | .array elements, hcells => by
      rw [Slot.denote, Slot.denote, denoteElements_congr elements
        (by simpa [Slot.cells] using hcells)]
  | .map entries, hcells => by
      rw [Slot.denote, Slot.denote, denoteEntries_congr entries
        (by simpa [Slot.cells] using hcells)]
  | .user cell, hcells => by
      rw [Slot.denote, Slot.denote, hcells cell (by simp [Slot.cells])]
  | .null, _ => rfl
  | .boolean _, _ => rfl
  | .integer _, _ => rfl
  | .float _, _ => rfl
  | .string _, _ => rfl
  | .closure, _ => rfl
  | .ptr, _ => rfl
  | .helper, _ => rfl

theorem denoteElements_congr {heap heap' : Heap} : ∀ (elements : List Slot),
    (∀ cell ∈ cellsOfElements elements, (heap'.cells cell).intern.zval =
      (heap.cells cell).intern.zval) →
      denoteElements heap' elements = denoteElements heap elements
  | [], _ => rfl
  | child :: rest, hcells => by
      simp only [cellsOfElements, List.mem_append] at hcells
      rw [denoteElements, denoteElements,
        child.denote_congr fun cell hcell => hcells cell (.inl hcell),
        denoteElements_congr rest fun cell hcell => hcells cell (.inr hcell)]

theorem denoteEntries_congr {heap heap' : Heap} :
    ∀ (entries : List (Bytes × Slot)),
    (∀ cell ∈ cellsOfEntries entries, (heap'.cells cell).intern.zval =
      (heap.cells cell).intern.zval) →
      denoteEntries heap' entries = denoteEntries heap entries
  | [], _ => rfl
  | (key, child) :: rest, hcells => by
      simp only [cellsOfEntries, List.mem_append] at hcells
      rw [denoteEntries, denoteEntries,
        child.denote_congr fun cell hcell => hcells cell (.inl hcell),
        denoteEntries_congr rest fun cell hcell => hcells cell (.inr hcell)]

end

/-! ## One conversion -/

theorem setInternZval_denote (heap : Heap) (slot : Slot)
    (val : WrappedZval) :
    (heap.setInternZval slot val).2.denote (heap.setInternZval slot val).1 =
      .user val.zval := by
  cases slot <;>
    simp [Heap.setInternZval, Heap.store, Slot.denote, Function.update_self]

/-- Another slot is not affected, unless it shares the cell which is
written. -/
theorem setInternZval_denote_other {heap : Heap} {slot other : Slot}
    {val : WrappedZval} (hallocated : ∀ cell ∈ other.cells, cell < heap.size)
    (hshared : ∀ cell, slot = .user cell → cell ∈ other.cells →
      (heap.cells cell).intern.zval = val.zval) :
    other.denote (heap.setInternZval slot val).1 = other.denote heap := by
  apply Slot.denote_congr
  intro cell hcell
  have hbound := hallocated cell hcell
  cases slot with
  | user shared =>
      by_cases heq : cell = shared
      · subst shared
        simp [Heap.setInternZval, Heap.store, hshared cell rfl hcell]
      · simp [Heap.setInternZval, Heap.store, heq]
  | _ =>
      have hne : cell ≠ heap.size := by omega
      simp [Heap.setInternZval, Heap.store, hne]

/-- On a slot, `handlebars_value_from_zval` does what it does on the value
denoted. -/
theorem valueFromZval_denote (heap : Heap) (context : Option ℕ) (val : Zval)
    (rv : Slot) :
    (heap.valueFromZval context val rv).map (fun out => out.2.denote out.1) =
      (handlebarsValueFromZval val (rv.denote heap)).mapError fun error =>
        ⟨context, error⟩ := by
  cases val with
  | object handle =>
      simp [Heap.valueFromZval, handlebarsValueFromZval, Except.map,
        Except.mapError, setInternZval_denote]
  | array buckets =>
      simp [Heap.valueFromZval, handlebarsValueFromZval, Except.map,
        Except.mapError, setInternZval_denote]
  | _ => rfl

theorem valueFromZval_ok_denote {heap heap' : Heap} {context : Option ℕ}
    {val : Zval} {rv rv' : Slot}
    (hconvert : heap.valueFromZval context val rv = .ok (heap', rv')) :
    handlebarsValueFromZval val (rv.denote heap) =
      .ok (rv'.denote heap') := by
  have hdenote := valueFromZval_denote heap context val rv
  rw [hconvert] at hdenote
  cases hvalue : handlebarsValueFromZval val (rv.denote heap) with
  | error error => simp [hvalue, Except.map, Except.mapError] at hdenote
  | ok value =>
      have heq : rv'.denote heap' = value := by
        simpa [hvalue, Except.map, Except.mapError] using hdenote
      rw [heq]

theorem exists_valueFromZval {heap : Heap} {val : Zval} {rv : Slot}
    {value : Value}
    (hvalue : handlebarsValueFromZval val (rv.denote heap) = .ok value)
    (context : Option ℕ) :
    ∃ heap' rv', heap.valueFromZval context val rv = .ok (heap', rv') ∧
      rv'.denote heap' = value := by
  have hdenote := valueFromZval_denote heap context val rv
  cases hconvert : heap.valueFromZval context val rv with
  | error error =>
      simp [hconvert, hvalue, Except.map, Except.mapError] at hdenote
  | ok out =>
      refine ⟨out.1, out.2, rfl, ?_⟩
      simpa [hconvert, hvalue, Except.map, Except.mapError] using hdenote

theorem Slot.denote_eq_user_iff (slot : Slot) (heap : Heap) (intern : Zval) :
    slot.denote heap = .user intern ↔
      ∃ cell, slot = .user cell ∧
        (heap.cells cell).intern.zval = intern := by
  cases slot <;> simp [Slot.denote]

/-- What `handlebars_value_to_zval` makes of a slot. -/
def Slot.toZval (slot : Slot) (heap : Heap) : Zval :=
  handlebarsValueToZval (slot.denote heap)

theorem setInternZval_toZval (heap : Heap) (slot : Slot)
    (val : WrappedZval) :
    (heap.setInternZval slot val).2.toZval (heap.setInternZval slot val).1 =
      val.zval := by
  have hwraps := val.wraps
  rw [Slot.toZval, setInternZval_denote, handlebarsValueToZval]
  cases hzval : val.zval <;>
    simp [hzval, Zval.zType, Zval.deref] at hwraps ⊢

/-- The kinds of slots which `handlebars_value_to_zval` makes null of. -/
def Slot.ReadsNull : Slot → Prop
  | .null | .closure | .ptr | .helper => True
  | _ => False

theorem Slot.toZval_eq_null_iff (slot : Slot) (heap : Heap) :
    slot.toZval heap = .null ↔ slot.ReadsNull := by
  cases slot with
  | boolean value =>
      cases value <;> simp [toZval, denote, handlebarsValueToZval, ReadsNull]
  | user cell =>
      have hwraps := (heap.cells cell).intern.wraps
      simp only [toZval, denote, handlebarsValueToZval, ReadsNull, iff_false]
      cases hzval : (heap.cells cell).intern.zval <;>
        simp [hzval, Zval.zType, Zval.deref] at hwraps ⊢
  | _ => simp [toZval, denote, handlebarsValueToZval, ReadsNull]

/-- The values PHP code can pass on: references and `IS_INDIRECT` slots lead
to one of them. -/
def Zval.Occurs : Zval → Prop
  | .undef | .resource _ => False
  | .reference target => target.Occurs
  | .indirect slot => slot.Occurs
  | _ => True

/-- The conversions after which the slot converts back to the value. -/
theorem value_round_trip_iff (heap : Heap) (context : Option ℕ) (val : Zval)
    (rv : Slot) (hval : val.Occurs) :
    (∃ heap' rv', heap.valueFromZval context val rv = .ok (heap', rv') ∧
        rv'.toZval heap' = val.resolve) ↔
      val.zType ≠ .isReference ∧ val.zType ≠ .isIndirect ∧
        (val.zType = .isNull → rv.ReadsNull) := by
  cases val with
  | undef => exact hval.elim
  | resource handle => exact hval.elim
  | null =>
      simp [Heap.valueFromZval, Zval.zType, Zval.resolve,
        Slot.toZval_eq_null_iff]
  | array buckets =>
      exact iff_of_true ⟨_, _, rfl, setInternZval_toZval heap rv _⟩
        (by simp [Zval.zType])
  | object handle =>
      exact iff_of_true ⟨_, _, rfl, setInternZval_toZval heap rv _⟩
        (by simp [Zval.zType])
  | _ =>
      simp [Heap.valueFromZval, Zval.zType, Zval.resolve, Slot.toZval,
        Slot.denote, handlebarsValueToZval]

/-- `[1, 'a' => null, 7 => []]`, which contains what does not come back
itself. -/
def nestedArray : Zval :=
  .array [(.index 0, .long 1), (.string (ascii "a"), .null),
    (.index 7, .array [])]

theorem array_round_trip :
    ∃ heap' rv', Heap.empty.valueFromZval none nestedArray (.integer 1) =
        .ok (heap', rv') ∧
      rv'.toZval heap' = nestedArray.resolve :=
  (value_round_trip_iff .empty none nestedArray (.integer 1) trivial).mpr
    (by simp [nestedArray, Zval.zType])

/-- Null leaves the slot as it is, and a reference is not converted. -/
theorem null_and_references_lost :
    (¬ ∃ heap' rv', Heap.empty.valueFromZval none .null (.integer 1) =
        .ok (heap', rv') ∧ rv'.toZval heap' = Zval.null.resolve) ∧
      ¬ ∃ heap' rv', Heap.empty.valueFromZval none (.reference (.long 2))
        .null = .ok (heap', rv') ∧
          rv'.toZval heap' = (Zval.reference (.long 2)).resolve := by
  constructor
  · rintro ⟨heap', rv', hconvert, hvalue⟩
    obtain ⟨rfl, rfl⟩ := Prod.mk.inj (Except.ok.inj hconvert)
    simp [Slot.toZval, Slot.denote, handlebarsValueToZval, Zval.resolve]
      at hvalue
  · rintro ⟨heap', rv', hconvert, _⟩
    simp [Heap.valueFromZval] at hconvert

end PhpHandlebars
