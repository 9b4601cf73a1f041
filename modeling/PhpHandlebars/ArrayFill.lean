import Mathlib.Data.List.Basic
import Mathlib.Tactic

/-!
# Arrays filled from the front

An allocated array, and a cursor which moves on by one slot with each store.
The stores are kept, so that it can be said which of them are within the array
and how often each slot is written.
-/

structure ArrayFill (α : Type) where
  slots : ℕ
  next : ℕ
  stores : List (ℕ × α)

namespace ArrayFill

variable {α : Type}

def allocate (slots : ℕ) : ArrayFill α where
  slots := slots
  next := 0
  stores := []

/-- `array[next++] = value`. -/
def store (fill : ArrayFill α) (value : α) : ArrayFill α :=
  { fill with
    next := fill.next + 1
    stores := fill.stores ++ [(fill.next, value)] }

def storeAll (fill : ArrayFill α) (values : List α) : ArrayFill α :=
  values.foldl store fill

def stored (fill : ArrayFill α) : List α :=
  fill.stores.map Prod.snd

def InBounds (fill : ArrayFill α) : Prop :=
  ∀ entry ∈ fill.stores, entry.1 < fill.slots

/-- Every slot is written, once, from the first to the last. -/
def FilledOnce (fill : ArrayFill α) : Prop :=
  fill.stores.map Prod.fst = List.range fill.slots

instance (fill : ArrayFill α) : Decidable fill.InBounds :=
  inferInstanceAs (Decidable (∀ entry ∈ fill.stores, _))

instance (fill : ArrayFill α) : Decidable fill.FilledOnce :=
  inferInstanceAs (Decidable (_ = _))

@[simp] theorem storeAll_nil (fill : ArrayFill α) : fill.storeAll [] = fill :=
  rfl

@[simp] theorem storeAll_cons (fill : ArrayFill α) (value : α)
    (values : List α) :
    fill.storeAll (value :: values) = (fill.store value).storeAll values := rfl

theorem storeAll_append (fill : ArrayFill α) (first second : List α) :
    fill.storeAll (first ++ second) =
      (fill.storeAll first).storeAll second := by
  simp [storeAll]

@[simp] theorem storeAll_slots (fill : ArrayFill α) (values : List α) :
    (fill.storeAll values).slots = fill.slots := by
  induction values generalizing fill with
  | nil => rfl
  | cons value rest ih => exact ih (fill.store value)

@[simp] theorem storeAll_stored (fill : ArrayFill α) (values : List α) :
    (fill.storeAll values).stored = fill.stored ++ values := by
  induction values generalizing fill with
  | nil => simp
  | cons value rest ih =>
      rw [storeAll_cons, ih]
      simp [stored, store]

/-- The indices of the stores are those from the cursor on. -/
theorem storeAll_indices (fill : ArrayFill α) (values : List α) :
    (fill.storeAll values).stores.map Prod.fst =
      fill.stores.map Prod.fst ++ List.range' fill.next values.length := by
  induction values generalizing fill with
  | nil => simp
  | cons value rest ih =>
      rw [storeAll_cons, ih]
      simp [store, List.range'_succ]

theorem allocate_indices (slots : ℕ) (values : List α) :
    ((allocate slots).storeAll values).stores.map Prod.fst =
      List.range values.length := by
  rw [storeAll_indices, List.range_eq_range']
  rfl

theorem allocate_stored (slots : ℕ) (values : List α) :
    ((allocate slots).storeAll values).stored = values :=
  (storeAll_stored (allocate slots) values).trans (List.nil_append values)

/-- The stores fit exactly when there are no more of them than slots. -/
theorem inBounds_iff (slots : ℕ) (values : List α) :
    ((allocate slots).storeAll values).InBounds ↔ values.length ≤ slots := by
  have hmem : ∀ index, (∃ entry ∈ ((allocate slots).storeAll values).stores,
      entry.1 = index) ↔ index < values.length := by
    intro index
    rw [← List.mem_map, allocate_indices, List.mem_range]
  constructor
  · intro hbounds
    by_contra hlong
    obtain ⟨entry, hentry, hindex⟩ := (hmem slots).mpr (by omega)
    have hlt := hbounds entry hentry
    rw [storeAll_slots, hindex] at hlt
    exact absurd hlt (lt_irrefl slots)
  · intro hfits entry hentry
    have hlt := (hmem entry.1).mp ⟨entry, hentry, rfl⟩
    rw [storeAll_slots]
    exact lt_of_lt_of_le hlt hfits

theorem filledOnce_iff (slots : ℕ) (values : List α) :
    ((allocate slots).storeAll values).FilledOnce ↔ values.length = slots := by
  unfold FilledOnce
  rw [allocate_indices, storeAll_slots]
  constructor
  · intro heq
    have hlength := congrArg List.length heq
    rwa [List.length_range, List.length_range] at hlength
  · rintro rfl
    rfl

theorem allocate_next (slots : ℕ) (values : List α) :
    ((allocate slots).storeAll values).next = values.length := by
  have hnext : ∀ fill : ArrayFill α,
      (fill.storeAll values).next = fill.next + values.length := by
    induction values with
    | nil =>
        intro fill
        rfl
    | cons value rest ih =>
        intro fill
        rw [storeAll_cons, ih, List.length_cons]
        have hstore : (fill.store value).next = fill.next + 1 := rfl
        omega
  rw [hnext]
  exact Nat.zero_add values.length

theorem FilledOnce.inBounds {fill : ArrayFill α} (hfilled : fill.FilledOnce) :
    fill.InBounds := by
  intro entry hentry
  have hindex : entry.1 ∈ fill.stores.map Prod.fst :=
    List.mem_map_of_mem hentry
  rwa [hfilled, List.mem_range] at hindex

/-! ## Reading -/

/-- What a slot holds, once it is written. -/
def slot (fill : ArrayFill α) (index : ℕ) : Option α :=
  (fill.stores.find? fun entry => entry.1 = index).map Prod.snd

theorem storeAll_slot (fill : ArrayFill α) (values : List α) {index : ℕ}
    (hunwritten : ∀ entry ∈ fill.stores, entry.1 < fill.next) :
    (fill.storeAll values).slot index =
      if index < fill.next then fill.slot index
      else values[index - fill.next]? := by
  induction values generalizing fill with
  | nil =>
      split
      next => rfl
      next hindex =>
        simp only [storeAll_nil, slot, List.getElem?_nil,
          Option.map_eq_none_iff, List.find?_eq_none, decide_eq_true_eq]
        intro entry hentry
        have hlt := hunwritten entry hentry
        omega
  | cons value rest ih =>
      have hnext : (fill.store value).next = fill.next + 1 := rfl
      have hslot : (fill.store value).slot index =
          (fill.slot index).or
            (if fill.next = index then some value else none) := by
        unfold slot store
        rw [List.find?_append, Option.map_or]
        by_cases hindex : fill.next = index <;> simp [hindex]
      have hstores : ∀ entry ∈ (fill.store value).stores,
          entry.1 < (fill.store value).next := by
        intro entry hentry
        rcases List.mem_append.mp hentry with hold | hnew
        · exact Nat.lt_succ_of_lt (hunwritten entry hold)
        · obtain rfl := List.mem_singleton.mp hnew
          exact Nat.lt_succ_self _
      rw [storeAll_cons, ih _ hstores, hnext, hslot]
      by_cases hlt : index < fill.next
      · have hne : fill.next ≠ index := by omega
        rw [if_pos (by omega), if_pos hlt, if_neg hne, Option.or_none]
      · have hnone : fill.slot index = none := by
          simp only [slot, Option.map_eq_none_iff, List.find?_eq_none,
            decide_eq_true_eq]
          intro entry hentry
          have hold := hunwritten entry hentry
          omega
        rw [if_neg hlt, hnone, Option.none_or]
        by_cases heq : fill.next = index
        · simp [heq]
        · have hsub : index - fill.next = (index - (fill.next + 1)) + 1 := by
            omega
          rw [if_neg (by omega), hsub, List.getElem?_cons_succ]

theorem allocate_slot (slots : ℕ) (values : List α) (index : ℕ) :
    ((allocate slots).storeAll values).slot index = values[index]? := by
  have hstart : ∀ entry ∈ (allocate slots : ArrayFill α).stores,
      entry.1 < (allocate slots : ArrayFill α).next := by
    simp [allocate]
  rw [storeAll_slot _ _ hstart]
  simp [allocate]

/-- The slots in front of the terminator, if all of those read are
written. -/
def readFrom (fill : ArrayFill (Option α)) : ℕ → ℕ → Option (List α)
  | 0, _ => none
  | fuel + 1, index =>
      match fill.slot index with
      | none => none
      | some none => some []
      | some (some value) =>
          (readFrom fill fuel (index + 1)).map (value :: ·)

def readTerminated (fill : ArrayFill (Option α)) : Option (List α) :=
  fill.readFrom fill.slots 0

/-- An array which has been filled and terminated within its bounds is read
back. -/
theorem readTerminated_storeAll {slots : ℕ} {values : List α}
    (hslots : values.length < slots) :
    ((allocate slots).storeAll (values.map some ++ [none])).readTerminated =
      some values := by
  have hread : ∀ (rest before : List α) (fuel : ℕ), rest.length < fuel →
      ((allocate slots).storeAll
        ((before ++ rest).map some ++ [none])).readFrom fuel before.length =
        some rest := by
    intro rest
    induction rest with
    | nil =>
        intro before fuel hfuel
        obtain ⟨fuel, rfl⟩ := Nat.exists_eq_add_of_lt hfuel
        have hslot := allocate_slot slots
          ((before ++ []).map some ++ [none]) before.length
        simp only [List.append_nil] at hslot
        rw [List.getElem?_append_right (by simp)] at hslot
        simp only [Nat.zero_add, readFrom, List.append_nil, List.length_nil]
        rw [hslot]
        simp
    | cons value rest ih =>
        intro before fuel hfuel
        obtain ⟨fuel, rfl⟩ : ∃ less, fuel = less + 1 :=
          ⟨fuel - 1, by simp at hfuel; omega⟩
        have hslot := allocate_slot slots
          ((before ++ value :: rest).map some ++ [none]) before.length
        rw [List.getElem?_append_left (by simp)] at hslot
        have hrest := ih (before ++ [value]) fuel (by simpa using hfuel)
        rw [List.append_assoc, List.singleton_append, List.length_append,
          List.length_singleton] at hrest
        rw [readFrom, hslot, hrest]
        simp
  unfold readTerminated
  rw [storeAll_slots]
  exact hread values [] slots hslots

end ArrayFill
