import PhpHandlebars.ValueSlot
import Mathlib.Tactic

/-!
# Copied slots

A slot and its copy point to one cell.  The next array or object written into
either of them goes into that cell, and null written into a slot is not written
at all; every other write leaves the rest of the slots alone.
-/

namespace PhpHandlebars

/-- The slots of a process, with the PHP value which each of them was last
given. -/
structure SlotHistory where
  heap : Heap
  slots : ℕ → Slot
  expected : ℕ → Zval

inductive SlotEvent where
  | write (context : Option ℕ) (slot : ℕ) (val : Zval)
  | copy (source target : ℕ)

def SlotHistory.start (heap : Heap) (slots : ℕ → Slot) : SlotHistory where
  heap := heap
  slots := slots
  expected := fun slot => (slots slot).toZval heap

/-- PHP reads an undefined value as null. -/
def Zval.read : Zval → Zval
  | .undef => .null
  | val => val

/-- A conversion which fails writes nothing.  `handlebars_value_value` copies
the pointer to a cell. -/
def slotStep (history : SlotHistory) : SlotEvent → Option SlotHistory
  | .write context slot val =>
      match history.heap.valueFromZval context val (history.slots slot) with
      | .ok (heap, rv) =>
          some ⟨heap, Function.update history.slots slot rv,
            Function.update history.expected slot val.read⟩
      | .error _ => some history
  | .copy source target =>
      some { history with
        slots := Function.update history.slots target (history.slots source)
        expected := Function.update history.expected target
          (history.expected source) }

/-- Null is written only where the slot reads as null, and arrays and objects
only into cells which no other slot points to, or which hold them already. -/
structure SafeWrite (history : SlotHistory) (slot : ℕ) (val : Zval) :
    Prop where
  null : val.zType = .isUndef ∨ val.zType = .isNull →
    (history.slots slot).ReadsNull
  cell : val.zType = .isArray ∨ val.zType = .isObject →
    ∀ cell, history.slots slot = .user cell → ∀ other, other ≠ slot →
      cell ∈ (history.slots other).cells →
        (history.heap.cells cell).intern.zval = val

def SafeEvent (history : SlotHistory) : SlotEvent → Prop
  | .write _ slot val => SafeWrite history slot val
  | .copy _ _ => True

structure SlotInvariant (history : SlotHistory) : Prop where
  allocated : ∀ slot, ∀ cell ∈ (history.slots slot).cells,
    cell < history.heap.size
  denotes : ∀ slot, (history.slots slot).toZval history.heap =
    history.expected slot

/-- What a conversion into a slot does to the slot and to the others. -/
structure WriteEffect (history : SlotHistory) (slot : ℕ) (val : Zval)
    (heap : Heap) (rv : Slot) : Prop where
  size : history.heap.size ≤ heap.size
  cells : ∀ cell ∈ rv.cells,
    cell ∈ (history.slots slot).cells ∨ cell < heap.size
  value : rv.toZval heap = val.read
  others : ∀ other, other ≠ slot →
    (history.slots other).toZval heap =
      (history.slots other).toZval history.heap

theorem WriteEffect.of_heap_eq {history : SlotHistory} {slot : ℕ} {val : Zval}
    {rv : Slot} (hcells : ∀ cell ∈ rv.cells,
      cell ∈ (history.slots slot).cells)
    (hvalue : rv.toZval history.heap = val.read) :
    WriteEffect history slot val history.heap rv where
  size := Nat.le_refl _
  cells := fun cell hcell => .inl (hcells cell hcell)
  value := hvalue
  others := fun _ _ => rfl

theorem WriteEffect.of_setInternZval {history : SlotHistory} {slot : ℕ}
    (hallocated : ∀ slot, ∀ cell ∈ (history.slots slot).cells,
      cell < history.heap.size)
    (val : WrappedZval)
    (hsafe : ∀ cell, history.slots slot = .user cell → ∀ other,
      other ≠ slot → cell ∈ (history.slots other).cells →
        (history.heap.cells cell).intern.zval = val.zval) :
    WriteEffect history slot val.zval
      (history.heap.setInternZval (history.slots slot) val).1
      (history.heap.setInternZval (history.slots slot) val).2 where
  size := by
    cases history.slots slot <;> simp [Heap.setInternZval, Heap.store]
  cells := by
    intro cell hcell
    cases hslot : history.slots slot with
    | user shared =>
        left
        simpa [hslot, Heap.setInternZval] using hcell
    | _ =>
        right
        have heq : cell = history.heap.size := by
          simpa [hslot, Heap.setInternZval, Slot.cells] using hcell
        simp [Heap.setInternZval, heq]
  value := by
    rw [setInternZval_toZval]
    have hwraps := val.wraps
    cases hzval : val.zval <;> simp [hzval, Zval.zType, Zval.read] at hwraps ⊢
  others := by
    intro other hother
    unfold Slot.toZval
    rw [setInternZval_denote_other (hallocated other)]
    intro cell hslot hcell
    exact hsafe cell hslot other hother hcell

theorem valueFromZval_effect {history : SlotHistory} {context : Option ℕ}
    {slot : ℕ} {val : Zval} {heap : Heap} {rv : Slot}
    (hallocated : ∀ slot, ∀ cell ∈ (history.slots slot).cells,
      cell < history.heap.size)
    (hsafe : SafeWrite history slot val)
    (hwrite : history.heap.valueFromZval context val (history.slots slot) =
      .ok (heap, rv)) :
    WriteEffect history slot val heap rv := by
  cases val with
  | resource handle => simp [Heap.valueFromZval] at hwrite
  | reference target => simp [Heap.valueFromZval] at hwrite
  | indirect target => simp [Heap.valueFromZval] at hwrite
  | array buckets =>
      have heffect := WriteEffect.of_setInternZval hallocated
        ⟨.array buckets, .inl rfl⟩ (hsafe.cell (.inl rfl))
      simp only [Heap.valueFromZval, Except.ok.injEq] at hwrite
      rwa [hwrite] at heffect
  | object handle =>
      have heffect := WriteEffect.of_setInternZval hallocated
        ⟨.object handle, .inr rfl⟩ (hsafe.cell (.inr rfl))
      simp only [Heap.valueFromZval, Except.ok.injEq] at hwrite
      rwa [hwrite] at heffect
  | undef =>
      obtain ⟨rfl, rfl⟩ := Prod.mk.inj (Except.ok.inj hwrite)
      exact .of_heap_eq (fun _ hcell => hcell)
        ((Slot.toZval_eq_null_iff _ _).mpr (hsafe.null (.inl rfl)))
  | null =>
      obtain ⟨rfl, rfl⟩ := Prod.mk.inj (Except.ok.inj hwrite)
      exact .of_heap_eq (fun _ hcell => hcell)
        ((Slot.toZval_eq_null_iff _ _).mpr (hsafe.null (.inr rfl)))
  | _ =>
      obtain ⟨rfl, rfl⟩ := Prod.mk.inj (Except.ok.inj hwrite)
      exact .of_heap_eq (by simp [Slot.cells]) rfl

theorem slotStep_preserves (history : SlotHistory) (event : SlotEvent)
    (next : SlotHistory) (hinv : SlotInvariant history)
    (hsafe : SafeEvent history event)
    (hstep : slotStep history event = some next) : SlotInvariant next := by
  cases event with
  | write context slot val =>
      simp only [slotStep] at hstep
      split at hstep
      next heap rv hwrite =>
        obtain rfl := Option.some.inj hstep
        have heffect := valueFromZval_effect hinv.allocated hsafe hwrite
        refine ⟨fun other => ?_, fun other => ?_⟩
        · by_cases heq : other = slot
          · subst other
            simp only [Function.update_self]
            intro cell hcell
            rcases heffect.cells cell hcell with hold | hnew
            · exact lt_of_lt_of_le (hinv.allocated slot cell hold)
                heffect.size
            · exact hnew
          · simp only [Function.update_of_ne heq]
            intro cell hcell
            exact lt_of_lt_of_le (hinv.allocated other cell hcell)
              heffect.size
        · by_cases heq : other = slot
          · subst other
            simpa using heffect.value
          · simp only [Function.update_of_ne heq]
            rw [heffect.others other heq, hinv.denotes other]
      next =>
        obtain rfl := Option.some.inj hstep
        exact hinv
  | copy source target =>
      obtain rfl := Option.some.inj hstep
      refine ⟨fun other => ?_, fun other => ?_⟩
      · by_cases heq : other = target
        · subst other
          simpa using hinv.allocated source
        · simpa [heq] using hinv.allocated other
      · by_cases heq : other = target
        · subst other
          simpa using hinv.denotes source
        · simpa [heq] using hinv.denotes other

/-- When every write is safe, every slot converts back to the value last
written to it or copied into it. -/
theorem slots_denote_last_written
    {heap : Heap} {slots : ℕ → Slot} {events : List SlotEvent}
    {state : SlotHistory}
    (hallocated : ∀ slot, ∀ cell ∈ (slots slot).cells, cell < heap.size)
    (hsafe : EventRun.Allowed slotStep SafeEvent (.start heap slots) events)
    (hrun : EventRun.run slotStep (.start heap slots) events = some state)
    (slot : ℕ) :
    (state.slots slot).toZval state.heap = state.expected slot := by
  have hstart : SlotInvariant (.start heap slots) :=
    ⟨hallocated, fun _ => rfl⟩
  exact (EventRun.run_preserves slotStep_preserves hstart hsafe
    hrun).denotes slot

def oneElement (number : ℤ) : Zval :=
  .array [(.index 0, .long number)]

/-- The copy is made, and the original is reused for a scalar. -/
def scalarAfterCopy : List SlotEvent :=
  [.write none 0 (oneElement 1), .copy 0 1, .write none 0 (.long 2)]

theorem scalarAfterCopy_safe :
    EventRun.Allowed slotStep SafeEvent (.start .empty fun _ => .null)
      scalarAfterCopy := by
  refine ⟨⟨by simp [oneElement, Zval.zType], by simp [SlotHistory.start]⟩, ?_⟩
  rintro _ ⟨rfl⟩
  refine ⟨trivial, ?_⟩
  rintro _ ⟨rfl⟩
  refine ⟨⟨by simp [Zval.zType], by simp [Zval.zType]⟩, ?_⟩
  rintro _ ⟨rfl⟩
  trivial

theorem slots_denote_last_written_after_scalar :
    ∃ state, EventRun.run slotStep (.start .empty fun _ => .null)
        scalarAfterCopy = some state ∧
      (state.slots 1).toZval state.heap = state.expected 1 :=
  ⟨_, rfl, slots_denote_last_written (by simp [Slot.cells])
    scalarAfterCopy_safe rfl 1⟩

/-- The original is reused for another array. -/
theorem copy_follows_original :
    ∃ state, EventRun.run slotStep (.start .empty fun _ => .null)
        [.write none 0 (oneElement 1), .copy 0 1,
          .write none 0 (oneElement 2)] = some state ∧
      (state.slots 1).toZval state.heap ≠ state.expected 1 := by
  refine ⟨_, rfl, ?_⟩
  simp [Slot.toZval, Slot.denote, handlebarsValueToZval, oneElement,
    Heap.store, SlotHistory.start, Zval.read, Zval.deref]

end PhpHandlebars
