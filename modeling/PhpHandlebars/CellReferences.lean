import PhpHandlebars.Ledger
import PhpHandlebars.SlotSharing
import Mathlib.Algebra.BigOperators.Group.Finset.Basic
import Mathlib.Algebra.Order.BigOperators.Group.Multiset
import Mathlib.Tactic

/-!
# The references cells hold

`set_intern_zval` takes a reference to the array or object it writes, and the
destructor of the cell releases one, when the library frees the cell.  A write
into a cell which holds something already does not release what it replaces.
-/

namespace PhpHandlebars

/-- `held` gives the reference the destructor of a cell would release, and
nothing for a cell which is not allocated.  References are numbered in the
order they are taken. -/
structure CellLedger where
  heap : Heap
  slots : ℕ → Slot
  held : ℕ → Option ℕ
  taken : ℕ
  ledger : Ledger ℕ

inductive CellEvent where
  | write (context : Option ℕ) (slot : ℕ) (val : Zval)
  | store (slot : ℕ) (content : Slot)
  | free (cell : ℕ)

def CellLedger.start (slots : ℕ → Slot) : CellLedger where
  heap := .empty
  slots := slots
  held := fun _ => none
  taken := 0
  ledger := []

def CellLedger.Live (state : CellLedger) (content : Slot) : Prop :=
  ∀ cell ∈ content.cells, state.held cell ≠ none

instance CellLedger.decidableLive (state : CellLedger) (content : Slot) :
    Decidable (state.Live content) :=
  List.decidableBAll (fun cell => state.held cell ≠ none) content.cells

def Zval.wrapped : Zval → Bool
  | .array _ | .object _ => Bool.true
  | _ => Bool.false

def Slot.isUser : Slot → Bool
  | .user _ => true
  | _ => false

/-- `ZVAL_ZVAL` with a copy, into the cell a slot points to afterwards. -/
def CellLedger.addref (state : CellLedger) : Slot → CellLedger
  | .user cell =>
      { state with
        held := Function.update state.held cell (some state.taken)
        taken := state.taken + 1
        ledger := state.ledger ++ [.acquire state.taken] }
  | _ => state

/-- The library writes through slots whose cells are allocated, stores such
slots only, and frees a cell at most once. -/
def cellStep (state : CellLedger) : CellEvent → Option CellLedger
  | .write context slot val =>
      if state.Live (state.slots slot) then
        match state.heap.valueFromZval context val (state.slots slot) with
        | .ok (heap, rv) =>
            let written := { state with
              heap := heap
              slots := Function.update state.slots slot rv }
            some (if val.wrapped then written.addref rv else written)
        | .error _ => some state
      else none
  | .store slot content =>
      if state.Live content then
        some { state with slots := Function.update state.slots slot content }
      else none
  | .free cell =>
      match state.held cell with
      | some ref =>
          some { state with
            held := Function.update state.held cell none
            ledger := state.ledger ++ [.release ref] }
      | none => none

/-- An array or object is written into a slot which points to a cell. -/
def Rewrites (state : CellLedger) : CellEvent → Bool
  | .write _ slot val => val.wrapped && (state.slots slot).isUser
  | _ => false

def rewriteCount : CellLedger → List CellEvent → ℕ
  | _, [] => 0
  | state, event :: rest =>
      (Rewrites state event).toNat +
        ((cellStep state event).elim 0 fun next => rewriteCount next rest)

/-! ## What the cells hold together -/

def heldRefs (held : ℕ → Option ℕ) (size : ℕ) : Multiset ℕ :=
  ∑ cell ∈ Finset.range size, ((held cell).toList : Multiset ℕ)

theorem heldRefs_update (held : ℕ → Option ℕ) {size cell : ℕ}
    (hcell : cell < size) (ref : Option ℕ) :
    heldRefs (Function.update held cell ref) size + (held cell).toList =
      heldRefs held size + ref.toList := by
  have hmem : cell ∈ Finset.range size := Finset.mem_range.mpr hcell
  have hothers : ∑ other ∈ (Finset.range size).erase cell,
      ((Function.update held cell ref other).toList : Multiset ℕ) =
      ∑ other ∈ (Finset.range size).erase cell,
        ((held other).toList : Multiset ℕ) := by
    apply Finset.sum_congr rfl
    intro other hother
    rw [Function.update_of_ne (Finset.ne_of_mem_erase hother)]
  unfold heldRefs
  rw [← Finset.add_sum_erase _ _ hmem, ← Finset.add_sum_erase _ _ hmem,
    hothers, Function.update_self]
  abel

theorem heldRefs_of_le {held : ℕ → Option ℕ} {size size' : ℕ}
    (hallocated : ∀ cell, held cell ≠ none → cell < size)
    (hsize : size ≤ size') : heldRefs held size' = heldRefs held size := by
  symm
  apply Finset.sum_subset (Finset.range_mono hsize)
  intro cell _ hcell
  have hnone : held cell = none := by
    by_contra hne
    exact hcell (Finset.mem_range.mpr (hallocated cell hne))
  simp [hnone]

theorem heldRefs_none {held : ℕ → Option ℕ}
    (hheld : ∀ cell, held cell = none) (size : ℕ) : heldRefs held size = 0 := by
  simp [heldRefs, hheld]

/-- Every reference taken and not released is held by a cell, or is `lost`. -/
structure CellInvariant (state : CellLedger) (lost : Multiset ℕ) : Prop where
  allocated : ∀ cell, state.held cell ≠ none → cell < state.heap.size
  settles : Ledger.settle 0 state.ledger =
    some (heldRefs state.held state.heap.size + lost)

theorem CellInvariant.start (slots : ℕ → Slot) :
    CellInvariant (.start slots) 0 where
  allocated := by simp [CellLedger.start]
  settles := by
    simp [CellLedger.start, heldRefs_none, Ledger.settle]

theorem CellInvariant.addref {state : CellLedger} {lost : Multiset ℕ}
    (hinv : CellInvariant state lost) {cell : ℕ}
    (hcell : cell < state.heap.size) :
    CellInvariant (state.addref (.user cell))
      (lost + (state.held cell).toList) where
  allocated := by
    intro other hother
    by_cases heq : other = cell
    · exact heq ▸ hcell
    · simp only [CellLedger.addref, Function.update_of_ne heq] at hother
      exact hinv.allocated other hother
  settles := by
    -- what the cell held before goes over to the lost references
    have hupdate := heldRefs_update state.held hcell (some state.taken)
    simp only [CellLedger.addref]
    rw [Ledger.settle_append, hinv.settles]
    simp only [Option.bind_some, Ledger.settle, Option.some.injEq]
    rw [add_comm lost, ← add_assoc, hupdate]
    simp only [Option.toList_some, Multiset.coe_singleton]
    rw [← Multiset.singleton_add]
    abel

theorem CellInvariant.release {state : CellLedger} {lost : Multiset ℕ}
    (hinv : CellInvariant state lost) {cell ref : ℕ}
    (hheld : state.held cell = some ref) :
    CellInvariant { state with
      held := Function.update state.held cell none
      ledger := state.ledger ++ [.release ref] } lost where
  allocated := by
    intro other hother
    by_cases heq : other = cell
    · exact heq ▸ hinv.allocated cell (by simp [hheld])
    · simp only [Function.update_of_ne heq] at hother
      exact hinv.allocated other hother
  settles := by
    have hupdate := heldRefs_update state.held
      (hinv.allocated cell (by simp [hheld])) none
    have hsplit : heldRefs state.held state.heap.size + lost =
        ref ::ₘ (heldRefs (Function.update state.held cell none)
          state.heap.size + lost) := by
      simp only [hheld, Option.toList_some, Option.toList_none,
        Multiset.coe_singleton, Multiset.coe_nil, add_zero] at hupdate
      rw [← hupdate, ← Multiset.singleton_add]
      abel
    simp only
    rw [Ledger.settle_append, hinv.settles, hsplit]
    simp [Ledger.settle]

theorem CellInvariant.grow {state : CellLedger} {lost : Multiset ℕ}
    (hinv : CellInvariant state lost) {heap : Heap}
    (hsize : state.heap.size ≤ heap.size) (slots : ℕ → Slot) :
    CellInvariant { state with heap := heap, slots := slots } lost where
  allocated := fun cell hcell =>
    lt_of_lt_of_le (hinv.allocated cell hcell) hsize
  settles := by
    rw [hinv.settles]
    simp [heldRefs_of_le hinv.allocated hsize]

/-- The write of an array or object, with the reference it takes. -/
def CellLedger.wrap (state : CellLedger) (slot : ℕ) (val : WrappedZval) :
    CellLedger :=
  let (heap, rv) := state.heap.setInternZval (state.slots slot) val
  CellLedger.addref { state with
    heap := heap
    slots := Function.update state.slots slot rv } rv

theorem Zval.exists_wrapped {val : Zval} (hval : val.wrapped = Bool.true) :
    ∃ wrapped : WrappedZval, wrapped.zval = val := by
  cases val <;> simp [Zval.wrapped] at hval
  case array buckets => exact ⟨⟨.array buckets, .inl rfl⟩, rfl⟩
  case object handle => exact ⟨⟨.object handle, .inr rfl⟩, rfl⟩

theorem cellStep_wrap {state : CellLedger} {slot : ℕ}
    (hlive : state.Live (state.slots slot)) (context : Option ℕ)
    (val : WrappedZval) :
    cellStep state (.write context slot val.zval) =
      some (state.wrap slot val) := by
  obtain ⟨zval, hwraps⟩ := val
  cases zval <;> simp [Zval.zType] at hwraps
  all_goals
    rw [cellStep, if_pos hlive]
    rfl

theorem CellInvariant.wrap {state : CellLedger} {lost : Multiset ℕ}
    (hinv : CellInvariant state lost) {slot : ℕ}
    (hlive : state.Live (state.slots slot)) (val : WrappedZval) :
    ∃ lost', lost'.card = lost.card + (state.slots slot).isUser.toNat ∧
      CellInvariant (state.wrap slot val) lost' := by
  unfold CellLedger.wrap
  cases hslot : state.slots slot with
  | user cell =>
      have hheld : state.held cell ≠ none :=
        hlive cell (by simp [hslot, Slot.cells])
      obtain ⟨ref, href⟩ := Option.ne_none_iff_exists'.mp hheld
      refine ⟨lost + (state.held cell).toList,
        by simp [href, Slot.isUser], ?_⟩
      have hsize : state.heap.size ≤
          (state.heap.setInternZval (.user cell) val).1.size := Nat.le_refl _
      exact (hinv.grow hsize _).addref (hinv.allocated cell hheld)
  | _ =>
      -- the new cell lies behind the allocated ones, so that it holds nothing
      have hnone : state.held state.heap.size = none := by
        by_contra hne
        exact Nat.lt_irrefl _ (hinv.allocated _ hne)
      refine ⟨lost + (state.held state.heap.size).toList,
        by simp [hnone, Slot.isUser], ?_⟩
      exact (hinv.grow (Nat.le_succ _) _).addref (Nat.lt_succ_self _)

theorem CellInvariant.scalar {state next : CellLedger} {lost : Multiset ℕ}
    (hinv : CellInvariant state lost) {context : Option ℕ} {slot : ℕ}
    {val : Zval} (hval : val.wrapped = false)
    (hstep : cellStep state (.write context slot val) = some next) :
    CellInvariant next lost := by
  simp only [cellStep] at hstep
  split at hstep
  next =>
    cases val <;> simp only [Zval.wrapped, reduceCtorEq] at hval <;>
      obtain rfl := Option.some.inj hstep <;>
      first
        | exact hinv
        | exact hinv.grow (Nat.le_refl _) _
  next => cases hstep

theorem cellStep_preserves {state next : CellLedger} {lost : Multiset ℕ}
    (event : CellEvent) (hinv : CellInvariant state lost)
    (hstep : cellStep state event = some next) :
    ∃ lost', lost'.card = lost.card + (Rewrites state event).toNat ∧
      CellInvariant next lost' := by
  cases event with
  | write context slot val =>
      cases hval : val.wrapped with
      | false =>
          exact ⟨lost, by simp [Rewrites, hval], hinv.scalar hval hstep⟩
      | true =>
          have hlive : state.Live (state.slots slot) := by
            by_contra hdead
            simp [cellStep, hdead] at hstep
          obtain ⟨wrapped, rfl⟩ := Zval.exists_wrapped hval
          rw [cellStep_wrap hlive] at hstep
          obtain rfl := Option.some.inj hstep
          simpa [Rewrites, hval] using hinv.wrap hlive wrapped
  | store slot content =>
      simp only [cellStep] at hstep
      split at hstep
      next hlive =>
        obtain rfl := Option.some.inj hstep
        exact ⟨lost, rfl, hinv.grow (Nat.le_refl _) _⟩
      next => cases hstep
  | free cell =>
      simp only [cellStep] at hstep
      split at hstep
      next ref hheld =>
        obtain rfl := Option.some.inj hstep
        exact ⟨lost, rfl, hinv.release hheld⟩
      next => cases hstep

theorem cells_keep_references {state final : CellLedger} {lost : Multiset ℕ}
    {events : List CellEvent} (hinv : CellInvariant state lost)
    (hrun : EventRun.run cellStep state events = some final) :
    ∃ lost', lost'.card = lost.card + rewriteCount state events ∧
      CellInvariant final lost' := by
  -- each event adds one to the lost references when it rewrites a cell
  induction events generalizing state lost with
  | nil =>
      obtain rfl := Option.some.inj hrun
      exact ⟨lost, rfl, hinv⟩
  | cons event rest ih =>
      rw [EventRun.run_cons] at hrun
      obtain ⟨next, hnext, hrun⟩ := Option.bind_eq_some_iff.mp hrun
      obtain ⟨middle, hmiddle, hinv⟩ := cellStep_preserves event hinv hnext
      obtain ⟨lost', hcard, hinv⟩ := ih hinv hrun
      refine ⟨lost', ?_, hinv⟩
      rw [hcard, hmiddle, rewriteCount, hnext, Option.elim_some]
      omega

/-- No reference is released without being held, and what is taken and not
released is held by a cell or was written over.  So all of them are released
in the end exactly when no write went into a cell which held something. -/
theorem references_of_cells {slots : ℕ → Slot} {events : List CellEvent}
    {state : CellLedger}
    (hrun : EventRun.run cellStep (.start slots) events = some state) :
    (∃ lost : Multiset ℕ, lost.card = rewriteCount (.start slots) events ∧
      Ledger.settle 0 state.ledger =
        some (heldRefs state.held state.heap.size + lost)) ∧
    ((∀ cell, state.held cell = none) →
      (Ledger.Balanced state.ledger ↔
        rewriteCount (.start slots) events = 0)) := by
  obtain ⟨lost, hcard, hinv⟩ := cells_keep_references (.start slots) hrun
  rw [Multiset.card_zero, zero_add] at hcard
  refine ⟨⟨lost, hcard, hinv.settles⟩, fun hfreed => ?_⟩
  rw [Ledger.Balanced, hinv.settles, heldRefs_none hfreed, zero_add,
    Option.some_inj, ← hcard, Multiset.card_eq_zero]

/-- An array is written and its cell is freed. -/
theorem references_of_written_array :
    ∃ state, EventRun.run cellStep (.start fun _ => .null)
        [.write none 0 (.array []), .free 0] = some state ∧
      Ledger.Balanced state.ledger := by
  have hrun : EventRun.run cellStep (.start fun _ => .null)
    [.write none 0 (.array []), .free 0] = some _ := rfl
  refine ⟨_, hrun, ((references_of_cells hrun).2 fun cell => ?_).mpr rfl⟩
  cases cell <;> rfl

/-! ## A loop over an array -/

/-- The conversions of a loop into one slot.  The first value which cannot be
converted raises an error, which ends the loop; it is left with those behind
it. -/
def convertLoop (context : Option ℕ) (slot : ℕ) :
    CellLedger → List Zval → Option (CellLedger × List Zval)
  | state, [] => some (state, [])
  | state, val :: rest =>
      match state.heap.valueFromZval context val (state.slots slot) with
      | .ok _ =>
          (cellStep state (.write context slot val)).bind fun next =>
            convertLoop context slot next rest
      | .error _ => some (state, val :: rest)

/-- The writes which go into a cell that holds something.  `user` says whether
the slot points to a cell. -/
def rewrittenBy : Bool → List Zval → ℕ
  | _, [] => 0
  | user, val :: rest =>
      match val with
      | .array _ | .object _ => user.toNat + rewrittenBy true rest
      | .true | .false | .double _ | .long _ | .string _ =>
          rewrittenBy false rest
      -- null is not written
      | _ => rewrittenBy user rest

theorem rewrittenBy_wrapped (user : Bool) (val : WrappedZval)
    (rest : List Zval) :
    rewrittenBy user (val.zval :: rest) =
      user.toNat + rewrittenBy true rest := by
  obtain ⟨zval, hwraps⟩ := val
  cases zval <;> simp [Zval.zType] at hwraps
  all_goals rfl

theorem CellLedger.live_wrap (state : CellLedger) (slot : ℕ)
    (val : WrappedZval) :
    (state.wrap slot val).Live ((state.wrap slot val).slots slot) := by
  unfold CellLedger.wrap
  cases state.slots slot <;>
    simp [Heap.setInternZval, CellLedger.addref, CellLedger.Live, Slot.cells]

theorem CellLedger.isUser_wrap (state : CellLedger) (slot : ℕ)
    (val : WrappedZval) :
    ((state.wrap slot val).slots slot).isUser = true := by
  unfold CellLedger.wrap
  cases state.slots slot <;>
    simp [Heap.setInternZval, CellLedger.addref, Slot.isUser]

/-- The slot of the loop stays usable, whatever is written into it. -/
theorem loop_write {state : CellLedger} {slot : ℕ}
    (hlive : state.Live (state.slots slot)) (context : Option ℕ) (val : Zval) :
    ∃ next, cellStep state (.write context slot val) = some next ∧
      next.Live (next.slots slot) ∧
      ∀ rest, rewrittenBy (state.slots slot).isUser (val :: rest) =
        (Rewrites state (.write context slot val)).toNat +
          rewrittenBy (next.slots slot).isUser rest := by
  cases hval : val.wrapped with
  | true =>
      obtain ⟨wrapped, rfl⟩ := Zval.exists_wrapped hval
      refine ⟨_, cellStep_wrap hlive context wrapped, ?_, fun rest => ?_⟩
      · exact CellLedger.live_wrap state slot wrapped
      · rw [rewrittenBy_wrapped, Rewrites, hval, Bool.true_and,
          CellLedger.isUser_wrap]
  | false =>
      cases val <;> simp only [Zval.wrapped, reduceCtorEq] at hval <;>
        refine ⟨_, if_pos hlive, ?_, fun rest => ?_⟩ <;>
        simp_all [Zval.wrapped, CellLedger.Live, Slot.cells, rewrittenBy,
          Rewrites, Slot.isUser]

theorem loop_runs (context : Option ℕ) (slot : ℕ) (values : List Zval)
    {state : CellLedger} (hlive : state.Live (state.slots slot)) :
    ∃ final, EventRun.run cellStep state
        (values.map fun val => .write context slot val) = some final ∧
      rewriteCount state (values.map fun val => .write context slot val) =
        rewrittenBy (state.slots slot).isUser values := by
  induction values generalizing state with
  | nil => exact ⟨state, rfl, rfl⟩
  | cons val rest ih =>
      obtain ⟨next, hnext, hlive', hcount⟩ := loop_write hlive context val
      obtain ⟨final, hfinal, hrest⟩ := ih hlive'
      refine ⟨final, ?_, ?_⟩
      · rw [List.map_cons, EventRun.run_cons, hnext]
        exact hfinal
      · rw [List.map_cons, rewriteCount, hnext, Option.elim_some, hrest,
          hcount]

def converts (val : Zval) : Bool :=
  val.zType.Convertible

theorem valueFromZval_raises_iff (heap : Heap) (context : Option ℕ)
    (val : Zval) (rv : Slot) :
    (∃ raised, heap.valueFromZval context val rv = .error raised) ↔
      converts val = false := by
  cases val <;>
    simp [Heap.valueFromZval, converts, ZvalType.Convertible, Zval.zType]

theorem convertLoop_eq (context : Option ℕ) (slot : ℕ) (state : CellLedger)
    (values : List Zval) :
    convertLoop context slot state values =
      (EventRun.run cellStep state ((values.takeWhile converts).map
        fun val => .write context slot val)).map
          fun final => (final, values.dropWhile converts) := by
  induction values generalizing state with
  | nil => rfl
  | cons val rest ih =>
      have hraises := valueFromZval_raises_iff state.heap context val
        (state.slots slot)
      rw [convertLoop]
      cases hconvert : state.heap.valueFromZval context val
          (state.slots slot) with
      | ok out =>
          have hval : converts val = true := by
            simpa [hconvert] using hraises
          rw [List.takeWhile_cons_of_pos hval, List.dropWhile_cons_of_pos hval,
            List.map_cons, EventRun.run_cons, Option.map_bind]
          exact congrArg (Option.bind _) (funext ih)
      | error raised =>
          have hval : ¬ converts val = true := by
            simpa [hconvert] using hraises
          rw [List.takeWhile_cons_of_neg hval, List.dropWhile_cons_of_neg hval]
          rfl

/-- A loop over a PHP array ends at the first value which cannot be converted.
Up to there it loses a reference for each array or object which is written over
another one. -/
theorem loop_references (context : Option ℕ) (values : List Zval) :
    ∃ final lost, convertLoop context 0 (.start fun _ => .null) values =
        some (final, values.dropWhile converts) ∧
      lost.card = rewrittenBy false (values.takeWhile converts) ∧
      Ledger.settle 0 final.ledger =
        some (heldRefs final.held final.heap.size + lost) := by
  obtain ⟨final, hfinal, hcount⟩ := loop_runs context 0
    (values.takeWhile converts)
    (show (CellLedger.start fun _ => .null).Live .null by
      simp [CellLedger.Live, Slot.cells])
  obtain ⟨lost, hcard, hinv⟩ := cells_keep_references (.start _) hfinal
  refine ⟨final, lost, ?_, ?_, hinv.settles⟩
  · rw [convertLoop_eq, hfinal]
    rfl
  · rw [hcard, Multiset.card_zero, zero_add, hcount]
    rfl

/-- Two of the three references are lost. -/
example : rewrittenBy false [.array [], .null, .object 1, .array []] = 2 := rfl

end PhpHandlebars
