import PhpHandlebars.CellRefinement
import Mathlib.Tactic

/-!
# Callers of the handlers

A caller keeps values in slots, looks into them, calls them and iterates over
them.  It cannot tell cells from the values which they hold, as long as nothing
is converted into a place which shares its cell with another one, no helper is
called through a cell which has called another one, and the value of an
iteration stays where it is until its end.
-/

namespace PhpHandlebars

variable {S : Type} {env : HandlerEnv S} {heap heap' : Heap}

/-! ## What a conversion writes -/

def Slot.Allocated (slot : Slot) (heap : Heap) : Prop :=
  ∀ cell ∈ slot.cells, cell < heap.size

/-- Of the cells which were there, only the one of `rv` was written.  The cells
`held` by what is given back are there now. -/
structure Heap.Writes (heap : Heap) (rv : Slot) (heap' : Heap)
    (held : List ℕ) : Prop where
  size_le : heap.size ≤ heap'.size
  kept : ∀ cell < heap.size, rv ≠ .user cell →
    (heap'.cells cell).intern.zval = (heap.cells cell).intern.zval
  allocated : ∀ cell ∈ held, cell < heap'.size

theorem Heap.Writes.same {rv : Slot} {held : List ℕ}
    (hheld : ∀ cell ∈ held, cell < heap.size) : heap.Writes rv heap held where
  size_le := Nat.le_refl _
  kept := fun _ _ _ => rfl
  allocated := hheld

theorem Heap.Writes.none {rv : Slot} : heap.Writes rv heap [] :=
  .same (by simp)

theorem Heap.Writes.other {rv other : Slot} {held : List ℕ}
    (hwrites : heap.Writes rv heap' held) (hother : other.Allocated heap)
    (hunshared : ∀ cell, rv = .user cell → cell ∉ other.cells) :
    other.denote heap' = other.denote heap ∧ other.Allocated heap' := by
  constructor
  · apply Slot.denote_congr
    intro cell hcell
    apply hwrites.kept cell (hother cell hcell)
    intro hrv
    exact hunshared cell hrv hcell
  · intro cell hcell
    exact Nat.lt_of_lt_of_le (hother cell hcell) hwrites.size_le

theorem setInternZval_writes {rv : Slot} (hrv : rv.Allocated heap)
    (val : WrappedZval) :
    heap.Writes rv (heap.setInternZval rv val).1
      (heap.setInternZval rv val).2.cells := by
  cases rv with
  | user cell =>
      refine ⟨Nat.le_refl _, ?_, hrv⟩
      intro other _ hother
      have hne : other ≠ cell := by
        rintro rfl
        exact hother rfl
      simp [Heap.setInternZval, Heap.store, hne]
  | _ =>
      refine ⟨Nat.le_succ _, ?_, by simp [Heap.setInternZval, Slot.cells]⟩
      intro other hother _
      have hne : other ≠ heap.size := Nat.ne_of_lt hother
      simp [Heap.setInternZval, Heap.store, hne]

theorem valueFromZval_writes {context : Option ℕ} {val : Zval} {rv : Slot}
    {out : Heap × Slot} (hrv : rv.Allocated heap)
    (hconvert : heap.valueFromZval context val rv = .ok out) :
    heap.Writes rv out.1 out.2.cells := by
  cases val with
  | resource handle => simp [Heap.valueFromZval] at hconvert
  | reference target => simp [Heap.valueFromZval] at hconvert
  | indirect slot => simp [Heap.valueFromZval] at hconvert
  | array buckets =>
      obtain rfl := Except.ok.inj hconvert
      exact setInternZval_writes hrv _
  | object handle =>
      obtain rfl := Except.ok.inj hconvert
      exact setInternZval_writes hrv _
  | undef =>
      obtain rfl := Except.ok.inj hconvert
      exact .same hrv
  | null =>
      obtain rfl := Except.ok.inj hconvert
      exact .same hrv
  | _ =>
      obtain rfl := Except.ok.inj hconvert
      exact .none

/-! ## What a handler writes -/

abbrev WritesInto (heap : Heap) (rv : Slot) {Out : Type}
    (held : Out → List ℕ) (handler : Handler (Heap × Out)) : Prop :=
  handler.Ensures (fun _ => True) fun out => heap.Writes rv out.1 (held out.2)

def stepCells (step : Bool × SlotIterator S) : List ℕ :=
  step.2.cur.cells

theorem convertOn_ok {context : Option ℕ} {val : Zval} {rv : Slot}
    {out : Heap × Slot}
    (hout : (convertOn heap context val rv).result = .ok out) :
    heap.valueFromZval context val rv = .ok out := by
  cases hconvert : heap.valueFromZval context val rv with
  | error error => simp [convertOn, hconvert, Except.mapError] at hout
  | ok result =>
      simpa [convertOn, hconvert, Except.mapError] using hout

theorem convertOn_writes {rv : Slot} (hrv : rv.Allocated heap)
    (context : Option ℕ) (val : Zval) :
    WritesInto heap rv Slot.cells (convertOn heap context val rv) where
  calls := fun _ _ => trivial
  result := fun _ hout => valueFromZval_writes hrv (convertOn_ok hout)

theorem stringCtorOn_always (context : Option ℕ) (text : Bytes) :
    (stringCtorOn context text).Ensures (fun _ => True) fun _ => True :=
  ⟨fun _ _ => trivial, fun _ _ => trivial⟩

theorem deliver_writes {it : SlotIterator S} (hcur : it.cur.Allocated heap)
    (context : Option ℕ) (entry : Zval) (rest : HashTable) :
    WritesInto heap it.cur stepCells
      (stdZvalDeliver heap context it entry rest) := by
  apply (convertOn_writes hcur context entry).bind
  intro out hout
  exact Traced.ensures_pure hout

theorem iteratorArray_writes {it : SlotIterator S}
    (hcur : it.cur.Allocated heap) (table : HashTable) :
    WritesInto heap it.cur stepCells (stdZvalIteratorArray heap it table) := by
  rcases table with _ | ⟨⟨name | number, entry⟩, rest⟩
  · exact Traced.ensures_pure .none
  · have hkeyed : Slot.Allocated
        { it with key := some name, index := 0 }.cur heap := hcur
    apply (stringCtorOn_always _ name).bind
    intro _ _
    exact deliver_writes hkeyed _ entry rest
  · have hindexed : Slot.Allocated
        { it with key := none, index := number }.cur heap := hcur
    exact deliver_writes hindexed _ entry rest

/-- The key is fetched behind the conversion, and leaves the value alone. -/
theorem fetchKey_keeps (env : HandlerEnv S) (context : Option ℕ)
    (it : SlotIterator S) (funcs : IteratorFuncs S) (zit : S) :
    (stdZvalFetchKey env context it funcs zit).Ensures (fun _ => True)
      fun out => out.1.cur = it.cur := by
  unfold stdZvalFetchKey
  split
  next =>
    split
    next => exact Traced.ensures_pure rfl
    next =>
      apply (stringCtorOn_always context _).bind
      intro _ _
      exact Traced.ensures_pure rfl
  next => exact Traced.ensures_pure rfl

theorem iteratorObject_writes {it : SlotIterator S}
    (hcur : it.cur.Allocated heap) (funcs : IteratorFuncs S) (zit : S) :
    WritesInto heap it.cur stepCells
      (stdZvalIteratorObject env heap it funcs zit) := by
  unfold stdZvalIteratorObject
  split
  next => exact Traced.ensures_pure .none
  next => exact Traced.ensures_pure .none
  next =>
    split
    next => exact Traced.ensures_pure .none
    next val zit' _ =>
      apply (convertOn_writes hcur _ val).bind
      intro converted hconverted
      apply (fetchKey_keeps env _ _ funcs zit').bind
      intro fetched hkept
      have hclosed : heap.Writes it.cur converted.1 [] :=
        ⟨hconverted.size_le, hconverted.kept, by simp⟩
      simp only
      split
      next => exact Traced.ensures_pure hclosed
      next => exact Traced.ensures_pure hclosed
      next =>
        unfold stdZvalMoveForward
        split
        next => exact Traced.ensures_pure hclosed
        next =>
          apply Traced.ensures_pure
          simpa only [stepCells, hkept] using hconverted

theorem advance_writes {it : SlotIterator S} (hcur : it.cur.Allocated heap) :
    WritesInto heap it.cur stepCells (it.advance env heap) := by
  unfold SlotIterator.advance
  split
  next => exact Traced.ensures_pure (.same hcur)
  next => exact iteratorArray_writes hcur _
  next => exact iteratorObject_writes hcur _ _

theorem iteratorInit_writes {it : SlotIterator S}
    (hcur : it.cur.Allocated heap) (cell : ℕ) :
    WritesInto heap it.cur stepCells (stdZvalIteratorInit env heap it cell) := by
  have hobject : ∀ (started : SlotIterator S) (funcs : IteratorFuncs S)
      (zit : S), started.cur = it.cur → WritesInto heap it.cur stepCells
        (stdZvalIteratorObject env heap started funcs zit) := by
    intro started funcs zit hstarted
    rw [← hstarted] at hcur ⊢
    exact iteratorObject_writes hcur funcs zit
  have htable : ∀ (started : SlotIterator S) (table : HashTable),
      started.cur = it.cur → WritesInto heap it.cur stepCells
        (stdZvalIteratorArray heap started table) := by
    intro started table hstarted
    rw [← hstarted] at hcur ⊢
    exact iteratorArray_writes hcur table
  unfold stdZvalIteratorInit stdZvalInitTraversable
  split
  next =>
    split
    next =>
      split
      next => exact ⟨by simp, by simp⟩
      next =>
        split
        next =>
          split
          next => exact Traced.ensures_pure (.same hcur)
          next => exact hobject _ _ _ rfl
        next => exact hobject _ _ _ rfl
    next => exact htable _ _ rfl
    next => exact Traced.ensures_pure (.same hcur)
  next => exact htable _ _ rfl
  next => exact Traced.ensures_pure (.same hcur)

/-! ## Callers -/

/-- The places which hold a value for a caller. -/
inductive Place where
  | slot (number : ℕ)
  | current (iterator : ℕ)
  deriving DecidableEq

def HandlerState.held (state : HandlerState S) : Place → Slot
  | .slot number => state.slots number
  | .current iterator => (state.iterators iterator).cur

/-- No other place points to the cell of this one. -/
def HandlerState.Unshared (state : HandlerState S) (place : Place) : Prop :=
  ∀ cell, state.held place = .user cell → ∀ other, other ≠ place →
    cell ∉ (state.held other).cells

/-- Where the result of a conversion goes. -/
def HandlerEvent.target : HandlerEvent → Option Place
  | .write _ slot _ => some (.slot slot)
  | .mapFind _ _ target => some (.slot target)
  | .arrayFind _ _ target => some (.slot target)
  | .call _ _ _ target => some (.slot target)
  | .iteratorInit _ iterator => some (.current iterator)
  | .iteratorNext iterator => some (.current iterator)
  | .destroy _ => none
  | .copy _ _ => none
  | .type _ => none
  | .current _ _ => none

/-- A call goes to the object in the cell, and an iteration goes on over the
cell with which it was started. -/
def HandlerState.Steady (state : HandlerState S) : HandlerEvent → Prop
  | .call _ slot _ _ =>
      ∀ cell, state.slots slot = .user cell →
        ∀ called ∈ (state.heap.cells cell).fcc, ∀ handle,
          (state.heap.cells cell).intern.zval = .object handle →
            called = handle
  | .iteratorNext iterator =>
      (state.iterators iterator).next = .void ∨
        state.slots (state.iterators iterator).value =
          .user (state.iterators iterator).cell
  | _ => True

structure HandlerState.Separates (state : HandlerState S)
    (event : HandlerEvent) : Prop where
  unshared : ∀ place, event.target = some place → state.Unshared place
  steady : state.Steady event

/-- A caller which holds values themselves. -/
structure ValueState (S : Type) where
  slots : ℕ → Value
  iterators : ℕ → ValueIterator S

namespace ValueState

def update (state : ValueState S) (target : ℕ) (value : Value) :
    ValueState S :=
  { state with slots := Function.update state.slots target value }

def found (state : ValueState S) (target : ℕ) :
    Except LibError (Option Value) → ValueState S
  | .ok (some value) => state.update target value
  | .ok none => state
  | .error _ => state

def convert (state : ValueState S) (target : ℕ) (val : Zval) : ValueState S :=
  state.found target
    ((handlebarsValueFromZval val (state.slots target)).map some)

def called (env : HandlerEnv S) (state : ValueState S) (target : ℕ)
    (ret : ℕ → Zval) : Value → ValueState S
  | .user (.object handle) =>
      if env.isCallable handle then state.convert target (ret handle)
      else state
  | _ => state

def iterated (state : ValueState S) (iterator : ℕ) :
    IterationStep S → ValueState S
  | .ok (_, it) =>
      { state with iterators := Function.update state.iterators iterator it }
  | .error _ => state

def perform (env : HandlerEnv S) (state : ValueState S) :
    HandlerEvent → ValueState S
  | .write _ slot val => state.convert slot val
  | .destroy slot => state.update slot .null
  | .copy source target => state.update target (state.slots source)
  | .type _ => state
  | .mapFind slot key target =>
      match state.slots slot with
      | .user intern =>
          state.found target (handlebarsStdZvalMapFind env.objects intern key
            (state.slots target))
      | _ => state
  | .arrayFind slot index target =>
      match state.slots slot with
      | .user intern =>
          state.found target
            (handlebarsStdZvalArrayFind intern index (state.slots target))
      | _ => state
  | .call _ slot ret target =>
      state.called env target ret (state.slots slot)
  | .iteratorInit slot iterator =>
      match state.slots slot with
      | .user intern =>
          state.iterated iterator (handlebarsStdZvalIteratorInit env.iteration
            (state.iterators iterator) intern)
      | _ => state
  | .iteratorNext iterator =>
      state.iterated iterator
        ((state.iterators iterator).advance env.iteration)
  | .current iterator target =>
      state.update target (state.iterators iterator).cur

def run (env : HandlerEnv S) (state : ValueState S)
    (events : List HandlerEvent) : ValueState S :=
  events.foldl (perform env) state

end ValueState

/-- The slots denote the values, and the iterators are at the same element. -/
structure HandlerState.Shows (state : HandlerState S) (values : ValueState S) :
    Prop where
  slots : ∀ number, (state.slots number).denote state.heap =
    values.slots number
  iterators : ∀ iterator,
    (state.iterators iterator).Shows state.heap (values.iterators iterator)

/-- What the events keep. -/
structure HandlerState.Refines (env : HandlerEnv S) (state : HandlerState S)
    (values : ValueState S) : Prop where
  sound : state.heap.Sound env
  allocated : ∀ place, (state.held place).Allocated state.heap
  shown : state.Shows values

theorem mapFind_eq_convertEntry (env : HandlerEnv S) (intern : Zval)
    (key : Bytes) (rv : Value) :
    handlebarsStdZvalMapFind env.objects intern key rv =
      convertEntry (mapEntry env intern key) rv := by
  cases intern <;> rfl

/-! ## One event -/

namespace HandlerState.Refines

variable {state : HandlerState S} {values : ValueState S}

/-- A place is not affected by what goes on in the heap. -/
structure Kept (heap heap' : Heap) (slot : Slot) : Prop where
  denotes : slot.denote heap' = slot.denote heap
  allocated : slot.Allocated heap'

theorem intoSlot (hrefines : state.Refines env values) {target : ℕ}
    {rv : Slot} (hsound : heap'.Sound env) (hrv : rv.Allocated heap')
    (hkept : ∀ place, place ≠ .slot target →
      Kept state.heap heap' (state.held place)) :
    HandlerState.Refines env
      (HandlerState.update { state with heap := heap' } target rv)
      (values.update target (rv.denote heap')) where
  sound := hsound
  allocated := by
    intro place
    cases place with
    | current iterator => exact (hkept (.current iterator) (by simp)).allocated
    | slot number =>
        by_cases heq : number = target
        · subst number
          simpa [HandlerState.held, HandlerState.update] using hrv
        · simpa [HandlerState.held, HandlerState.update, heq] using
            (hkept (.slot number) (by simpa using heq)).allocated
  shown := by
    constructor
    · intro number
      by_cases heq : number = target
      · subst number
        simp [HandlerState.update, ValueState.update]
      · have hother := (hkept (.slot number) (by simpa using heq)).denotes
        have hshown := hrefines.shown.slots number
        simp only [HandlerState.update, ValueState.update,
          Function.update_of_ne heq]
        exact hother.trans hshown
    · intro iterator
      have hother := (hkept (.current iterator) (by simp)).denotes
      have hshows := hrefines.shown.iterators iterator
      exact ⟨hother.trans hshows.cur, hshows.key, hshows.index, hshows.next⟩

theorem intoIterator (hrefines : state.Refines env values) {iterator : ℕ}
    {it : SlotIterator S} {seen : ValueIterator S}
    (hsound : heap'.Sound env) (hcur : it.cur.Allocated heap')
    (hshows : it.Shows heap' seen)
    (hkept : ∀ place, place ≠ .current iterator →
      Kept state.heap heap' (state.held place)) :
    HandlerState.Refines env
      { state with
        heap := heap'
        iterators := Function.update state.iterators iterator it }
      { values with
        iterators := Function.update values.iterators iterator seen } where
  sound := hsound
  allocated := by
    intro place
    cases place with
    | slot number => exact (hkept (.slot number) (by simp)).allocated
    | current other =>
        by_cases heq : other = iterator
        · subst other
          simpa [HandlerState.held] using hcur
        · simpa [HandlerState.held, heq] using
            (hkept (.current other) (by simpa using heq)).allocated
  shown := by
    constructor
    · intro number
      have hother := (hkept (.slot number) (by simp)).denotes
      exact hother.trans (hrefines.shown.slots number)
    · intro other
      by_cases heq : other = iterator
      · subst other
        simpa using hshows
      · have hother := (hkept (.current other) (by simpa using heq)).denotes
        have hbefore := hrefines.shown.iterators other
        simp only [Function.update_of_ne heq]
        exact ⟨hother.trans hbefore.cur, hbefore.key, hbefore.index,
          hbefore.next⟩

/-- A conversion into a place which shares its cell with no other one. -/
theorem kept_of_writes (hrefines : state.Refines env values) {place : Place}
    (hunshared : state.Unshared place) {held : List ℕ}
    (hwrites : state.heap.Writes (state.held place) heap' held) (other : Place)
    (hother : other ≠ place) : Kept state.heap heap' (state.held other) := by
  obtain ⟨hdenotes, hallocated⟩ := hwrites.other (hrefines.allocated other)
    fun cell hcell => hunshared cell hcell other hother
  exact ⟨hdenotes, hallocated⟩

theorem kept_same (hrefines : state.Refines env values) (place : Place) :
    Kept state.heap state.heap (state.held place) :=
  ⟨rfl, hrefines.allocated place⟩

/-- The caches of a cell are not seen. -/
theorem cached (hrefines : state.Refines env values) {cell : ℕ} {obj : Cell}
    (hintern : obj.intern = (state.heap.cells cell).intern)
    (hsound : (state.heap.store cell obj).Sound env) :
    HandlerState.Refines env
      { state with heap := state.heap.store cell obj } values := by
  have hdenotes : ∀ slot : Slot,
      slot.denote (state.heap.store cell obj) = slot.denote state.heap := by
    intro slot
    apply Slot.denote_congr
    intro other _
    by_cases heq : other = cell
    · subst other
      simp [Heap.store, hintern]
    · simp [Heap.store, heq]
  refine ⟨hsound, hrefines.allocated, ?_, ?_⟩
  · intro number
    exact (hdenotes _).trans (hrefines.shown.slots number)
  · intro iterator
    have hshows := hrefines.shown.iterators iterator
    exact ⟨(hdenotes _).trans hshows.cur, hshows.key, hshows.index,
      hshows.next⟩

theorem type (hrefines : state.Refines env values) (cell : ℕ) :
    HandlerState.Refines env
      { state with heap := (stdZvalType env state.heap cell).1 } values := by
  have hsound := hrefines.sound.type cell
  by_cases harray : (state.heap.cells cell).intern.zval.zType = .isArray
  · simp only [stdZvalType, if_pos harray] at hsound ⊢
    exact hrefines.cached rfl hsound
  · simp only [stdZvalType, if_neg harray] at hsound ⊢
    exact hrefines.cached rfl hsound

theorem callable_eq (hrefines : state.Refines env values) {cell handle : ℕ}
    (hobject : (state.heap.cells cell).intern.zval = .object handle) :
    (cachedCallable env state.heap cell).2 = env.isCallable handle := by
  unfold cachedCallable
  cases hsome : (state.heap.cells cell).callable with
  | none => simp [hsome, hobject, phpHandlebarsIsCallable]
  | some cached =>
      have hcached := (hrefines.sound cell).callable cached hsome
      simp [hsome, hcached, hobject, phpHandlebarsIsCallable]

theorem found (hrefines : state.Refines env values) {target : ℕ}
    (hunshared : state.Unshared (.slot target)) (context : Option ℕ)
    (entry : Option Zval) :
    HandlerState.Refines env
      (state.found target
        (convertFound state.heap context entry (state.slots target)))
      (values.found target (convertEntry entry (values.slots target))) := by
  cases entry with
  | none => exact hrefines
  | some entry =>
      rw [convertEntry, ← hrefines.shown.slots target]
      cases hresult : (convertOn state.heap context entry
          (state.slots target)).result with
      | ok out =>
          have hconvert := convertOn_ok hresult
          have hwrites := valueFromZval_writes
            (hrefines.allocated (.slot target)) hconvert
          rw [convertFound, Traced.bind_of_ok hresult,
            valueFromZval_ok_denote hconvert]
          exact hrefines.intoSlot
            (convertOn_sound hrefines.sound hresult) hwrites.allocated
            (hrefines.kept_of_writes hunshared hwrites)
      | error fault =>
          rw [convertFound, Traced.bind_of_error hresult]
          -- the value is not converted either, and both stay as they are
          cases hvalue : handlebarsValueFromZval entry
              ((state.slots target).denote state.heap) with
          | error error => exact hrefines
          | ok value =>
              obtain ⟨_, _, hok, _⟩ := convertOn_of_ok hvalue context
              rw [hresult] at hok
              cases hok

theorem convert (hrefines : state.Refines env values) {target : ℕ}
    (hunshared : state.Unshared (.slot target)) (context : Option ℕ)
    (val : Zval) :
    HandlerState.Refines env (state.convert context target val)
      (values.convert target val) := by
  have hsame : state.convert context target val = state.found target
      (convertFound state.heap context (some val) (state.slots target)) := by
    unfold HandlerState.convert HandlerState.found
    cases hresult : (convertOn state.heap context val
        (state.slots target)).result with
    | ok out =>
        rw [convertFound, Traced.bind_of_ok hresult]
        rfl
    | error fault => rw [convertFound, Traced.bind_of_error hresult]
  rw [hsame]
  exact hrefines.found hunshared context (some val)

theorem throughFcc (hrefines : state.Refines env values) (cell handle : ℕ)
    (ret : ℕ → Zval) :
    HandlerState.Refines env
      { state with heap := (callThroughFcc env state.heap cell handle ret).1 }
      values :=
  hrefines.cached rfl (hrefines.sound.store cell (hrefines.sound cell).fcc)

/-- The function which a call finds is the one of the object. -/
theorem called_eq {cell handle : ℕ} (ret : ℕ → Zval)
    (hfcc : ∀ called ∈ (heap.cells cell).fcc, called = handle) :
    (callThroughFcc env heap cell handle ret).2 = ret handle := by
  have hcalled : (heap.cells cell).fcc.getD handle = handle := by
    cases hsome : (heap.cells cell).fcc with
    | none => rfl
    | some called => exact hfcc called hsome
  exact congrArg ret hcalled

theorem call (hrefines : state.Refines env values) {cell target : ℕ}
    (hunshared : state.Unshared (.slot target)) (context : Option ℕ)
    (ret : ℕ → Zval)
    (hsteady : ∀ called ∈ (state.heap.cells cell).fcc, ∀ handle,
      (state.heap.cells cell).intern.zval = .object handle →
        called = handle) :
    HandlerState.Refines env
      (state.called context target (stdZvalCall env state.heap cell ret))
      (values.called env target ret
        (.user (state.heap.cells cell).intern.zval)) := by
  cases hobject : (state.heap.cells cell).intern.zval with
  | object handle =>
      -- the cache is filled in first, whether there is a call or not
      have hcached : HandlerState.Refines env
          { state with heap := (cachedCallable env state.heap cell).1 }
          values :=
        hrefines.cached rfl (hrefines.sound.cachedCallable cell)
      simp only [stdZvalCall, hobject, ValueState.called,
        hrefines.callable_eq hobject]
      cases env.isCallable handle with
      | false => exact hcached
      | true =>
          have hfcc : ∀ called ∈
              ((cachedCallable env state.heap cell).1.cells cell).fcc,
              called = handle := by
            intro called hcalled
            refine hsteady called ?_ handle hobject
            simpa [cachedCallable, Heap.store] using hcalled
          have hcalled : (callThroughFcc env
              (cachedCallable env state.heap cell).1 cell handle ret).2 =
                ret handle :=
            called_eq ret hfcc
          simp only [if_true, HandlerState.called, hcalled]
          have hthrough := hcached.throughFcc cell handle ret
          exact hthrough.convert hunshared context (ret handle)
  | _ =>
      simpa [stdZvalCall, hobject, HandlerState.called, ValueState.called]
        using hrefines

theorem iterated (hrefines : state.Refines env values) {iterator : ℕ}
    (hunshared : state.Unshared (.current iterator))
    {handler : Handler (SlotStep S)} {step : IterationStep S}
    (hsound : WithoutContext env handler)
    (hwrites : WritesInto state.heap (state.iterators iterator).cur stepCells
      handler)
    (hshows : StepShows handler.result step) :
    HandlerState.Refines env (state.iterated iterator handler)
      (values.iterated iterator step) := by
  unfold HandlerState.iterated
  cases hresult : handler.result with
  | error fault =>
      rw [hresult] at hshows
      cases hshows <;> exact hrefines
  | ok out =>
      have hafter := hwrites.result out hresult
      have hsound := hsound.result out hresult
      rw [hresult] at hshows
      cases hshows with
      | step hshows =>
          exact hrefines.intoIterator hsound hafter.allocated hshows
            (hrefines.kept_of_writes hunshared hafter)

theorem assign (hrefines : state.Refines env values) (target : ℕ)
    (place : Place) :
    HandlerState.Refines env (state.update target (state.held place))
      (values.update target ((state.held place).denote state.heap)) :=
  hrefines.intoSlot hrefines.sound (hrefines.allocated place)
    fun other _ => hrefines.kept_same other

theorem perform (hrefines : state.Refines env values) (event : HandlerEvent)
    (hseparates : state.Separates event) :
    HandlerState.Refines env (state.perform env event)
      (values.perform env event) := by
  cases event with
  | write context slot val =>
      exact hrefines.convert (hseparates.unshared _ rfl) context val
  | destroy slot =>
      exact hrefines.intoSlot hrefines.sound
        (by simp [Slot.Allocated, Slot.cells])
        fun other _ => hrefines.kept_same other
  | copy source target =>
      rw [ValueState.perform, ← hrefines.shown.slots source]
      exact hrefines.assign target (.slot source)
  | current iterator target =>
      rw [ValueState.perform, ← (hrefines.shown.iterators iterator).cur]
      exact hrefines.assign target (.current iterator)
  | type slot =>
      simp only [HandlerState.perform]
      cases state.slots slot with
      | user cell => exact hrefines.type cell
      | _ => exact hrefines
  | mapFind slot key target =>
      simp only [HandlerState.perform, ValueState.perform]
      rw [← hrefines.shown.slots slot]
      cases state.slots slot with
      | user cell =>
          simp only [Slot.denote, mapFind_eq_convertEntry env]
          exact hrefines.found (hseparates.unshared _ rfl) _ _
      | _ => exact hrefines
  | arrayFind slot index target =>
      simp only [HandlerState.perform, ValueState.perform]
      rw [← hrefines.shown.slots slot]
      cases state.slots slot with
      | user cell =>
          simp only [Slot.denote]
          exact hrefines.found (hseparates.unshared _ rfl) _ _
      | _ => exact hrefines
  | call context slot ret target =>
      simp only [HandlerState.perform, ValueState.perform]
      rw [← hrefines.shown.slots slot]
      cases hslot : state.slots slot with
      | user cell =>
          exact hrefines.call (hseparates.unshared _ rfl) context ret
            (hseparates.steady cell hslot)
      | _ => exact hrefines
  | iteratorInit slot iterator =>
      simp only [HandlerState.perform, ValueState.perform]
      rw [← hrefines.shown.slots slot]
      cases state.slots slot with
      | user cell =>
          simp only [Slot.denote]
          have hshows := hrefines.shown.iterators iterator
          let it := { state.iterators iterator with value := slot }
          have hcur : it.cur.Allocated state.heap :=
            hrefines.allocated (.current iterator)
          have hlooked : it.Shows state.heap (values.iterators iterator) :=
            ⟨hshows.cur, hshows.key, hshows.index, hshows.next⟩
          exact hrefines.iterated (hseparates.unshared _ rfl)
            (iteratorInit_withoutContext hrefines.sound it cell)
            (iteratorInit_writes hcur cell)
            (iteratorInit_shows hlooked cell)
      | _ => exact hrefines
  | iteratorNext iterator =>
      have hshows := hrefines.shown.iterators iterator
      simp only [HandlerState.perform, ValueState.perform]
      cases hslot : state.slots (state.iterators iterator).value with
      | user cell =>
          let it := { state.iterators iterator with cell := cell }
          have hcur : it.cur.Allocated state.heap :=
            hrefines.allocated (.current iterator)
          have hlooked : it.Shows state.heap (values.iterators iterator) :=
            ⟨hshows.cur, hshows.key, hshows.index, hshows.next⟩
          exact hrefines.iterated (hseparates.unshared _ rfl)
            (advance_withoutContext hrefines.sound it)
            (advance_writes hcur) (advance_shows hlooked)
      | _ =>
          have hvoid : (values.iterators iterator).next = .void := by
            rw [← hshows.next]
            simpa [HandlerState.Steady, hslot] using hseparates.steady
          rw [advance_of_void hvoid]
          simpa [ValueState.iterated] using hrefines

end HandlerState.Refines

/-! ## Runs -/

def newIterator (S : Type) : SlotIterator S where
  value := 0
  cell := 0
  cur := .null
  key := none
  index := 0
  next := .void

def newCaller (S : Type) : HandlerState S :=
  .start (fun _ => .null) fun _ => newIterator S

def newValueCaller (S : Type) : ValueState S where
  slots := fun _ => .null
  iterators := fun _ => freshIterator S

theorem newCaller_refines (env : HandlerEnv S) :
    (newCaller S).Refines env (newValueCaller S) where
  sound := empty_sound env
  allocated := by
    intro place
    cases place <;>
      simp [HandlerState.held, newCaller, HandlerState.start, newIterator,
        Slot.Allocated, Slot.cells]
  shown := ⟨fun _ => rfl, fun _ => ⟨rfl, rfl, rfl, rfl⟩⟩

def performStep (env : HandlerEnv S) (state : HandlerState S)
    (event : HandlerEvent) : Option (HandlerState S) :=
  some (state.perform env event)

theorem HandlerState.Refines.run {state : HandlerState S}
    {values : ValueState S} (hrefines : state.Refines env values)
    {events : List HandlerEvent}
    (hseparate : EventRun.Allowed (performStep env) HandlerState.Separates
      state events) :
    HandlerState.Refines env (state.run env events) (values.run env events) := by
  induction events generalizing state values with
  | nil => exact hrefines
  | cons event rest ih =>
      obtain ⟨hevent, hrest⟩ := hseparate
      exact ih (hrefines.perform event hevent) (hrest _ rfl)

theorem HandlerState.unshared_of_null {state : HandlerState S}
    {event : HandlerEvent} {place : Place}
    (htarget : event.target = some place)
    (hnull : state.held place = .null) :
    ∀ other, event.target = some other → state.Unshared other := by
  intro other hother cell hcell
  obtain rfl := Option.some.inj (htarget.symm.trans hother)
  simp [hnull] at hcell

/-- A closure in a list is copied out of it and called. -/
def callFromList : List HandlerEvent :=
  [.write none 0 (.array [(.index 0, .object 7)]), .copy 0 1,
    .arrayFind 1 0 2, .call none 2 (fun _ => .long 1) 3]

def callableObjects : HandlerEnv Unit :=
  { noHandlers with isCallable := fun _ => true, isClosure := fun _ => true }

end PhpHandlebars
