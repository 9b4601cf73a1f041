import PhpHandlebars.CellHandlers
import Mathlib.Tactic

/-!
# The handlers on cells and on values

The handlers return and deliver slots.  What these denote is what the handlers
on values return and deliver; the cells add the context of a conversion error.
-/

namespace PhpHandlebars

variable {S : Type} {env : HandlerEnv S} {heap : Heap}
  {it : SlotIterator S} {seen : ValueIterator S}

/-! ## Conversions and lookups -/

theorem convertOn_of_ok {val : Zval} {rv : Slot} {value : Value}
    (hvalue : handlebarsValueFromZval val (rv.denote heap) = .ok value)
    (context : Option ℕ) :
    ∃ heap' rv', (convertOn heap context val rv).result = .ok (heap', rv') ∧
      rv'.denote heap' = value := by
  obtain ⟨heap', rv', hconvert, hdenote⟩ := exists_valueFromZval hvalue context
  refine ⟨heap', rv', ?_, hdenote⟩
  simp [convertOn, hconvert, Except.mapError]

theorem convertOn_of_error {val : Zval} {rv : Slot} {error : LibError}
    (herror : handlebarsValueFromZval val (rv.denote heap) = .error error)
    (context : Option ℕ) :
    (convertOn heap context val rv).result =
      .error (.raised ⟨context, error⟩) := by
  have hdenote := valueFromZval_denote heap context val rv
  rw [herror] at hdenote
  cases hconvert : heap.valueFromZval context val rv with
  | ok out => simp [hconvert, Except.map, Except.mapError] at hdenote
  | error raised =>
      have heq : raised = ⟨context, error⟩ := by
        simpa [hconvert, Except.map, Except.mapError] using hdenote
      simp [convertOn, hconvert, Except.mapError, heq]

def shownEntry (result : Except HandlerFault (Heap × Option Slot)) :
    Option (Option Value) :=
  result.toOption.map fun out => out.2.map fun rv => rv.denote out.1

theorem convertFound_shows (heap : Heap) (context : Option ℕ)
    (entry : Option Zval) (rv : Slot) :
    shownEntry (convertFound heap context entry rv).result =
      (convertEntry entry (rv.denote heap)).toOption := by
  cases entry with
  | none => rfl
  | some entry =>
      rw [convertFound, convertEntry]
      cases hvalue : handlebarsValueFromZval entry (rv.denote heap) with
      | error error =>
          rw [Traced.bind_of_error (convertOn_of_error hvalue context)]
          rfl
      | ok value =>
          obtain ⟨heap', rv', hresult, rfl⟩ := convertOn_of_ok hvalue context
          rw [Traced.bind_of_ok hresult]
          rfl

/-- A lookup in a cell finds what the lookup in its value finds. -/
theorem mapFind_shows (env : HandlerEnv S) (heap : Heap) (cell : ℕ)
    (key : Bytes) (rv : Slot) :
    shownEntry (stdZvalMapFind env heap cell key rv).result =
      (handlebarsStdZvalMapFind env.objects (heap.cells cell).intern.zval key
        (rv.denote heap)).toOption := by
  rw [stdZvalMapFind, convertFound_shows]
  cases (heap.cells cell).intern.zval <;> rfl

theorem arrayFind_shows (heap : Heap) (cell : ℕ) (index : UInt64)
    (rv : Slot) :
    shownEntry (stdZvalArrayFind heap cell index rv).result =
      (handlebarsStdZvalArrayFind (heap.cells cell).intern.zval index
        (rv.denote heap)).toOption :=
  convertFound_shows heap _ _ rv

/-! ## Iterators -/

/-- Both iterators hold the same.  The log of the one over values has no
counterpart. -/
structure SlotIterator.Shows (heap : Heap) (it : SlotIterator S)
    (seen : ValueIterator S) : Prop where
  cur : it.cur.denote heap = seen.cur
  key : it.key = seen.key
  index : it.index = seen.index
  next : it.next = seen.next

inductive StepShows :
    Except HandlerFault (SlotStep S) → IterationStep S → Prop where
  | step {heap : Heap} {found : Bool} {it : SlotIterator S}
      {seen : ValueIterator S} (hshows : it.Shows heap seen) :
      StepShows (.ok (heap, found, it)) (.ok (found, seen))
  | raised (context : Option ℕ) (error : LibError) :
      StepShows (.error (.raised ⟨context, error⟩)) (.error (.raised error))
  | nullIterator : StepShows (.error .nullIterator) (.error .nullIterator)

/-- A conversion raises what the one of the value raises, or goes on with a
slot which denotes its result. -/
theorem convertOn_bind_shows {val : Zval} {rv : Slot} {context : Option ℕ}
    {next : Heap × Slot → Handler (SlotStep S)} {step : IterationStep S}
    (hraised : ∀ error,
      handlebarsValueFromZval val (rv.denote heap) = .error error →
        step = .error (.raised error))
    (hconverted : ∀ value heap' rv',
      handlebarsValueFromZval val (rv.denote heap) = .ok value →
        rv'.denote heap' = value →
          StepShows (next (heap', rv')).result step) :
    StepShows (convertOn heap context val rv >>= next).result step := by
  cases hvalue : handlebarsValueFromZval val (rv.denote heap) with
  | error error =>
      rw [Traced.bind_of_error (convertOn_of_error hvalue context),
        hraised error hvalue]
      exact .raised context error
  | ok value =>
      obtain ⟨heap', rv', hresult, hdenote⟩ := convertOn_of_ok hvalue context
      rw [Traced.bind_of_ok hresult]
      exact hconverted value heap' rv' hvalue hdenote

theorem deliver_shows (hshows : it.Shows heap seen) {context : Option ℕ}
    {entry : Zval} {rest : HashTable} {step : IterationStep S}
    (hraised : ∀ error, handlebarsValueFromZval entry seen.cur =
      .error error → step = .error (.raised error))
    (hdelivered : ∀ value, handlebarsValueFromZval entry seen.cur =
      .ok value →
        step = .ok (true, { seen with cur := value, next := .array rest })) :
    StepShows (stdZvalDeliver heap context it entry rest).result step := by
  rw [← hshows.cur] at hraised hdelivered
  apply convertOn_bind_shows hraised
  intro value heap' cur hvalue hdenote
  rw [hdelivered value hvalue]
  exact .step ⟨hdenote, hshows.key, hshows.index, rfl⟩

theorem iteratorArray_shows (hshows : it.Shows heap seen)
    (table : HashTable) :
    StepShows (stdZvalIteratorArray heap it table).result
      (handlebarsStdZvalIteratorArray seen table) := by
  obtain ⟨hcur, hkey, hindex, hnext⟩ := hshows
  rcases table with _ | ⟨⟨name | number, entry⟩, rest⟩
  · exact .step ⟨rfl, rfl, hindex, rfl⟩
  · have hstart : SlotIterator.Shows heap
        { it with key := some name, index := 0 }
        { seen with key := some name, index := 0 } :=
      ⟨hcur, rfl, rfl, hnext⟩
    apply deliver_shows hstart
    · intro error herror
      exact iteratorArray_cons_error seen _ entry rest herror
    · intro value hvalue
      simp only [handlebarsStdZvalIteratorArray, hvalue]
  · have hstart : SlotIterator.Shows heap
        { it with key := none, index := number }
        { seen with key := none, index := number } :=
      ⟨hcur, rfl, rfl, hnext⟩
    apply deliver_shows hstart
    · intro error herror
      exact iteratorArray_cons_error seen _ entry rest herror
    · intro value hvalue
      simp only [handlebarsStdZvalIteratorArray, hvalue]

theorem fetchKey_shows (env : HandlerEnv S) (hshows : it.Shows heap seen)
    (context : Option ℕ) (funcs : IteratorFuncs S) (zit : S) :
    ∃ it' seen' fetched,
      (stdZvalFetchKey env context it funcs zit).result =
        .ok (it', fetched) ∧
      seen.fetchKey env.iteration funcs zit = (seen', fetched) ∧
      it'.Shows heap seen' := by
  obtain ⟨hcur, hkey, hindex, hnext⟩ := hshows
  unfold stdZvalFetchKey ValueIterator.fetchKey
  cases hfetch : funcs.getCurrentKey with
  | none =>
      exact ⟨_, _, _, rfl, rfl, hcur, rfl, congrArg (· + 1) hindex, hnext⟩
  | some getCurrentKey =>
      cases hfetched : getCurrentKey zit with
      | error thrown =>
          simp only [ValueIterator.call, hfetched]
          exact ⟨_, _, _, rfl, rfl, hcur, hkey, hindex, hnext⟩
      | ok fetched =>
          simp only [ValueIterator.call, hfetched]
          exact ⟨_, _, _, rfl, rfl, hcur, rfl, hindex, hnext⟩

theorem iteratorObject_shows (hshows : it.Shows heap seen)
    (funcs : IteratorFuncs S) (zit : S) :
    StepShows (stdZvalIteratorObject env heap it funcs zit).result
      (handlebarsStdZvalIteratorObject env.iteration seen funcs zit) := by
  obtain ⟨hcur, hkey, hindex, hnext⟩ := hshows
  unfold stdZvalIteratorObject handlebarsStdZvalIteratorObject
  rcases hvalid : funcs.valid zit with thrown | ⟨found, zit⟩
  · simp only [ValueIterator.call, hvalid]
    exact .step ⟨rfl, rfl, hindex, rfl⟩
  cases found with
  | false =>
      simp only [ValueIterator.call, hvalid]
      exact .step ⟨rfl, rfl, hindex, rfl⟩
  | true =>
      rcases hdata : funcs.getCurrentData zit with thrown | ⟨val, zit⟩
      · simp only [ValueIterator.call, hvalid, hdata]
        exact .step ⟨rfl, rfl, hindex, rfl⟩
      simp only [ValueIterator.call, hvalid, hdata]
      apply convertOn_bind_shows
      · intro error herror
        rw [hcur] at herror
        simp only [ValueIterator.record, herror]
      · intro value heap' cur hvalue hdenote
        rw [hcur] at hvalue
        simp only [ValueIterator.record, hvalue]
        have hconverted : SlotIterator.Shows heap'
            { it with cur, key := none }
            { seen with
              cur := value
              key := none
              log := seen.log ++ [.called .valid] ++
                [.called .getCurrentData] } :=
          ⟨hdenote, rfl, hindex, hnext⟩
        obtain ⟨it', seen', fetched, hresult, hseen, hshows'⟩ :=
          fetchKey_shows env hconverted (heap.cells it.cell).ctx funcs zit
        rw [Traced.bind_of_ok hresult, hseen]
        obtain ⟨hcur', hkey', hindex', _⟩ := hshows'
        cases fetched with
        | error thrown => exact .step ⟨rfl, hkey', hindex', rfl⟩
        | ok result =>
            rcases result with ⟨_ | _, zit⟩
            · simp only [stdZvalMoveForward]
              cases funcs.moveForward zit with
              | error thrown => exact .step ⟨rfl, hkey', hindex', rfl⟩
              | ok moved => exact .step ⟨hcur', hkey', hindex', rfl⟩
            · exact .step ⟨rfl, hkey', hindex', rfl⟩

theorem advance_shows (hshows : it.Shows heap seen) :
    StepShows (it.advance env heap).result (seen.advance env.iteration) := by
  unfold SlotIterator.advance ValueIterator.advance
  rw [← hshows.next]
  cases it.next with
  | void => exact .step hshows
  | array rest => exact iteratorArray_shows hshows rest
  | object funcs zit => exact iteratorObject_shows hshows funcs zit

theorem initTraversable_shows (hshows : it.Shows heap seen)
    (funcs : IteratorFuncs S) (getIterator : Except Exception S) :
    StepShows (stdZvalInitTraversable env heap it funcs getIterator).result
      (initTraversable env.iteration seen funcs getIterator) := by
  cases getIterator with
  | error thrown => exact .nullIterator
  | ok zit =>
      obtain ⟨hcur, hkey, hindex, _⟩ := hshows
      unfold stdZvalInitTraversable initTraversable
      cases hrewind : funcs.rewind with
      | none =>
          apply iteratorObject_shows
          exact ⟨hcur, hkey, hindex, rfl⟩
      | some rewind =>
          cases hmoved : rewind zit with
          | error thrown =>
              simp only [ValueIterator.call, hmoved]
              exact .step ⟨hcur, hkey, hindex, rfl⟩
          | ok moved =>
              simp only [ValueIterator.call, hmoved]
              apply iteratorObject_shows
              exact ⟨hcur, hkey, hindex, rfl⟩

/-- Iterating over a cell starts as iterating over its value does. -/
theorem iteratorInit_shows (hshows : it.Shows heap seen) (cell : ℕ) :
    StepShows (stdZvalIteratorInit env heap it cell).result
      (handlebarsStdZvalIteratorInit env.iteration seen
        (heap.cells cell).intern.zval) := by
  obtain ⟨hcur, hkey, hindex, hnext⟩ := hshows
  unfold stdZvalIteratorInit handlebarsStdZvalIteratorInit
  cases (heap.cells cell).intern.zval with
  | array buckets =>
      apply iteratorArray_shows
      exact ⟨hcur, hkey, hindex, rfl⟩
  | object handle =>
      cases hobject : env.iteration.object handle with
      | traversable funcs getIterator =>
          simp only [hobject]
          apply initTraversable_shows
          exact ⟨hcur, hkey, hindex, hnext⟩
      | properties table =>
          simp only [hobject]
          apply iteratorArray_shows
          exact ⟨hcur, hkey, hindex, rfl⟩
      | opaqueObject =>
          simp only [hobject]
          exact .step ⟨hcur, hkey, hindex, rfl⟩
  | _ => exact .step ⟨hcur, hkey, hindex, rfl⟩

/-! ## Passes -/

/-- What the slots denoted when they were delivered. -/
structure SlotPass where
  delivered : List (ArrayKey × Value)
  finished : Bool

def IterationPass.shown (pass : IterationPass S) : SlotPass :=
  ⟨pass.delivered, pass.finished⟩

def SlotIterator.element (heap : Heap) (it : SlotIterator S) :
    ArrayKey × Value :=
  (it.key.elim (.index it.index) .string, it.cur.denote heap)

def continueSlotPass
    (rest : Heap → SlotIterator S → Except HandlerFault SlotPass) :
    Except HandlerFault (SlotStep S) → Except HandlerFault SlotPass
  | .error fault => .error fault
  | .ok (_, false, _) => .ok ⟨[], true⟩
  | .ok (heap, true, it) =>
      (rest heap it).map fun pass =>
        { pass with delivered := it.element heap :: pass.delivered }

def slotPassFrom (env : HandlerEnv S) :
    ℕ → Heap → SlotIterator S → Except HandlerFault SlotPass
  | 0, _, _ => .ok ⟨[], false⟩
  | fuel + 1, heap, it =>
      continueSlotPass (slotPassFrom env fuel) (it.advance env heap).result

/-- `handlebars_std_zval_iterator_init` and at most `fuel` calls of
`it->next`. -/
def slotPass (env : HandlerEnv S) (fuel : ℕ) (heap : Heap)
    (it : SlotIterator S) (cell : ℕ) : Except HandlerFault SlotPass :=
  continueSlotPass (slotPassFrom env fuel)
    (stdZvalIteratorInit env heap it cell).result

theorem SlotIterator.Shows.element (hshows : it.Shows heap seen) :
    it.element heap = seen.element := by
  rw [SlotIterator.element, ValueIterator.element, hshows.key, hshows.index,
    hshows.cur]

theorem continueSlotPass_shows
    {rest : Heap → SlotIterator S → Except HandlerFault SlotPass}
    {rest' : ValueIterator S → Except IterationFault (IterationPass S)}
    (hrest : ∀ heap it seen, it.Shows heap seen →
      (rest heap it).toOption =
        (rest' seen).toOption.map IterationPass.shown)
    {step : Except HandlerFault (SlotStep S)} {step' : IterationStep S}
    (hstep : StepShows step step') :
    (continueSlotPass rest step).toOption =
      (continuePass rest' step').toOption.map IterationPass.shown := by
  cases hstep with
  | raised context error => rfl
  | nullIterator => rfl
  | @step heap found it seen hshows =>
      cases found with
      | false => rfl
      | true =>
          have htail := hrest heap it seen hshows
          have helement := hshows.element
          cases hslots : rest heap it <;> cases hvalues : rest' seen <;>
            simp_all [continueSlotPass, continuePass, Except.map,
              Except.toOption, IterationPass.shown]

theorem slotPassFrom_shows (fuel : ℕ) (hshows : it.Shows heap seen) :
    (slotPassFrom env fuel heap it).toOption =
      (passFrom env.iteration fuel seen).toOption.map
        IterationPass.shown := by
  induction fuel generalizing heap it seen with
  | zero => rfl
  | succ fuel ih =>
      rw [slotPassFrom, passFrom]
      apply continueSlotPass_shows
      · intro heap it seen hshows
        exact ih hshows
      · exact advance_shows hshows

/-- A pass over a cell delivers what a pass over its value delivers. -/
theorem slotPass_shows (fuel : ℕ) (hshows : it.Shows heap seen) (cell : ℕ) :
    (slotPass env fuel heap it cell).toOption =
      (iterationPass env.iteration fuel seen
        (heap.cells cell).intern.zval).toOption.map IterationPass.shown := by
  apply continueSlotPass_shows
  · intro heap it seen hshows
    exact slotPassFrom_shows fuel hshows
  · exact iteratorInit_shows hshows cell

end PhpHandlebars
