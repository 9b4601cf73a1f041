import PhpHandlebars.CellHandlers
import Mathlib.Tactic

/-!
# The context of conversions

The handlers convert what they find with the context of the cell they find it
in.  `set_intern_zval` never sets this context, so that the one with which a
value was converted gets lost at the first step into it.
-/

namespace PhpHandlebars

/-- A step into a wrapped value: a lookup, or an iteration up to one of its
elements. -/
inductive ChainStep (S : Type) where
  | mapFind (key : Bytes) (rv : Slot)
  | arrayFind (index : UInt64) (rv : Slot)
  | iterate (more : ℕ) (it : SlotIterator S)

variable {S : Type} {env : HandlerEnv S}

/-- Further calls of `it->next`, as long as it returns true. -/
def advanceTimes (env : HandlerEnv S) :
    ℕ → SlotStep S → Handler (SlotStep S)
  | more + 1, (heap, true, it) => do
      let step ← it.advance env heap
      advanceTimes env more step
  | _, step => return step

def SlotStep.found (step : SlotStep S) : Heap × Option Slot :=
  (step.1, if step.2.1 then some step.2.2.cur else none)

def iterateTo (env : HandlerEnv S) (heap : Heap) (cell : ℕ) (more : ℕ)
    (it : SlotIterator S) : Handler (Heap × Option Slot) := do
  let first ← stdZvalIteratorInit env heap it cell
  let last ← advanceTimes env more first
  return last.found

def ChainStep.perform (env : HandlerEnv S) (heap : Heap) (cell : ℕ) :
    ChainStep S → Handler (Heap × Option Slot)
  | .mapFind key rv => stdZvalMapFind env heap cell key rv
  | .arrayFind index rv => stdZvalArrayFind heap cell index rv
  | .iterate more it => iterateTo env heap cell more it

/-- The steps of a chain, each from the value which the one before led to.
The library itself takes the steps into values which are not wrapped. -/
def followChain (env : HandlerEnv S) (heap : Heap) :
    Slot → List (ChainStep S) → Handler (Heap × Unit)
  | .user cell, step :: rest => do
      let (heap, found) ← step.perform env heap cell
      match found with
      | some slot => followChain env heap slot rest
      | none => return (heap, ())
  | _, _ => return (heap, ())

/-- The value is converted with `context`, and so is all that is converted in
the steps into it. -/
def InheritsContext (env : HandlerEnv S) (heap : Heap) (context : ℕ)
    (val : Zval) (rv : Slot) (chain : List (ChainStep S)) : Prop :=
  ∀ heap' slot, heap.valueFromZval (some context) val rv = .ok (heap', slot) →
    ∀ call ∈ (followChain env heap' slot chain).calls,
      call.context = some context

/-! ## What a step converts first -/

def firstCurrent (funcs : IteratorFuncs S) (zit : S) : Option Zval :=
  match funcs.valid zit with
  | .ok (true, zit) => (funcs.getCurrentData zit).toOption.map Prod.fst
  | _ => none

def firstOfTraversable (funcs : IteratorFuncs S) :
    Except Exception S → Option Zval
  | .error _ => none
  | .ok zit =>
      match funcs.rewind with
      | some rewind =>
          match rewind zit with
          | .error _ => none
          | .ok (_, zit) => firstCurrent funcs zit
      | none => firstCurrent funcs zit

def firstElement (env : HandlerEnv S) : Zval → Option Zval
  | .array buckets => buckets.head?.map Prod.snd
  | .object handle =>
      match env.iteration.object handle with
      | .traversable funcs getIterator => firstOfTraversable funcs getIterator
      | .properties table => table.head?.map Prod.snd
      | .opaqueObject => none
  | _ => none

def ChainStep.entry (env : HandlerEnv S) (intern : Zval) :
    ChainStep S → Option Zval
  | .mapFind key _ => mapEntry env intern key
  | .arrayFind index _ => indexEntry intern index
  | .iterate _ _ => firstElement env intern

/-- The slot wraps `intern` when `val` was converted into it: an array or an
object is wrapped itself, and null leaves in the slot what it held. -/
def WrappedAfter (heap : Heap) (val : Zval) (rv : Slot) (intern : Zval) :
    Prop :=
  (val.LeavesSlot ∧ rv.denote heap = .user intern) ∨
    ((val.zType = .isArray ∨ val.zType = .isObject) ∧ val = intern)

/-- The first step into the value finds nothing. -/
def NothingToConvert (env : HandlerEnv S) (heap : Heap) (val : Zval)
    (rv : Slot) (chain : List (ChainStep S)) : Prop :=
  ∀ intern step rest, WrappedAfter heap val rv intern →
    chain = step :: rest → step.entry env intern = none

variable {heap : Heap}

theorem advanceTimes_of_ended (more : ℕ) (heap : Heap)
    (it : SlotIterator S) :
    advanceTimes env more (heap, false, it) = pure (heap, false, it) := by
  cases more <;> rfl

/-! ## Calls without a context -/

theorem advanceTimes_withoutContext (more : ℕ) {step : SlotStep S}
    (hheap : step.1.Sound env) :
    WithoutContext env (advanceTimes env more step) := by
  induction more generalizing step with
  | zero => exact pure_withoutContext hheap
  | succ more ih =>
      obtain ⟨heap, found, it⟩ := step
      cases found with
      | false => exact pure_withoutContext hheap
      | true =>
          apply (advance_withoutContext hheap it).bind
          intro step hstep
          exact ih hstep

theorem perform_withoutContext (hheap : heap.Sound env) (cell : ℕ)
    (step : ChainStep S) : WithoutContext env (step.perform env heap cell) := by
  cases step with
  | mapFind key rv =>
      exact convertFound_withoutContext hheap (hheap cell).ctx _ rv
  | arrayFind index rv =>
      exact convertFound_withoutContext hheap (hheap cell).ctx _ rv
  | iterate more it =>
      apply (iteratorInit_withoutContext hheap it cell).bind
      intro step hstep
      apply (advanceTimes_withoutContext more hstep).bind
      intro step hstep
      exact pure_withoutContext hstep

theorem followChain_withoutContext (hheap : heap.Sound env) (slot : Slot)
    (chain : List (ChainStep S)) :
    WithoutContext env (followChain env heap slot chain) := by
  induction chain generalizing heap slot with
  | nil =>
      cases slot <;> exact pure_withoutContext hheap
  | cons step rest ih =>
      cases slot with
      | user cell =>
          apply (perform_withoutContext hheap cell step).bind
          rintro ⟨heap', found⟩ hheap'
          cases found with
          | none => exact pure_withoutContext hheap'
          | some slot => exact ih hheap' slot
      | _ => exact pure_withoutContext hheap

/-! ## Steps without calls -/

/-- A step which finds nothing makes no call, and is the last. -/
structure FindsNothing {Out : Type}
    (handler : Handler (Heap × Option Out)) : Prop where
  calls : handler.calls = []
  result : ∀ heap out, handler.result ≠ .ok (heap, some out)

theorem convertOn_bind_calls {Out : Type} (heap : Heap) (context : Option ℕ)
    (val : Zval) (rv : Slot) (next : Heap × Slot → Handler Out) :
    (convertOn heap context val rv >>= next).calls ≠ [] := by
  have hcalls : (convertOn heap context val rv).calls ≠ [] := by
    simp [convertOn]
  exact Traced.calls_bind_ne_nil hcalls next

theorem convertFound_calls_iff (heap : Heap) (context : Option ℕ)
    (entry : Option Zval) (rv : Slot) :
    (convertFound heap context entry rv).calls = [] ↔ entry = none := by
  cases entry with
  | none => exact iff_of_true rfl rfl
  | some entry =>
      exact iff_of_false (convertOn_bind_calls _ _ _ _ _) (by simp)

theorem convertFound_findsNothing (heap : Heap) (context : Option ℕ)
    (rv : Slot) : FindsNothing (convertFound heap context none rv) where
  calls := rfl
  result := by
    intro heap' out hresult
    simp [convertFound] at hresult

theorem iteratorArray_calls_iff (heap : Heap) (it : SlotIterator S)
    (table : HashTable) :
    (stdZvalIteratorArray heap it table).calls = [] ↔ table = [] := by
  rcases table with _ | ⟨⟨name | number, entry⟩, rest⟩
  · exact iff_of_true rfl rfl
  · have hcalls : (stringCtorOn (heap.cells it.cell).ctx name).calls ≠ [] := by
      simp [stringCtorOn]
    exact iff_of_false (Traced.calls_bind_ne_nil hcalls _) (by simp)
  · exact iff_of_false (convertOn_bind_calls _ _ _ _ _) (by simp)

inductive Unstarted (heap : Heap) : Handler (SlotStep S) → Prop where
  | ended (it : SlotIterator S) : Unstarted heap (pure (heap, false, it))
  | failed (fault : HandlerFault) : Unstarted heap ⟨[], .error fault⟩

theorem iteratorObject_of_none {funcs : IteratorFuncs S} {zit : S}
    (hnone : firstCurrent funcs zit = none) (heap : Heap)
    (it : SlotIterator S) :
    Unstarted heap (stdZvalIteratorObject env heap it funcs zit) := by
  unfold firstCurrent at hnone
  unfold stdZvalIteratorObject
  split
  next => exact .ended _
  next => exact .ended _
  next zit' hvalid =>
    rw [hvalid] at hnone
    cases hdata : funcs.getCurrentData zit' with
    | error thrown => exact .ended _
    | ok data => simp [hdata, Except.toOption] at hnone

theorem iteratorObject_of_some {funcs : IteratorFuncs S} {zit : S}
    {val : Zval} (hsome : firstCurrent funcs zit = some val) (heap : Heap)
    (it : SlotIterator S) :
    (stdZvalIteratorObject env heap it funcs zit).calls ≠ [] := by
  unfold firstCurrent at hsome
  unfold stdZvalIteratorObject
  split at hsome
  next zit' hvalid =>
    cases hdata : funcs.getCurrentData zit' with
    | error thrown => simp [hdata, Except.toOption] at hsome
    | ok data =>
        simp only [hvalid, hdata]
        exact convertOn_bind_calls _ _ _ _ _
  next => simp at hsome

theorem initTraversable_of_none {funcs : IteratorFuncs S}
    {getIterator : Except Exception S}
    (hnone : firstOfTraversable funcs getIterator = none) (heap : Heap)
    (it : SlotIterator S) :
    Unstarted heap (stdZvalInitTraversable env heap it funcs getIterator) := by
  cases getIterator with
  | error thrown => exact .failed _
  | ok zit =>
      unfold firstOfTraversable at hnone
      unfold stdZvalInitTraversable
      cases hrewind : funcs.rewind with
      | none =>
          simp only [hrewind] at hnone ⊢
          exact iteratorObject_of_none hnone heap _
      | some rewind =>
          simp only [hrewind] at hnone ⊢
          cases hmoved : rewind zit with
          | error thrown => exact .ended _
          | ok moved =>
              simp only [hmoved] at hnone
              exact iteratorObject_of_none hnone heap _

theorem initTraversable_of_some {funcs : IteratorFuncs S}
    {getIterator : Except Exception S} {val : Zval}
    (hsome : firstOfTraversable funcs getIterator = some val) (heap : Heap)
    (it : SlotIterator S) :
    (stdZvalInitTraversable env heap it funcs getIterator).calls ≠ [] := by
  cases getIterator with
  | error thrown => simp [firstOfTraversable] at hsome
  | ok zit =>
      unfold firstOfTraversable at hsome
      unfold stdZvalInitTraversable
      cases hrewind : funcs.rewind with
      | none =>
          simp only [hrewind] at hsome ⊢
          exact iteratorObject_of_some hsome heap _
      | some rewind =>
          simp only [hrewind] at hsome ⊢
          cases hmoved : rewind zit with
          | error thrown => simp [hmoved] at hsome
          | ok moved =>
              simp only [hmoved] at hsome
              exact iteratorObject_of_some hsome heap _

theorem iteratorInit_of_none {cell : ℕ} (it : SlotIterator S)
    (hnone : firstElement env (heap.cells cell).intern.zval = none) :
    Unstarted heap (stdZvalIteratorInit env heap it cell) := by
  unfold stdZvalIteratorInit
  cases hzval : (heap.cells cell).intern.zval with
  | array buckets =>
      obtain rfl : buckets = [] := by simpa [firstElement, hzval] using hnone
      exact .ended _
  | object handle =>
      cases hobject : env.iteration.object handle with
      | traversable funcs getIterator =>
          simp only [firstElement, hzval, hobject] at hnone ⊢
          exact initTraversable_of_none hnone heap _
      | properties table =>
          obtain rfl : table = [] := by
            simpa [firstElement, hzval, hobject] using hnone
          simp only [hobject]
          exact .ended _
      | opaqueObject =>
          simp only [hobject]
          exact .ended _
  | _ => exact .ended _

theorem iteratorInit_of_some {cell : ℕ} {val : Zval} (it : SlotIterator S)
    (hsome : firstElement env (heap.cells cell).intern.zval = some val) :
    (stdZvalIteratorInit env heap it cell).calls ≠ [] := by
  unfold stdZvalIteratorInit
  cases hzval : (heap.cells cell).intern.zval with
  | array buckets =>
      have hne : buckets ≠ [] := by
        rintro rfl
        simp [firstElement, hzval] at hsome
      rwa [Ne, iteratorArray_calls_iff]
  | object handle =>
      cases hobject : env.iteration.object handle with
      | traversable funcs getIterator =>
          simp only [firstElement, hzval, hobject] at hsome ⊢
          exact initTraversable_of_some hsome heap _
      | properties table =>
          have hne : table ≠ [] := by
            rintro rfl
            simp [firstElement, hzval, hobject] at hsome
          simp only [hobject]
          rwa [Ne, iteratorArray_calls_iff]
      | opaqueObject => simp [firstElement, hzval, hobject] at hsome
  | _ => simp [firstElement, hzval] at hsome

theorem perform_of_none {cell : ℕ} {step : ChainStep S}
    (hnone : step.entry env (heap.cells cell).intern.zval = none) :
    FindsNothing (step.perform env heap cell) := by
  cases step with
  | mapFind key rv =>
      have hentry : mapEntry env (heap.cells cell).intern.zval key = none :=
        hnone
      simp only [ChainStep.perform, stdZvalMapFind, hentry]
      exact convertFound_findsNothing heap _ rv
  | arrayFind index rv =>
      have hentry : indexEntry (heap.cells cell).intern.zval index = none :=
        hnone
      simp only [ChainStep.perform, stdZvalArrayFind, hentry]
      exact convertFound_findsNothing heap _ rv
  | iterate more it =>
      have hunstarted := iteratorInit_of_none it hnone
      rw [ChainStep.perform, iterateTo]
      generalize stdZvalIteratorInit env heap it cell = init at hunstarted ⊢
      cases hunstarted with
      | ended it' =>
          rw [Traced.bind_of_ok (Traced.pure_result _),
            advanceTimes_of_ended]
          exact ⟨rfl, by rintro _ _ ⟨⟩⟩
      | failed fault => exact ⟨rfl, by rintro _ _ ⟨⟩⟩

theorem perform_of_some {cell : ℕ} {step : ChainStep S} {val : Zval}
    (hsome : step.entry env (heap.cells cell).intern.zval = some val) :
    (step.perform env heap cell).calls ≠ [] := by
  cases step with
  | mapFind key rv =>
      have hne : mapEntry env (heap.cells cell).intern.zval key ≠ none :=
        Option.ne_none_iff_exists'.mpr ⟨val, hsome⟩
      rwa [Ne, ChainStep.perform, stdZvalMapFind, convertFound_calls_iff]
  | arrayFind index rv =>
      have hne : indexEntry (heap.cells cell).intern.zval index ≠ none :=
        Option.ne_none_iff_exists'.mpr ⟨val, hsome⟩
      rwa [Ne, ChainStep.perform, stdZvalArrayFind, convertFound_calls_iff]
  | iterate more it =>
      exact Traced.calls_bind_ne_nil (iteratorInit_of_some it hsome) _

theorem FindsNothing.bind_calls {Out Out' : Type}
    {handler : Handler (Heap × Option Out)}
    (hhandler : FindsNothing handler)
    {next : Heap × Option Out → Handler Out'}
    (hnext : ∀ heap, (next (heap, none)).calls = []) :
    (handler >>= next).calls = [] := by
  cases hresult : handler.result with
  | error fault => rw [Traced.bind_of_error hresult, hhandler.calls]
  | ok result =>
      obtain ⟨heap, found⟩ := result
      cases found with
      | none =>
          rw [Traced.bind_of_ok hresult, hhandler.calls, hnext]
          rfl
      | some out => exact absurd hresult (hhandler.result heap out)

/-- A chain makes no calls exactly when its first step finds nothing. -/
theorem followChain_calls_iff (heap : Heap) (cell : ℕ) (step : ChainStep S)
    (rest : List (ChainStep S)) :
    (followChain env heap (.user cell) (step :: rest)).calls = [] ↔
      step.entry env (heap.cells cell).intern.zval = none := by
  rw [followChain]
  cases hentry : step.entry env (heap.cells cell).intern.zval with
  | none =>
      have hcalls := perform_of_none hentry
      exact iff_of_true (hcalls.bind_calls fun _ => rfl) rfl
  | some val =>
      have hcalls : (step.perform env heap cell).calls ≠ [] :=
        perform_of_some hentry
      exact iff_of_false (Traced.calls_bind_ne_nil hcalls _) (by simp)

/-- The calls of a chain are all made without a context. -/
theorem inheritsContext_iff_calls {env : HandlerEnv S} {heap : Heap}
    (hheap : heap.Sound env) (context : ℕ) (val : Zval) (rv : Slot)
    (chain : List (ChainStep S)) :
    InheritsContext env heap context val rv chain ↔
      ∀ heap' slot,
        heap.valueFromZval (some context) val rv = .ok (heap', slot) →
          (followChain env heap' slot chain).calls = [] := by
  constructor
  · intro hinherits heap' slot hconvert
    have hwithout :=
      followChain_withoutContext (hheap.valueFromZval hconvert) slot chain
    apply List.eq_nil_iff_forall_not_mem.mpr
    intro call hcall
    have hnone : call.context = none := hwithout.calls call hcall
    have hsome := hinherits heap' slot hconvert call hcall
    simp [hnone] at hsome
  · intro hcalls heap' slot hconvert call hcall
    simp [hcalls heap' slot hconvert] at hcall

theorem wrappedAfter_iff (heap : Heap) (val : Zval) (rv : Slot)
    (intern : Zval) :
    WrappedAfter heap val rv intern ↔
      handlebarsValueFromZval val (rv.denote heap) = .ok (.user intern) := by
  cases val <;>
    simp [WrappedAfter, handlebarsValueFromZval, Zval.LeavesSlot, Zval.zType]

theorem nothingToConvert_iff_calls (env : HandlerEnv S) (heap : Heap)
    (context : ℕ) (val : Zval) (rv : Slot) (chain : List (ChainStep S)) :
    NothingToConvert env heap val rv chain ↔
      ∀ heap' slot,
        heap.valueFromZval (some context) val rv = .ok (heap', slot) →
          (followChain env heap' slot chain).calls = [] := by
  constructor
  · intro hnothing heap' slot hconvert
    have hvalue := valueFromZval_ok_denote hconvert
    cases chain with
    | nil => cases slot <;> rfl
    | cons step rest =>
        cases slot with
        | user cell =>
            apply (followChain_calls_iff heap' cell step rest).mpr
            apply hnothing _ step rest _ rfl
            rw [wrappedAfter_iff, hvalue, Slot.denote]
        | _ => rfl
  · intro hcalls intern step rest hwrapped hchain
    have hvalue := (wrappedAfter_iff heap val rv intern).mp hwrapped
    obtain ⟨heap', slot, hconvert, hdenote⟩ :=
      exists_valueFromZval hvalue (some context)
    have hnil := hcalls heap' slot hconvert
    obtain ⟨cell, hslot, hintern⟩ :=
      (slot.denote_eq_user_iff heap' intern).mp hdenote
    rw [hslot, hchain] at hnil
    rw [← hintern]
    exact (followChain_calls_iff heap' cell step rest).mp hnil

/-- In every state that the handlers reach, a value hands on the context of
its conversion only where nothing is converted. -/
theorem context_inherited_iff (env : HandlerEnv S) (slots : ℕ → Slot)
    (iterators : ℕ → SlotIterator S) (events : List HandlerEvent)
    (context : ℕ) (val : Zval) (rv : Slot) (chain : List (ChainStep S)) :
    let heap := ((HandlerState.start slots iterators).run env events).heap
    InheritsContext env heap context val rv chain ↔
      NothingToConvert env heap val rv chain := by
  intro heap
  have hheap : heap.Sound env :=
    HandlerState.run_sound env slots iterators events
  rw [inheritsContext_iff_calls hheap,
    nothingToConvert_iff_calls env heap context]

/-- The `1` of `[1]` is converted without the context of the array. -/
theorem element_converted_without_context :
    ¬ InheritsContext noHandlers .empty 7
      (.array [(.index 0, .long 1)]) .null [.arrayFind 0 .null] := by
  intro hinherits
  have hcall := hinherits _ _ rfl ⟨none, .valueFromZval (.long 1)⟩
    (List.mem_singleton.mpr rfl)
  simp at hcall

end PhpHandlebars
