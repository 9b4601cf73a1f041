import PhpHandlebars.EventRun
import PhpHandlebars.HelperCall
import PhpHandlebars.Traced
import PhpHandlebars.ValueIterator
import PhpHandlebars.ValueLookup
import PhpHandlebars.ValueSlot
import Mathlib.Tactic

/-!
# The handlers of wrapped PHP values

The handlers work on the cell behind a value.  They read the context of their
conversions from it, and keep in it whether the array is a list, whether the
object can be called, and the function which a call has found.
-/

namespace PhpHandlebars

inductive LibOperation where
  | valueFromZval (val : Zval)
  | stringCtor (text : Bytes)

structure LibCall where
  context : Option ℕ
  operation : LibOperation

inductive HandlerFault where
  | raised (error : RaisedOn)
  | nullIterator

abbrev Handler := Traced LibCall HandlerFault

/-- `enum handlebars_value_type`, as far as the handlers answer it. -/
inductive ValueType where
  | array
  | map
  | helper
  deriving DecidableEq

structure HandlerEnv (S : Type) where
  objects : ObjectHandlers
  iteration : IterationEnv S
  isCallable : ℕ → Bool
  isClosure : ℕ → Bool
  /-- what `count` of a `Countable` object returns -/
  countable : ℕ → Option ℤ

def noHandlers : HandlerEnv Unit where
  objects := noObjects
  iteration := noIterators
  isCallable := fun _ => false
  isClosure := fun _ => false
  countable := fun _ => none

variable {S : Type}

def phpHandlebarsIsCallable (env : HandlerEnv S) : Zval → Bool
  | .object handle => env.isCallable handle
  | _ => false

/-! ## Conversions -/

def convertOn (heap : Heap) (context : Option ℕ) (val : Zval) (rv : Slot) :
    Handler (Heap × Slot) :=
  .call ⟨context, .valueFromZval val⟩
    ((heap.valueFromZval context val rv).mapError .raised)

def stringCtorOn (context : Option ℕ) (text : Bytes) : Handler Unit :=
  .call ⟨context, .stringCtor text⟩ (.ok ())

/-! ## Type and count -/

/-- `obj->int_array`, filled in when it is -1. -/
def cachedIntArray (heap : Heap) (cell : ℕ) : Heap × Bool :=
  let obj := heap.cells cell
  let intArray := obj.intArray.getD (phpHandlebarsIsIntArray obj.intern.zval)
  (heap.store cell { obj with intArray := some intArray }, intArray)

/-- `obj->callable`, filled in when it is -1. -/
def cachedCallable (env : HandlerEnv S) (heap : Heap) (cell : ℕ) :
    Heap × Bool :=
  let obj := heap.cells cell
  let callable :=
    obj.callable.getD (phpHandlebarsIsCallable env obj.intern.zval)
  (heap.store cell { obj with callable := some callable }, callable)

/-- A wrapped value is an array or an object. -/
def stdZvalType (env : HandlerEnv S) (heap : Heap) (cell : ℕ) :
    Heap × ValueType :=
  if (heap.cells cell).intern.zval.zType = .isArray then
    let (heap, intArray) := cachedIntArray heap cell
    (heap, if intArray then .array else .map)
  else
    let (heap, callable) := cachedCallable env heap cell
    (heap, if callable then .helper else .map)

def stdZvalCount (env : HandlerEnv S) (heap : Heap) (cell : ℕ) :
    ℤ :=
  match (heap.cells cell).intern.zval with
  | .array buckets => buckets.length
  | .object handle => (env.countable handle).getD (-1)
  | _ => -1

/-! ## Calls -/

/-- `zend_call_function`: `obj->fcc` is filled in when there is no function in
it, and `ret` is what each object would return now. -/
def callThroughFcc (env : HandlerEnv S) (heap : Heap) (cell handle : ℕ)
    (ret : ℕ → Zval) : Heap × Zval :=
  let obj := heap.cells cell
  let called := obj.fcc.getD handle
  (heap.store cell { obj with fcc := fccAfterCall env.isClosure called },
    ret called)

/-- What the helper returns, if it is called. -/
def stdZvalCall (env : HandlerEnv S) (heap : Heap) (cell : ℕ)
    (ret : ℕ → Zval) : Heap × Option Zval :=
  match (heap.cells cell).intern.zval with
  | .object handle =>
      let (heap, callable) := cachedCallable env heap cell
      if callable then
        let (heap, zRet) := callThroughFcc env heap cell handle ret
        (heap, some zRet)
      else (heap, none)
  | _ => (heap, none)

/-! ## Lookups -/

/-- The entry found is converted into `rv`; without one the result is
NULL. -/
def convertFound (heap : Heap) (context : Option ℕ) (entry : Option Zval)
    (rv : Slot) : Handler (Heap × Option Slot) :=
  match entry with
  | some entry => do
      let (heap, rv) ← convertOn heap context entry rv
      return (heap, some rv)
  | none => return (heap, none)

def mapEntry (env : HandlerEnv S) (intern : Zval) (key : Bytes) :
    Option Zval :=
  match intern with
  | .array table => arrayEntry table key
  | .object handle => objectEntry env.objects handle key
  | _ => none

def stdZvalMapFind (env : HandlerEnv S) (heap : Heap) (cell : ℕ)
    (key : Bytes) (rv : Slot) : Handler (Heap × Option Slot) :=
  let obj := heap.cells cell
  convertFound heap obj.ctx (mapEntry env obj.intern.zval key) rv

def stdZvalArrayFind (heap : Heap) (cell : ℕ) (index : UInt64) (rv : Slot) :
    Handler (Heap × Option Slot) :=
  let obj := heap.cells cell
  convertFound heap obj.ctx (indexEntry obj.intern.zval index) rv

/-! ## Iterators -/

/-- `struct handlebars_value_iterator`.  Of `it->value` it is the number of the
slot and the cell which it pointed to when it was last looked at. -/
structure SlotIterator (S : Type) where
  value : ℕ
  cell : ℕ
  cur : Slot
  key : Option Bytes
  index : ℤ
  next : IteratorNext S

abbrev SlotStep (S : Type) := Heap × Bool × SlotIterator S

def SlotIterator.close (it : SlotIterator S) : SlotIterator S :=
  { it with cur := .null, next := .void }

/-- The last part of `handlebars_std_zval_iterator_array`. -/
def stdZvalDeliver (heap : Heap) (context : Option ℕ) (it : SlotIterator S)
    (entry : Zval) (rest : HashTable) : Handler (SlotStep S) := do
  let (heap, cur) ← convertOn heap context entry it.cur
  return (heap, true, { it with cur := cur, next := .array rest })

def stdZvalIteratorArray (heap : Heap) (it : SlotIterator S) :
    HashTable → Handler (SlotStep S)
  | [] => return (heap, false, { it with key := none }.close)
  | (.string name, entry) :: rest => do
      let ctx := (heap.cells it.cell).ctx
      stringCtorOn ctx name
      stdZvalDeliver heap ctx { it with key := some name, index := 0 } entry
        rest
  | (.index number, entry) :: rest =>
      let ctx := (heap.cells it.cell).ctx
      stdZvalDeliver heap ctx { it with key := none, index := number } entry
        rest

/-- The last part of `handlebars_std_zval_iterator_object`. -/
def stdZvalMoveForward (heap : Heap) (it : SlotIterator S)
    (funcs : IteratorFuncs S) (zit : S) : Handler (SlotStep S) :=
  match funcs.moveForward zit with
  | .error _ => return (heap, false, it.close)
  | .ok (_, zit) => return (heap, true, { it with next := .object funcs zit })

/-- The `get_current_key` branch. -/
def stdZvalFetchKey (env : HandlerEnv S) (context : Option ℕ)
    (it : SlotIterator S) (funcs : IteratorFuncs S) (zit : S) :
    Handler (SlotIterator S × Except Exception (Bool × S)) :=
  match funcs.getCurrentKey with
  | some getCurrentKey =>
      match getCurrentKey zit with
      | .error thrown => return (it, .error thrown)
      | .ok (key, zit) => do
          let text := env.iteration.convertToString key
          stringCtorOn context text
          return ({ it with key := some text },
            .ok (env.iteration.convertThrows key, zit))
  | none =>
      return ({ it with key := none, index := it.index + 1 },
        .ok (false, zit))

def stdZvalIteratorObject (env : HandlerEnv S) (heap : Heap)
    (it : SlotIterator S) (funcs : IteratorFuncs S) (zit : S) :
    Handler (SlotStep S) :=
  let ctx := (heap.cells it.cell).ctx
  let it := { it with key := none }
  match funcs.valid zit with
  | .error _ => return (heap, false, it.close)
  | .ok (false, _) => return (heap, false, it.close)
  | .ok (true, zit) =>
      match funcs.getCurrentData zit with
      | .error _ => return (heap, false, it.close)
      | .ok (val, zit) => do
          let (heap, cur) ← convertOn heap ctx val it.cur
          let (it, fetched) ←
            stdZvalFetchKey env ctx { it with cur := cur } funcs zit
          match fetched with
          | .error _ => return (heap, false, it.close)
          | .ok (true, _) => return (heap, false, it.close)
          | .ok (false, zit) => stdZvalMoveForward heap it funcs zit

/-- `it->next(it)`. -/
def SlotIterator.advance (env : HandlerEnv S) (heap : Heap)
    (it : SlotIterator S) : Handler (SlotStep S) :=
  match it.next with
  | .void => return (heap, false, it)
  | .array rest => stdZvalIteratorArray heap it rest
  | .object funcs zit => stdZvalIteratorObject env heap it funcs zit

def stdZvalInitTraversable (env : HandlerEnv S) (heap : Heap)
    (it : SlotIterator S) (funcs : IteratorFuncs S) :
    Except Exception S → Handler (SlotStep S)
  | .error _ => ⟨[], .error .nullIterator⟩
  | .ok zit =>
      match funcs.rewind with
      | some rewind =>
          match rewind zit with
          | .error _ => return (heap, false, { it with next := .void })
          | .ok (_, zit) =>
              stdZvalIteratorObject env heap
                { it with next := .object funcs zit } funcs zit
      | none =>
          stdZvalIteratorObject env heap
            { it with next := .object funcs zit } funcs zit

def stdZvalIteratorInit (env : HandlerEnv S) (heap : Heap)
    (it : SlotIterator S) (cell : ℕ) : Handler (SlotStep S) :=
  let it := { it with cell := cell }
  match (heap.cells cell).intern.zval with
  | .object handle =>
      match env.iteration.object handle with
      | .traversable funcs getIterator =>
          stdZvalInitTraversable env heap it funcs getIterator
      | .properties table =>
          stdZvalIteratorArray heap { it with next := .array table } table
      | .opaqueObject => return (heap, false, { it with next := .void })
  | .array buckets =>
      stdZvalIteratorArray heap { it with next := .array buckets } buckets
  | _ => return (heap, false, { it with next := .void })

/-! ## Sound cells -/

/-- The context of a cell was never set, and its caches say what its value
is. -/
structure Cell.Sound (env : HandlerEnv S) (obj : Cell) : Prop where
  ctx : obj.ctx = none
  intArray : ∀ cached, obj.intArray = some cached →
    cached = phpHandlebarsIsIntArray obj.intern.zval
  callable : ∀ cached, obj.callable = some cached →
    cached = phpHandlebarsIsCallable env obj.intern.zval

def Heap.Sound (env : HandlerEnv S) (heap : Heap) : Prop :=
  ∀ cell, (heap.cells cell).Sound env

variable {env : HandlerEnv S} {heap : Heap}

theorem freshCell_sound (env : HandlerEnv S) (val : WrappedZval) :
    Cell.Sound env ⟨none, none, none, none, val⟩ where
  ctx := rfl
  intArray := by simp
  callable := by simp

/-- The function of a call is not looked at. -/
theorem Cell.Sound.fcc {obj : Cell} (hobj : obj.Sound env)
    {fcc : Option ℕ} : Cell.Sound env { obj with fcc := fcc } :=
  ⟨hobj.ctx, hobj.intArray, hobj.callable⟩

theorem empty_sound (env : HandlerEnv S) : Heap.empty.Sound env :=
  fun _ => freshCell_sound env _

theorem Heap.Sound.store (hheap : heap.Sound env) (cell : ℕ) {obj : Cell}
    (hobj : obj.Sound env) : (heap.store cell obj).Sound env := by
  intro other
  by_cases heq : other = cell
  · subst other
    simpa [Heap.store] using hobj
  · simpa [Heap.store, heq] using hheap other

theorem Heap.Sound.setInternZval (hheap : heap.Sound env) (slot : Slot)
    (val : WrappedZval) : (heap.setInternZval slot val).1.Sound env := by
  cases slot with
  | user cell =>
      have hcell : Cell.Sound env { heap.cells cell with
          callable := none, intArray := none, intern := val } :=
        ⟨(hheap cell).ctx, by simp, by simp⟩
      exact hheap.store cell hcell
  | _ => exact hheap.store heap.size (freshCell_sound env val)

theorem Heap.Sound.valueFromZval (hheap : heap.Sound env)
    {context : Option ℕ} {val : Zval} {rv : Slot} {out : Heap × Slot}
    (hconvert : heap.valueFromZval context val rv = .ok out) :
    out.1.Sound env := by
  cases val with
  | resource handle => simp [Heap.valueFromZval] at hconvert
  | reference target => simp [Heap.valueFromZval] at hconvert
  | indirect slot => simp [Heap.valueFromZval] at hconvert
  | array buckets =>
      obtain rfl := Except.ok.inj hconvert
      exact hheap.setInternZval rv _
  | object handle =>
      obtain rfl := Except.ok.inj hconvert
      exact hheap.setInternZval rv _
  | _ =>
      obtain rfl := Except.ok.inj hconvert
      exact hheap

theorem Heap.Sound.cachedIntArray (hheap : heap.Sound env) (cell : ℕ) :
    (cachedIntArray heap cell).1.Sound env ∧
      (PhpHandlebars.cachedIntArray heap cell).2 =
        phpHandlebarsIsIntArray (heap.cells cell).intern.zval := by
  have hcell := hheap cell
  have hcached : (heap.cells cell).intArray.getD
      (phpHandlebarsIsIntArray (heap.cells cell).intern.zval) =
        phpHandlebarsIsIntArray (heap.cells cell).intern.zval := by
    cases hsome : (heap.cells cell).intArray with
    | none => rfl
    | some cached => exact hcell.intArray cached hsome
  constructor
  · apply hheap.store
    constructor
    · exact hcell.ctx
    · rintro cached ⟨rfl⟩
      exact hcached
    · exact hcell.callable
  · exact hcached

theorem Heap.Sound.cachedCallable (hheap : heap.Sound env) (cell : ℕ) :
    (cachedCallable env heap cell).1.Sound env := by
  have hcell := hheap cell
  apply hheap.store
  constructor
  · exact hcell.ctx
  · exact hcell.intArray
  · rintro cached ⟨rfl⟩
    cases hsome : (heap.cells cell).callable with
    | none => rfl
    | some cached => exact hcell.callable cached hsome

theorem Heap.Sound.call (hheap : heap.Sound env) (cell : ℕ)
    (ret : ℕ → Zval) : (stdZvalCall env heap cell ret).1.Sound env := by
  have hcached := hheap.cachedCallable cell
  unfold stdZvalCall
  split
  next handle _ =>
    dsimp only
    split
    next => exact hcached.store cell (hcached cell).fcc
    next => exact hcached
  next => exact hheap

theorem Heap.Sound.type (hheap : heap.Sound env) (cell : ℕ) :
    (stdZvalType env heap cell).1.Sound env := by
  unfold stdZvalType
  split
  next => exact (hheap.cachedIntArray cell).1
  next => exact hheap.cachedCallable cell

/-! ## Calls without a context -/

def LibCall.WithoutContext (call : LibCall) : Prop :=
  call.context = none

/-- Every call is made without a context, and the cells stay sound. -/
abbrev WithoutContext (env : HandlerEnv S) {Out : Type}
    (handler : Handler (Heap × Out)) : Prop :=
  handler.Ensures LibCall.WithoutContext fun out => out.1.Sound env

theorem pure_withoutContext {Out : Type} {out : Heap × Out}
    (hheap : out.1.Sound env) : WithoutContext env (pure out) :=
  Traced.ensures_pure hheap

theorem convertOn_sound (hheap : heap.Sound env) {context : Option ℕ}
    {val : Zval} {rv : Slot} {out : Heap × Slot}
    (hout : (convertOn heap context val rv).result = .ok out) :
    out.1.Sound env := by
  cases hconvert : heap.valueFromZval context val rv with
  | error error => simp [convertOn, hconvert, Except.mapError] at hout
  | ok result =>
      obtain rfl : result = out := by
        simpa [convertOn, hconvert, Except.mapError] using hout
      exact hheap.valueFromZval hconvert

theorem convertOn_withoutContext (hheap : heap.Sound env) {context : Option ℕ}
    (hcontext : context = none) (val : Zval) (rv : Slot) :
    WithoutContext env (convertOn heap context val rv) where
  calls := by
    intro call hcall
    obtain rfl := List.mem_singleton.mp hcall
    exact hcontext
  result := fun _ hout => convertOn_sound hheap hout

theorem stringCtorOn_ensures {context : Option ℕ} (hcontext : context = none)
    (text : Bytes) :
    (stringCtorOn context text).Ensures LibCall.WithoutContext
      fun _ => True where
  calls := by
    intro call hcall
    obtain rfl := List.mem_singleton.mp hcall
    exact hcontext
  result := fun _ _ => trivial

theorem convertFound_withoutContext (hheap : heap.Sound env)
    {context : Option ℕ} (hcontext : context = none) (entry : Option Zval)
    (rv : Slot) : WithoutContext env (convertFound heap context entry rv) := by
  cases entry with
  | none => exact pure_withoutContext hheap
  | some entry =>
      apply (convertOn_withoutContext hheap hcontext entry rv).bind
      intro out hout
      exact pure_withoutContext hout

theorem deliver_withoutContext (hheap : heap.Sound env) {context : Option ℕ}
    (hcontext : context = none) (it : SlotIterator S) (entry : Zval)
    (rest : HashTable) :
    WithoutContext env (stdZvalDeliver heap context it entry rest) := by
  apply (convertOn_withoutContext hheap hcontext entry it.cur).bind
  intro out hout
  exact pure_withoutContext hout

theorem iteratorArray_withoutContext (hheap : heap.Sound env)
    (it : SlotIterator S) (table : HashTable) :
    WithoutContext env (stdZvalIteratorArray heap it table) := by
  have hctx := (hheap it.cell).ctx
  rcases table with _ | ⟨⟨name | number, entry⟩, rest⟩
  · exact pure_withoutContext hheap
  · apply (stringCtorOn_ensures hctx name).bind
    intro _ _
    exact deliver_withoutContext hheap hctx _ entry rest
  · exact deliver_withoutContext hheap hctx _ entry rest

theorem moveForward_withoutContext (hheap : heap.Sound env)
    (it : SlotIterator S) (funcs : IteratorFuncs S) (zit : S) :
    WithoutContext env (stdZvalMoveForward heap it funcs zit) := by
  unfold stdZvalMoveForward
  split <;> exact pure_withoutContext hheap

theorem fetchKey_ensures {context : Option ℕ} (hcontext : context = none)
    (it : SlotIterator S) (funcs : IteratorFuncs S) (zit : S) :
    (stdZvalFetchKey env context it funcs zit).Ensures
      LibCall.WithoutContext fun _ => True := by
  unfold stdZvalFetchKey
  split
  next =>
    split
    next => exact Traced.ensures_pure trivial
    next =>
      apply (stringCtorOn_ensures hcontext _).bind
      intro _ _
      exact Traced.ensures_pure trivial
  next => exact Traced.ensures_pure trivial

theorem iteratorObject_withoutContext (hheap : heap.Sound env)
    (it : SlotIterator S) (funcs : IteratorFuncs S) (zit : S) :
    WithoutContext env (stdZvalIteratorObject env heap it funcs zit) := by
  have hctx := (hheap it.cell).ctx
  unfold stdZvalIteratorObject
  split
  next => exact pure_withoutContext hheap
  next => exact pure_withoutContext hheap
  next =>
    split
    next => exact pure_withoutContext hheap
    next val zit' _ =>
      apply (convertOn_withoutContext hheap hctx val it.cur).bind
      intro converted hconverted
      apply (fetchKey_ensures hctx _ funcs zit').bind
      intro fetched _
      simp only
      split
      next => exact pure_withoutContext hconverted
      next => exact pure_withoutContext hconverted
      next => exact moveForward_withoutContext hconverted _ funcs _

theorem advance_withoutContext (hheap : heap.Sound env)
    (it : SlotIterator S) : WithoutContext env (it.advance env heap) := by
  unfold SlotIterator.advance
  split
  next => exact pure_withoutContext hheap
  next => exact iteratorArray_withoutContext hheap it _
  next => exact iteratorObject_withoutContext hheap it _ _

theorem iteratorInit_withoutContext (hheap : heap.Sound env)
    (it : SlotIterator S) (cell : ℕ) :
    WithoutContext env (stdZvalIteratorInit env heap it cell) := by
  unfold stdZvalIteratorInit stdZvalInitTraversable
  split
  next =>
    split
    next =>
      split
      next => exact ⟨by simp, by simp⟩
      next =>
        split
        next =>
          split
          next => exact pure_withoutContext hheap
          next => exact iteratorObject_withoutContext hheap _ _ _
        next => exact iteratorObject_withoutContext hheap _ _ _
    next => exact iteratorArray_withoutContext hheap _ _
    next => exact pure_withoutContext hheap
  next => exact iteratorArray_withoutContext hheap _ _
  next => exact pure_withoutContext hheap

/-! ## Runs -/

structure HandlerState (S : Type) where
  heap : Heap
  slots : ℕ → Slot
  iterators : ℕ → SlotIterator S

/-- What a caller does with them.  `ret` gives what each object returns when
it is called now, a `SafeString` as its text; it is converted with the context
of the VM. -/
inductive HandlerEvent where
  | write (context : Option ℕ) (slot : ℕ) (val : Zval)
  | destroy (slot : ℕ)
  | copy (source target : ℕ)
  | type (slot : ℕ)
  | mapFind (slot : ℕ) (key : Bytes) (target : ℕ)
  | arrayFind (slot : ℕ) (index : UInt64) (target : ℕ)
  | call (context : Option ℕ) (slot : ℕ) (ret : ℕ → Zval) (target : ℕ)
  | iteratorInit (slot iterator : ℕ)
  | iteratorNext (iterator : ℕ)
  | current (iterator target : ℕ)

def HandlerState.start (slots : ℕ → Slot) (iterators : ℕ → SlotIterator S) :
    HandlerState S where
  heap := .empty
  slots := slots
  iterators := iterators

namespace HandlerState

def update (state : HandlerState S) (target : ℕ) (slot : Slot) :
    HandlerState S :=
  { state with slots := Function.update state.slots target slot }

/-- An error leaves the values as they are. -/
def convert (state : HandlerState S) (context : Option ℕ) (target : ℕ)
    (val : Zval) : HandlerState S :=
  match (convertOn state.heap context val (state.slots target)).result with
  | .ok (heap, rv) => { state with heap := heap }.update target rv
  | .error _ => state

def found (state : HandlerState S) (target : ℕ)
    (handler : Handler (Heap × Option Slot)) : HandlerState S :=
  match handler.result with
  | .ok (heap, some rv) => { state with heap := heap }.update target rv
  | .ok (heap, none) => { state with heap := heap }
  | .error _ => state

def called (state : HandlerState S) (context : Option ℕ) (target : ℕ) :
    Heap × Option Zval → HandlerState S
  | (heap, some zRet) =>
      { state with heap := heap }.convert context target zRet
  | (heap, none) => { state with heap := heap }

def iterated (state : HandlerState S) (iterator : ℕ)
    (handler : Handler (SlotStep S)) : HandlerState S :=
  match handler.result with
  | .ok (heap, _, it) =>
      { state with
        heap := heap
        iterators := Function.update state.iterators iterator it }
  | .error _ => state

/-- Values which are not wrapped are served by the library itself. -/
def perform (env : HandlerEnv S) (state : HandlerState S) :
    HandlerEvent → HandlerState S
  | .write context slot val => state.convert context slot val
  | .destroy slot => state.update slot .null
  | .copy source target => state.update target (state.slots source)
  | .type slot =>
      match state.slots slot with
      | .user cell =>
          { state with heap := (stdZvalType env state.heap cell).1 }
      | _ => state
  | .mapFind slot key target =>
      match state.slots slot with
      | .user cell =>
          state.found target (stdZvalMapFind env state.heap cell key
            (state.slots target))
      | _ => state
  | .arrayFind slot index target =>
      match state.slots slot with
      | .user cell =>
          state.found target (stdZvalArrayFind state.heap cell index
            (state.slots target))
      | _ => state
  | .call context slot ret target =>
      match state.slots slot with
      | .user cell =>
          state.called context target (stdZvalCall env state.heap cell ret)
      | _ => state
  | .iteratorInit slot iterator =>
      match state.slots slot with
      | .user cell =>
          state.iterated iterator (stdZvalIteratorInit env state.heap
            { state.iterators iterator with value := slot } cell)
      | _ => state
  | .iteratorNext iterator =>
      let it := state.iterators iterator
      match state.slots it.value with
      | .user cell =>
          state.iterated iterator
            ({ it with cell := cell }.advance env state.heap)
      | _ =>
          -- over, or a NULL user dereferenced
          state
  | .current iterator target =>
      state.update target (state.iterators iterator).cur

def run (env : HandlerEnv S) (state : HandlerState S)
    (events : List HandlerEvent) : HandlerState S :=
  events.foldl (perform env) state

variable {state : HandlerState S}

theorem convert_sound (hstate : state.heap.Sound env) (context : Option ℕ)
    (target : ℕ) (val : Zval) :
    (state.convert context target val).heap.Sound env := by
  unfold convert
  split
  next hresult => exact convertOn_sound hstate hresult
  next => exact hstate

theorem found_sound (hstate : state.heap.Sound env) (target : ℕ)
    {handler : Handler (Heap × Option Slot)}
    (hhandler : WithoutContext env handler) :
    (state.found target handler).heap.Sound env := by
  unfold found
  split
  next hresult => exact hhandler.result _ hresult
  next hresult => exact hhandler.result _ hresult
  next => exact hstate

theorem called_sound {outcome : Heap × Option Zval}
    (houtcome : outcome.1.Sound env) (context : Option ℕ) (target : ℕ) :
    (state.called context target outcome).heap.Sound env := by
  rcases outcome with ⟨heap, _ | zRet⟩
  · exact houtcome
  · exact convert_sound houtcome context target zRet

theorem iterated_sound (hstate : state.heap.Sound env) (iterator : ℕ)
    {handler : Handler (SlotStep S)}
    (hhandler : WithoutContext env handler) :
    (state.iterated iterator handler).heap.Sound env := by
  unfold iterated
  split
  next hresult => exact hhandler.result _ hresult
  next => exact hstate

theorem perform_sound (hstate : state.heap.Sound env)
    (event : HandlerEvent) : (state.perform env event).heap.Sound env := by
  cases event with
  | write context slot val => exact convert_sound hstate context slot val
  | destroy slot => exact hstate
  | copy source target => exact hstate
  | type slot =>
      simp only [perform]
      split
      next cell _ => exact hstate.type cell
      next => exact hstate
  | mapFind slot key target =>
      simp only [perform]
      split
      next cell _ =>
        apply found_sound hstate
        exact convertFound_withoutContext hstate (hstate cell).ctx _ _
      next => exact hstate
  | arrayFind slot index target =>
      simp only [perform]
      split
      next cell _ =>
        apply found_sound hstate
        exact convertFound_withoutContext hstate (hstate cell).ctx _ _
      next => exact hstate
  | call context slot ret target =>
      simp only [perform]
      split
      next cell _ =>
        exact called_sound (hstate.call cell ret) context target
      next => exact hstate
  | iteratorInit slot iterator =>
      simp only [perform]
      split
      next cell _ =>
        apply iterated_sound hstate
        exact iteratorInit_withoutContext hstate _ cell
      next => exact hstate
  | iteratorNext iterator =>
      simp only [perform]
      split
      next =>
        exact iterated_sound hstate iterator (advance_withoutContext hstate _)
      next => exact hstate
  | current iterator target => exact hstate

/-- The cells are sound after any sequence of handler calls. -/
theorem run_sound (env : HandlerEnv S) (slots : ℕ → Slot)
    (iterators : ℕ → SlotIterator S) (events : List HandlerEvent) :
    ((start slots iterators).run env events).heap.Sound env := by
  have hrun : ∀ state : HandlerState S, state.heap.Sound env →
      (state.run env events).heap.Sound env := by
    induction events with
    | nil =>
        intro state hstate
        exact hstate
    | cons event rest ih =>
        intro state hstate
        exact ih (state.perform env event) (perform_sound hstate event)
  exact hrun (start slots iterators) (empty_sound env)

end HandlerState

end PhpHandlebars
