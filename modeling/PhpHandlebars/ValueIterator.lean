import PhpHandlebars.ValueConversion
import Mathlib.Tactic

/-!
# Iterating over wrapped PHP values

`handlebars_std_zval_iterator_init` delivers the first element of an array or
an object and `it->next` each further one.  All of them are delivered through
one slot, `it->cur`, which null does not overwrite.
-/

namespace PhpHandlebars

/-- The functions of a `zend_object_iterator` and `get_iterator` itself. -/
inductive IteratorMethod where
  | getIterator
  | rewind
  | valid
  | getCurrentData
  | getCurrentKey
  | moveForward
  deriving DecidableEq

/-- What an iteration does to the iterator object and to the position kept
for a hash table. -/
inductive IterationEvent where
  | called (method : IteratorMethod)
  | threw (method : IteratorMethod)
  /-- the conversion of a key to a string threw -/
  | keyThrew
  | obtained
  | released
  | allocated
  | freed
  deriving DecidableEq

/-- PHP code has thrown, or an attempt to get a string has. -/
def IterationEvent.isThrow : IterationEvent → Bool
  | .threw _ => true
  | .keyThrew => true
  | _ => false

/-- A function of an iterator: it throws, or gives a result and moves on to
another state. -/
abbrev Method (S Out : Type) := S → Except Exception (Out × S)

structure IteratorFuncs (S : Type) where
  rewind : Option (Method S Unit)
  valid : Method S Bool
  getCurrentData : Method S Zval
  getCurrentKey : Option (Method S Zval)
  moveForward : Method S Unit

/-- How the class of an object lets it be iterated. -/
inductive IteratedObject (S : Type) where
  | traversable (funcs : IteratorFuncs S) (getIterator : Except Exception S)
  | properties (table : HashTable)
  | opaqueObject

structure IterationEnv (S : Type) where
  object : ℕ → IteratedObject S
  convertToString : Zval → Bytes
  /-- the values which have no string form, as an object without `__toString`;
  what is made of them nevertheless is their `convertToString` -/
  convertThrows : Zval → Bool

/-- `it->next` with the `it->usr` it works on. -/
inductive IteratorNext (S : Type) where
  | void
  | array (rest : HashTable)
  | object (funcs : IteratorFuncs S) (zit : S)

structure ValueIterator (S : Type) where
  cur : Value
  key : Option Bytes
  index : ℤ
  next : IteratorNext S
  log : List IterationEvent

inductive IterationFault where
  /-- a library error raised by a conversion -/
  | raised (error : LibError)
  /-- a NULL iterator dereferenced -/
  | nullIterator

abbrev IterationStep (S : Type) :=
  Except IterationFault (Bool × ValueIterator S)

variable {S Out : Type}

def ValueIterator.record (it : ValueIterator S)
    (events : List IterationEvent) : ValueIterator S :=
  { it with log := it.log ++ events }

/-- The `finished` and `iterator_err` ends: `handlebars_value_dtor` leaves
null in `it->cur`. -/
def ValueIterator.close (it : ValueIterator S) (event : IterationEvent) :
    ValueIterator S :=
  { it.record [event] with cur := .null, next := .void }

def handlebarsStdZvalIteratorArray (it : ValueIterator S) :
    HashTable → IterationStep S
  | [] => .ok (false, { it with key := none }.close .freed)
  | (key, entry) :: rest =>
      let it := match key with
        | .string name => { it with key := some name, index := 0 }
        | .index number => { it with key := none, index := number }
      match handlebarsValueFromZval entry it.cur with
      | .error error => .error (.raised error)
      | .ok cur => .ok (true, { it with cur := cur, next := .array rest })

/-- Calls a function of the iterator object, and looks at `EG(exception)`. -/
def ValueIterator.call (it : ValueIterator S) (name : IteratorMethod)
    (method : Method S Out) (zit : S) :
    ValueIterator S × Except Exception (Out × S) :=
  match method zit with
  | .ok result => (it.record [.called name], .ok result)
  | .error thrown => (it.record [.called name, .threw name], .error thrown)

/-- `convert_to_string` and `handlebars_string_ctor`.  `EG(exception)` is not
looked at in between. -/
def ValueIterator.convertKey (env : IterationEnv S) (it : ValueIterator S)
    (key : Zval) : ValueIterator S :=
  { it.record (if env.convertThrows key then [.keyThrew] else []) with
    key := some (env.convertToString key) }

/-- The `get_current_key` branch; with the iterator's state, whether the
conversion of the key has left an exception. -/
def ValueIterator.fetchKey (env : IterationEnv S) (it : ValueIterator S)
    (funcs : IteratorFuncs S) (zit : S) :
    ValueIterator S × Except Exception (Bool × S) :=
  match funcs.getCurrentKey with
  | some getCurrentKey =>
      match it.call .getCurrentKey getCurrentKey zit with
      | (it, .error thrown) => (it, .error thrown)
      | (it, .ok (key, zit)) =>
          (it.convertKey env key, .ok (env.convertThrows key, zit))
  | none => ({ it with key := none, index := it.index + 1 }, .ok (false, zit))

def handlebarsStdZvalIteratorObject (env : IterationEnv S)
    (it : ValueIterator S) (funcs : IteratorFuncs S) (zit : S) :
    IterationStep S :=
  let it := { it with key := none }
  match it.call .valid funcs.valid zit with
  | (it, .error _) => .ok (false, it.close .released)
  | (it, .ok (false, _)) => .ok (false, it.close .released)
  | (it, .ok (true, zit)) =>
      match it.call .getCurrentData funcs.getCurrentData zit with
      | (it, .error _) => .ok (false, it.close .released)
      | (it, .ok (val, zit)) =>
          match handlebarsValueFromZval val it.cur with
          | .error error => .error (.raised error)
          | .ok cur =>
              match ({ it with cur := cur }).fetchKey env funcs zit with
              | (it, .error _) => .ok (false, it.close .released)
              | (it, .ok (true, _)) =>
                  -- moved on all the same, whatever comes of it
                  .ok (false,
                    (it.record [.called .moveForward]).close .released)
              | (it, .ok (false, zit)) =>
                  match it.call .moveForward funcs.moveForward zit with
                  | (it, .error _) => .ok (false, it.close .released)
                  | (it, .ok (_, zit)) =>
                      .ok (true, { it with next := .object funcs zit })

/-- `it->next(it)`. -/
def ValueIterator.advance (env : IterationEnv S) (it : ValueIterator S) :
    IterationStep S :=
  match it.next with
  | .void => .ok (false, it)
  | .array rest => handlebarsStdZvalIteratorArray it rest
  | .object funcs zit => handlebarsStdZvalIteratorObject env it funcs zit

def initTable (it : ValueIterator S) (table : HashTable) : IterationStep S :=
  handlebarsStdZvalIteratorArray
    { it.record [.allocated] with next := .array table } table

/-- The `zend_ce_traversable` branch.  `get_iterator` gives NULL when it
throws, and `iter->funcs` is read before anything else. -/
def initTraversable (env : IterationEnv S) (it : ValueIterator S)
    (funcs : IteratorFuncs S) : Except Exception S → IterationStep S
  | .error _ => .error .nullIterator
  | .ok zit =>
      let it := it.record [.called .getIterator, .obtained]
      match funcs.rewind with
      | some rewind =>
          match it.call .rewind rewind zit with
          | (it, .error _) =>
              .ok (false, { it.record [.released] with next := .void })
          | (it, .ok (_, zit)) =>
              handlebarsStdZvalIteratorObject env
                { it with next := .object funcs zit } funcs zit
      | none =>
          handlebarsStdZvalIteratorObject env
            { it with next := .object funcs zit } funcs zit

def handlebarsStdZvalIteratorInit (env : IterationEnv S)
    (it : ValueIterator S) (intern : Zval) : IterationStep S :=
  match intern with
  | .object handle =>
      match env.object handle with
      | .traversable funcs getIterator =>
          initTraversable env it funcs getIterator
      | .properties table => initTable it table
      | .opaqueObject => .ok (false, { it with next := .void })
  | .array buckets => initTable it buckets
  | _ => .ok (false, { it with next := .void })

/-! ## Runs -/

/-- The element delivered, under the key when there is one and under the index
otherwise. -/
def ValueIterator.element (it : ValueIterator S) : ArrayKey × Value :=
  (it.key.elim (.index it.index) .string, it.cur)

structure IterationPass (S : Type) where
  delivered : List (ArrayKey × Value)
  finished : Bool
  final : ValueIterator S

def continuePass
    (rest : ValueIterator S → Except IterationFault (IterationPass S)) :
    IterationStep S → Except IterationFault (IterationPass S)
  | .error fault => .error fault
  | .ok (false, it) => .ok ⟨[], true, it⟩
  | .ok (true, it) =>
      (rest it).map fun pass =>
        { pass with delivered := it.element :: pass.delivered }

/-- What the caller gets from at most `fuel` calls of `it->next`; it stops
when one of them returns false. -/
def passFrom (env : IterationEnv S) :
    ℕ → ValueIterator S → Except IterationFault (IterationPass S)
  | 0, it => .ok ⟨[], false, it⟩
  | fuel + 1, it => continuePass (passFrom env fuel) (it.advance env)

/-- `handlebars_std_zval_iterator_init` and at most `fuel` calls of
`it->next`. -/
def iterationPass (env : IterationEnv S) (fuel : ℕ) (it : ValueIterator S)
    (intern : Zval) : Except IterationFault (IterationPass S) :=
  continuePass (passFrom env fuel) (handlebarsStdZvalIteratorInit env it intern)

theorem continuePass_true_iff
    {rest : ValueIterator S → Except IterationFault (IterationPass S)}
    {it : ValueIterator S} {pass : IterationPass S} :
    continuePass rest (.ok (true, it)) = .ok pass ↔
      ∃ tail, rest it = .ok tail ∧
        pass = { tail with delivered := it.element :: tail.delivered } := by
  rw [continuePass]
  cases rest it with
  | error fault => simp [Except.map]
  | ok tail => simp [Except.map, eq_comm]

theorem advance_of_void {env : IterationEnv S} {it : ValueIterator S}
    (hvoid : it.next = .void) : it.advance env = .ok (false, it) := by
  simp [ValueIterator.advance, hvoid]

@[simp] theorem ValueIterator.close_log (it : ValueIterator S)
    (event : IterationEvent) : (it.close event).log = it.log ++ [event] := rfl

/-! ## A reused slot -/

/-- All values convert, and null is converted only into a slot which is still
null. -/
structure NullsFirst (cur : Value) (values : List Zval) : Prop where
  convertible : ∀ val ∈ values, val.zType.Convertible
  start : ∀ val ∈ values, val.LeavesSlot → cur = .null
  order : values.Pairwise fun earlier later =>
    later.LeavesSlot → earlier.LeavesSlot

theorem NullsFirst.nil (cur : Value) : NullsFirst cur [] :=
  ⟨by simp, by simp, .nil⟩

theorem NullsFirst.take {cur : Value} {values : List Zval}
    (hfirst : NullsFirst cur values) (count : ℕ) :
    NullsFirst cur (values.take count) where
  convertible := fun val hval =>
    hfirst.convertible val (List.mem_of_mem_take hval)
  start := fun val hval => hfirst.start val (List.mem_of_mem_take hval)
  order := hfirst.order.take

/-- One conversion into the slot makes what the conversion alone makes, and
the slot is as good for the values after it. -/
theorem nullsFirst_cons_iff (cur : Value) (val : Zval) (rest : List Zval) :
    NullsFirst cur (val :: rest) ↔
      ∃ value, handlebarsValueFromZval val cur = .ok value ∧
        handlebarsValueFromZval val .null = .ok value ∧
        NullsFirst value rest := by
  by_cases hval : val.LeavesSlot
  · simp only [valueFromZval_of_leavesSlot hval, Except.ok.injEq]
    constructor
    · intro hfirst
      have hcur : cur = .null := hfirst.start val (by simp) hval
      refine ⟨cur, rfl, hcur.symm, ?_, ?_, ?_⟩
      · intro other hother
        exact hfirst.convertible other (by simp [hother])
      · intro _ _ _
        exact hcur
      · exact (List.pairwise_cons.mp hfirst.order).2
    · rintro ⟨value, rfl, hnull, hrest⟩
      refine ⟨?_, ?_, ?_⟩
      · intro other hother
        rcases List.mem_cons.mp hother with rfl | hother
        · exact (valueFromZval_isOk_iff other cur).mp
            ⟨cur, valueFromZval_of_leavesSlot hval cur⟩
        · exact hrest.convertible other hother
      · intro _ _ _
        exact hnull.symm
      · exact List.pairwise_cons.mpr ⟨fun _ _ _ => hval, hrest.order⟩
  · constructor
    · intro hfirst
      obtain ⟨value, hvalue⟩ := (valueFromZval_isOk_iff val cur).mpr
        (hfirst.convertible val (by simp))
      have horder := List.pairwise_cons.mp hfirst.order
      refine ⟨value, hvalue,
        valueFromZval_overwrites hval .null cur ▸ hvalue, ?_, ?_, horder.2⟩
      · intro other hother
        exact hfirst.convertible other (by simp [hother])
      · intro other hother hleaves
        exact absurd (horder.1 other hother hleaves) hval
    · rintro ⟨value, hvalue, _, hrest⟩
      have hwritten : value ≠ .null := by
        rintro rfl
        exact valueFromZval_ne_null hval cur hvalue
      have hlater : ∀ other ∈ rest, ¬ other.LeavesSlot :=
        fun other hother hleaves => hwritten (hrest.start other hother hleaves)
      refine ⟨?_, ?_, ?_⟩
      · intro other hother
        rcases List.mem_cons.mp hother with rfl | hother
        · exact (valueFromZval_isOk_iff other cur).mp ⟨value, hvalue⟩
        · exact hrest.convertible other hother
      · intro other hother hleaves
        rcases List.mem_cons.mp hother with rfl | hother
        · exact absurd hleaves hval
        · exact absurd hleaves (hlater other hother)
      · exact List.pairwise_cons.mpr
          ⟨fun other hother hleaves => absurd hleaves (hlater other hother),
            hrest.order⟩

/-! ## Arrays -/

/-- An element of an array, delivered as the conversion of that entry alone
makes it. -/
structure DeliversBucket (delivery : ArrayKey × Value)
    (bucket : ArrayKey × Zval) : Prop where
  key : delivery.1 = bucket.1
  value : handlebarsValueFromZval bucket.2 .null = .ok delivery.2

/-- A pass over a table delivers its buckets, each once and in order, and then
frees its position, once. -/
structure DeliversTable (env : IterationEnv S) (table : HashTable)
    (log : List IterationEvent) (pass : IterationPass S) : Prop where
  buckets : List.Forall₂ DeliversBucket pass.delivered table
  finished : pass.finished
  ended : pass.final.advance env = .ok (false, pass.final)
  log : pass.final.log = log ++ [.freed]

theorem iteratorArray_cons (it : ValueIterator S) (key : ArrayKey)
    (entry : Zval) (rest : HashTable) {value : Value}
    (hvalue : handlebarsValueFromZval entry it.cur = .ok value) :
    ∃ it', handlebarsStdZvalIteratorArray it ((key, entry) :: rest) =
        .ok (true, it') ∧
      it'.element = (key, value) ∧ it'.cur = value ∧
      it'.next = .array rest ∧ it'.log = it.log := by
  cases key with
  | string name =>
      refine ⟨{ it with
        cur := value, key := some name, index := 0, next := .array rest },
        ?_, rfl, rfl, rfl, rfl⟩
      simp only [handlebarsStdZvalIteratorArray, hvalue]
  | index number =>
      refine ⟨{ it with
        cur := value, key := none, index := number, next := .array rest },
        ?_, rfl, rfl, rfl, rfl⟩
      simp only [handlebarsStdZvalIteratorArray, hvalue]

theorem iteratorArray_cons_error (it : ValueIterator S) (key : ArrayKey)
    (entry : Zval) (rest : HashTable) {error : LibError}
    (herror : handlebarsValueFromZval entry it.cur = .error error) :
    handlebarsStdZvalIteratorArray it ((key, entry) :: rest) =
      .error (.raised error) := by
  cases key <;> simp only [handlebarsStdZvalIteratorArray, herror]

/-- The rest of a table is delivered exactly when its nulls come before
everything else and the slot is null when they do. -/
theorem tablePass_iff (env : IterationEnv S) {it : ValueIterator S}
    {table : HashTable} (hnext : it.next = .array table) {fuel : ℕ}
    (hfuel : table.length < fuel) :
    (∃ pass, passFrom env fuel it = .ok pass ∧
        DeliversTable env table it.log pass) ↔
      NullsFirst it.cur (table.map Prod.snd) := by
  induction table generalizing it fuel with
  | nil =>
      obtain ⟨fuel, rfl⟩ := Nat.exists_eq_add_of_lt hfuel
      refine iff_of_true
        ⟨⟨[], true, { it with key := none }.close .freed⟩, ?_, ?_⟩
        (.nil it.cur)
      · rw [passFrom, ValueIterator.advance, hnext]
        rfl
      · exact ⟨.nil, rfl, advance_of_void rfl, rfl⟩
  | cons bucket rest ih =>
      rcases bucket with ⟨key, entry⟩
      obtain ⟨fuel, rfl⟩ := Nat.exists_eq_add_of_lt hfuel
      have hadvance : it.advance env =
          handlebarsStdZvalIteratorArray it ((key, entry) :: rest) := by
        simp [ValueIterator.advance, hnext]
      rw [passFrom, hadvance, List.map_cons, nullsFirst_cons_iff]
      cases hvalue : handlebarsValueFromZval entry it.cur with
      | error error =>
          rw [iteratorArray_cons_error it key entry rest hvalue]
          simp [continuePass]
      | ok value =>
          obtain ⟨it', hstep, helement, hcur, hnext', hlog⟩ :=
            iteratorArray_cons it key entry rest hvalue
          have hlength : rest.length < rest.length + 1 + fuel := by omega
          have hrest := ih hnext' hlength
          rw [hcur, hlog] at hrest
          rw [hstep]
          constructor
          · rintro ⟨pass, hpass, hdelivers⟩
            obtain ⟨tail, htail, rfl⟩ := continuePass_true_iff.mp hpass
            rcases hdelivers with ⟨hbuckets, hfinished, hended, hfinal⟩
            rw [helement] at hbuckets
            obtain ⟨hhead, htable⟩ := List.forall₂_cons.mp hbuckets
            exact ⟨value, rfl, hhead.value,
              hrest.mp ⟨tail, htail, htable, hfinished, hended, hfinal⟩⟩
          · rintro ⟨_, ⟨rfl⟩, halone, hfirst⟩
            obtain ⟨tail, htail, hdelivers⟩ := hrest.mpr hfirst
            refine ⟨_, continuePass_true_iff.mpr ⟨tail, htail, rfl⟩, ?_⟩
            refine ⟨?_, hdelivers.finished, hdelivers.ended, hdelivers.log⟩
            rw [helement]
            exact .cons ⟨rfl, halone⟩ hdelivers.buckets

/-- Iterating over an array delivers its entries, each as it is alone, exactly
when no null comes after anything else. -/
theorem array_delivered_iff (env : IterationEnv S) (it : ValueIterator S)
    (buckets : HashTable) :
    (∃ pass, iterationPass env buckets.length it (.array buckets) =
        .ok pass ∧
      DeliversTable env buckets (it.log ++ [.allocated]) pass) ↔
      NullsFirst it.cur (buckets.map Prod.snd) := by
  let started : ValueIterator S :=
    { it.record [.allocated] with next := .array buckets }
  have hnext : started.next = .array buckets := rfl
  exact tablePass_iff env hnext (Nat.lt_succ_self buckets.length)

def noIterators : IterationEnv Unit where
  object := fun _ => .opaqueObject
  convertToString := fun _ => []
  convertThrows := fun _ => false

/-- An iterator as `HANDLEBARS_VALUE_ITERATOR_DECL` sets it up. -/
def freshIterator (S : Type) : ValueIterator S where
  cur := .null
  key := none
  index := 0
  next := .void
  log := []

/-- `[1, null]` is delivered as `[1, 1]`. -/
theorem null_delivered_as_previous :
    ¬ ∃ pass, iterationPass noIterators 2 (freshIterator Unit)
        (.array [(.index 0, .long 1), (.index 1, .null)]) = .ok pass ∧
      DeliversTable noIterators [(.index 0, .long 1), (.index 1, .null)]
        [.allocated] pass := by
  rintro ⟨pass, hpass, hdelivers⟩
  obtain rfl := Except.ok.inj hpass
  have hbuckets := hdelivers.buckets
  obtain ⟨_, hrest⟩ := List.forall₂_cons.mp hbuckets
  obtain ⟨hsecond, _⟩ := List.forall₂_cons.mp hrest
  have hvalue := hsecond.value
  simp [handlebarsValueFromZval, ValueIterator.element] at hvalue

end PhpHandlebars
