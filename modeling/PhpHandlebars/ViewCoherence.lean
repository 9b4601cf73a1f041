import PhpHandlebars.CellRefinement
import Mathlib.Tactic

/-!
# The views of a wrapped array

Type, count, lookup and iteration look at one table.  They cohere except for
the elements which the conversion refuses, and for nulls behind other elements
of a list: the iteration delivers them as what was delivered before.
-/

namespace PhpHandlebars

variable {S : Type} {env : HandlerEnv S} {heap : Heap}

/-- An iterator as `HANDLEBARS_VALUE_ITERATOR_DECL` sets it up. -/
def freshSlotIterator (cell : ℕ) : SlotIterator S where
  value := 0
  cell := cell
  cur := .null
  key := none
  index := 0
  next := .void

def Delivers (env : HandlerEnv S) (heap : Heap) (cell : ℕ)
    (delivered : List (ArrayKey × Value)) : Prop :=
  ∃ fuel, slotPass env fuel heap (freshSlotIterator cell) cell =
    .ok ⟨delivered, true⟩

def FindsAt (heap : Heap) (cell : ℕ) (index : UInt64) (value : Value) :
    Prop :=
  shownEntry (stdZvalArrayFind heap cell index .null).result =
    some (some value)

def FindsNothingAt (heap : Heap) (cell : ℕ) (index : UInt64) : Prop :=
  shownEntry (stdZvalArrayFind heap cell index .null).result = some none

/-- Each step of the iteration delivers, under its own number, what is found
under this number. -/
structure FindsDelivered (heap : Heap) (cell : ℕ)
    (delivered : List (ArrayKey × Value)) : Prop where
  within : ∀ index : UInt64, index.toNat < delivered.length →
    ∃ value, delivered[index.toNat]? = some (.index index.toNat, value) ∧
      FindsAt heap cell index value
  behind : ∀ index : UInt64, delivered.length ≤ index.toNat →
    FindsNothingAt heap cell index

structure ViewsCohere (env : HandlerEnv S) (heap : Heap) (cell : ℕ)
    (buckets : HashTable) : Prop where
  cache : ∀ cached, (heap.cells cell).intArray = some cached →
    (cached ↔ buckets.map Prod.fst =
      (List.range buckets.length).map fun index : ℕ => .index index)
  array : (stdZvalType env heap cell).2 = .array ↔
    buckets.map Prod.fst =
      (List.range buckets.length).map fun index : ℕ => .index index
  map : (stdZvalType env heap cell).2 ≠ .array →
    (stdZvalType env heap cell).2 = .map
  elements : ∃ delivered, Delivers env heap cell delivered ∧
    stdZvalCount env heap cell = delivered.length ∧
    ((stdZvalType env heap cell).2 = .array →
      FindsDelivered heap cell delivered)

/-- All elements can be converted, and no null of a list stands behind
another element. -/
structure CoherentElements (buckets : HashTable) : Prop where
  convertible : ∀ val ∈ buckets.map Prod.snd, val.zType.Convertible
  nullsFirst : buckets.map Prod.fst =
      (List.range buckets.length).map (fun index : ℕ => .index index) →
    (buckets.map Prod.snd).Pairwise fun earlier later =>
      later.LeavesSlot → earlier.LeavesSlot

/-! ## The iteration -/

theorem freshSlotIterator_shows (heap : Heap) (cell : ℕ) :
    (freshSlotIterator cell : SlotIterator S).Shows heap (freshIterator S) :=
  ⟨rfl, rfl, rfl, rfl⟩

structure EndsTable (env : IterationEnv S) (table : HashTable)
    (log : List IterationEvent) (pass : IterationPass S) : Prop where
  keys : pass.delivered.map Prod.fst = table.map Prod.fst
  ended : pass.final.advance env = .ok (false, pass.final)
  log : pass.final.log = log ++ [.freed]

theorem passFrom_of_table {env : IterationEnv S} {it : ValueIterator S}
    {table : HashTable} (hnext : it.next = .array table) (fuel : ℕ) :
    passFrom env (fuel + 1) it = continuePass (passFrom env fuel)
      (handlebarsStdZvalIteratorArray it table) := by
  rw [passFrom, ValueIterator.advance, hnext]

/-- A pass which finishes has converted each element. -/
theorem tablePass_finished {env : IterationEnv S} {it : ValueIterator S}
    {table : HashTable} (hnext : it.next = .array table) {fuel : ℕ}
    {pass : IterationPass S} (hpass : passFrom env fuel it = .ok pass)
    (hfinished : pass.finished) :
    table.length < fuel ∧
      (∀ val ∈ table.map Prod.snd, val.zType.Convertible) ∧
      EndsTable env table it.log pass := by
  induction table generalizing it fuel pass with
  | nil =>
      cases fuel with
      | zero =>
          obtain rfl := Except.ok.inj hpass
          simp at hfinished
      | succ fuel =>
          rw [passFrom_of_table hnext] at hpass
          obtain rfl := Except.ok.inj hpass
          exact ⟨by simp, by simp, rfl, advance_of_void rfl, rfl⟩
  | cons bucket rest ih =>
      rcases bucket with ⟨key, entry⟩
      cases fuel with
      | zero =>
          obtain rfl := Except.ok.inj hpass
          simp at hfinished
      | succ fuel =>
          rw [passFrom_of_table hnext] at hpass
          cases hvalue : handlebarsValueFromZval entry it.cur with
          | error error =>
              rw [iteratorArray_cons_error it key entry rest hvalue] at hpass
              simp [continuePass] at hpass
          | ok value =>
              obtain ⟨it', hstep, helement, hcur, hnext', hlog⟩ :=
                iteratorArray_cons it key entry rest hvalue
              rw [hstep, continuePass_true_iff] at hpass
              obtain ⟨tail, htail, rfl⟩ := hpass
              obtain ⟨hlength, hrest, hends⟩ := ih hnext' htail hfinished
              have hentry : entry.zType.Convertible :=
                (valueFromZval_isOk_iff entry it.cur).mp ⟨value, hvalue⟩
              refine ⟨by simpa using hlength, ?_, ?_, hends.ended, ?_⟩
              · simpa [hentry] using hrest
              · simp [helement, hends.keys]
              · rw [hends.log, hlog]

theorem tablePass_of_convertible (env : IterationEnv S)
    {it : ValueIterator S} {table : HashTable}
    (hnext : it.next = .array table)
    (hconvertible : ∀ val ∈ table.map Prod.snd, val.zType.Convertible) :
    ∃ pass, passFrom env (table.length + 1) it = .ok pass ∧
      pass.finished := by
  induction table generalizing it with
  | nil =>
      refine ⟨⟨[], true, { it with key := none }.close .freed⟩, ?_, rfl⟩
      rw [passFrom_of_table hnext]
      rfl
  | cons bucket rest ih =>
      rcases bucket with ⟨key, entry⟩
      obtain ⟨value, hvalue⟩ := (valueFromZval_isOk_iff entry it.cur).mpr
        (hconvertible entry (by simp))
      obtain ⟨it', hstep, _, _, hnext', _⟩ :=
        iteratorArray_cons it key entry rest hvalue
      have hrest : ∀ val ∈ rest.map Prod.snd, val.zType.Convertible := by
        intro val hval
        exact hconvertible val (by simp [hval])
      obtain ⟨tail, htail, hfinished⟩ := ih hnext' hrest
      refine ⟨{ tail with delivered := it'.element :: tail.delivered }, ?_,
        hfinished⟩
      rw [passFrom_of_table hnext, hstep, continuePass_true_iff]
      exact ⟨tail, htail, rfl⟩

def startedIterator (S : Type) (buckets : HashTable) : ValueIterator S :=
  { (freshIterator S).record [.allocated] with next := .array buckets }

theorem slotPass_of_array {cell : ℕ} {buckets : HashTable}
    (harray : (heap.cells cell).intern.zval = .array buckets) (fuel : ℕ) :
    (slotPass env fuel heap (freshSlotIterator cell) cell).toOption =
      (passFrom env.iteration (fuel + 1)
        (startedIterator S buckets)).toOption.map IterationPass.shown := by
  rw [slotPass_shows fuel (freshSlotIterator_shows heap cell) cell, harray]
  rfl

theorem toOption_eq_some_iff {Fault Out : Type} (result : Except Fault Out)
    (out : Out) : result.toOption = some out ↔ result = .ok out := by
  cases result <;> simp [Except.toOption]

theorem delivers_iff {cell : ℕ} {buckets : HashTable}
    (harray : (heap.cells cell).intern.zval = .array buckets)
    (delivered : List (ArrayKey × Value)) :
    Delivers env heap cell delivered ↔
      ∃ fuel pass, passFrom env.iteration (fuel + 1)
          (startedIterator S buckets) = .ok pass ∧
        pass.finished ∧ pass.delivered = delivered := by
  apply exists_congr
  intro fuel
  rw [← toOption_eq_some_iff, slotPass_of_array harray, Option.map_eq_some_iff]
  apply exists_congr
  intro pass
  rw [toOption_eq_some_iff, IterationPass.shown, SlotPass.mk.injEq]
  tauto

theorem nullsFirst_null_iff (values : List Zval) :
    NullsFirst .null values ↔
      (∀ val ∈ values, val.zType.Convertible) ∧
        values.Pairwise fun earlier later =>
          later.LeavesSlot → earlier.LeavesSlot := by
  constructor
  · intro hfirst
    exact ⟨hfirst.convertible, hfirst.order⟩
  · rintro ⟨hconvertible, horder⟩
    exact ⟨hconvertible, fun _ _ _ => rfl, horder⟩

/-- An iteration which ends has delivered the keys of the array.  It has
delivered each element as it is alone when the nulls come first. -/
theorem Delivers.of_array {cell : ℕ} {buckets : HashTable}
    (harray : (heap.cells cell).intern.zval = .array buckets)
    {delivered : List (ArrayKey × Value)}
    (hdelivers : Delivers env heap cell delivered) :
    (∀ val ∈ buckets.map Prod.snd, val.zType.Convertible) ∧
      delivered.map Prod.fst = buckets.map Prod.fst ∧
      (List.Forall₂ DeliversBucket delivered buckets ↔
        NullsFirst .null (buckets.map Prod.snd)) := by
  obtain ⟨fuel, pass, hpass, hfinished, rfl⟩ :=
    (delivers_iff harray delivered).mp hdelivers
  obtain ⟨hlength, hconvertible, hends⟩ :=
    tablePass_finished rfl hpass hfinished
  have hnext : (startedIterator S buckets).next = .array buckets := rfl
  have hiff := tablePass_iff env.iteration hnext hlength
  refine ⟨hconvertible, hends.keys, ?_⟩
  constructor
  · intro hbuckets
    exact hiff.mp ⟨pass, hpass, hbuckets, hfinished, hends.ended, hends.log⟩
  · intro hfirst
    obtain ⟨pass', hpass', htable⟩ := hiff.mpr hfirst
    obtain rfl := Except.ok.inj (hpass.symm.trans hpass')
    exact htable.buckets

theorem exists_delivers {cell : ℕ} {buckets : HashTable}
    (harray : (heap.cells cell).intern.zval = .array buckets)
    (hconvertible : ∀ val ∈ buckets.map Prod.snd, val.zType.Convertible) :
    ∃ delivered, Delivers env heap cell delivered := by
  have hnext : (startedIterator S buckets).next = .array buckets := rfl
  obtain ⟨pass, hpass, hfinished⟩ :=
    tablePass_of_convertible env.iteration hnext hconvertible
  exact ⟨pass.delivered, (delivers_iff harray _).mpr
    ⟨buckets.length, pass, hpass, hfinished, rfl⟩⟩

/-! ## The lookup -/

theorem findsAt_iff {cell : ℕ} {index : UInt64} {entry : Zval}
    (hentry : indexEntry (heap.cells cell).intern.zval index = some entry)
    (value : Value) :
    FindsAt heap cell index value ↔
      handlebarsValueFromZval entry .null = .ok value := by
  rw [FindsAt, arrayFind_shows, handlebarsStdZvalArrayFind, hentry]
  change (convertEntry (some entry) .null).toOption = _ ↔ _
  rw [convertEntry]
  cases handlebarsValueFromZval entry .null <;>
    simp [Except.map, Except.toOption]

theorem findsNothingAt_of_none {cell : ℕ} {index : UInt64}
    (hentry : indexEntry (heap.cells cell).intern.zval index = none) :
    FindsNothingAt heap cell index := by
  rw [FindsNothingAt, arrayFind_shows, handlebarsStdZvalArrayFind, hentry]
  rfl

theorem indexEntry_of_range (array : PhpArray)
    (hkeys : array.buckets.map Prod.fst =
      (List.range array.buckets.length).map fun index : ℕ => .index index)
    (index : UInt64) :
    indexEntry (.array array.buckets) index =
      array.buckets[index.toNat]?.map Prod.snd := by
  have hindex := toInt_toInt64 index
  by_cases hsmall : index.toNat < 2 ^ 63
  · rw [if_pos hsmall] at hindex
    rw [indexEntry, hindex]
    exact zendHashIndexFind_of_range hkeys index.toNat
  · rw [if_neg hsmall] at hindex
    have hneg : index.toInt64.toInt < 0 := by
      have hbound := index.toNat_lt
      omega
    have hlength : array.buckets.length ≤ index.toNat := by
      by_contra hplace
      have hmax := array.place_le_longMax hkeys (Nat.lt_of_not_le hplace)
      unfold longMax at hmax
      omega
    rw [indexEntry, zendHashIndexFind_of_neg hkeys hneg,
      List.getElem?_eq_none hlength]
    rfl

theorem key_of_range {Out : Type} {table : List (ArrayKey × Out)}
    {length : ℕ} (hkeys : table.map Prod.fst =
      (List.range length).map fun index : ℕ => .index index)
    {place : ℕ} (hplace : place < table.length) :
    table[place].1 = .index place := by
  have hlength : table.length = length := by
    simpa using congrArg List.length hkeys
  have hmap : (table.map Prod.fst)[place]? = some table[place].1 := by
    rw [List.getElem?_map, List.getElem?_eq_getElem hplace, Option.map_some]
  rw [hkeys, List.getElem?_map, List.getElem?_range (hlength ▸ hplace),
    Option.map_some, Option.some.injEq] at hmap
  exact hmap.symm

/-- In a list, what is found is what is delivered exactly when each element is
delivered as it is alone. -/
theorem findsDelivered_iff {cell : ℕ} (array : PhpArray)
    (harray : (heap.cells cell).intern.zval = .array array.buckets)
    (hkeys : array.buckets.map Prod.fst =
      (List.range array.buckets.length).map fun index : ℕ => .index index)
    {delivered : List (ArrayKey × Value)}
    (hdelivered : delivered.map Prod.fst = array.buckets.map Prod.fst) :
    FindsDelivered heap cell delivered ↔
      List.Forall₂ DeliversBucket delivered array.buckets := by
  have hlength : delivered.length = array.buckets.length := by
    simpa using congrArg List.length hdelivered
  have hentry : ∀ index, indexEntry (heap.cells cell).intern.zval index =
      array.buckets[index.toNat]?.map Prod.snd := by
    rw [harray]
    exact indexEntry_of_range array hkeys
  rw [List.forall₂_iff_get]
  constructor
  · intro hfinds
    refine ⟨hlength, ?_⟩
    intro place hplace hplace'
    have hmax := array.place_le_longMax hkeys hplace'
    have hindex : (UInt64.ofNat place).toNat = place := by
      apply UInt64.toNat_ofNat_of_lt
      change place < 2 ^ 64
      unfold longMax at hmax
      omega
    obtain ⟨value, hvalue, hfound⟩ :=
      hfinds.within (.ofNat place) (by rwa [hindex])
    rw [hindex, List.getElem?_eq_getElem hplace, Option.some.injEq] at hvalue
    have hbucket : indexEntry (heap.cells cell).intern.zval (.ofNat place) =
        some array.buckets[place].2 := by
      rw [hentry, hindex, List.getElem?_eq_getElem hplace']
      rfl
    rw [List.get_eq_getElem, List.get_eq_getElem, hvalue]
    exact ⟨(key_of_range hkeys hplace').symm,
      (findsAt_iff hbucket value).mp hfound⟩
  · rintro ⟨_, hbuckets⟩
    constructor
    · intro index hindex
      have hindex' : index.toNat < array.buckets.length := hlength ▸ hindex
      have hbucket : indexEntry (heap.cells cell).intern.zval index =
          some array.buckets[index.toNat].2 := by
        rw [hentry, List.getElem?_eq_getElem hindex']
        rfl
      have halone := hbuckets index.toNat hindex hindex'
      refine ⟨delivered[index.toNat].2, ?_,
        (findsAt_iff hbucket _).mpr halone.value⟩
      have hkey := key_of_range (hdelivered.trans hkeys) hindex
      rw [List.getElem?_eq_getElem hindex, ← hkey]
    · intro index hindex
      apply findsNothingAt_of_none
      rw [hentry, List.getElem?_eq_none (hlength ▸ hindex)]
      rfl

/-! ## All views -/

theorem type_of_array (hheap : heap.Sound env) {cell : ℕ}
    {buckets : HashTable}
    (harray : (heap.cells cell).intern.zval = .array buckets) :
    (stdZvalType env heap cell).2 =
      if phpHandlebarsIsIntArray (.array buckets) then .array else .map := by
  have hcached := (hheap.cachedIntArray cell).2
  rw [harray] at hcached
  rw [stdZvalType, harray]
  simp [Zval.zType, hcached]

/-- In every state that the handlers reach, the views of an array cohere
exactly when its elements can be converted and, for a list, no null stands
behind another element. -/
theorem views_cohere_iff (env : HandlerEnv S) (slots : ℕ → Slot)
    (iterators : ℕ → SlotIterator S) (events : List HandlerEvent) (cell : ℕ)
    (array : PhpArray)
    (harray : (((HandlerState.start slots iterators).run env
      events).heap.cells cell).intern.zval = .array array.buckets) :
    ViewsCohere env ((HandlerState.start slots iterators).run env events).heap
      cell array.buckets ↔ CoherentElements array.buckets := by
  generalize hrun : ((HandlerState.start slots iterators).run env
    events).heap = heap at harray ⊢
  have hheap : heap.Sound env :=
    hrun ▸ HandlerState.run_sound env slots iterators events
  have htype := type_of_array hheap harray
  have hlist := isIntArray_iff array.buckets
  have harrayType : (stdZvalType env heap cell).2 = .array ↔
      array.buckets.map Prod.fst = (List.range array.buckets.length).map
        fun index : ℕ => .index index := by
    rw [htype, ← hlist]
    split <;> simp_all
  constructor
  · intro hcohere
    obtain ⟨delivered, hdelivers, _, hfinds⟩ := hcohere.elements
    obtain ⟨hconvertible, hkeys, halone⟩ := hdelivers.of_array harray
    refine ⟨hconvertible, ?_⟩
    intro hrange
    have hfirst := halone.mp ((findsDelivered_iff array harray hrange hkeys).mp
      (hfinds (harrayType.mpr hrange)))
    exact hfirst.order
  · intro helements
    obtain ⟨delivered, hdelivers⟩ :
        ∃ delivered, Delivers env heap cell delivered :=
      exists_delivers harray helements.convertible
    obtain ⟨_, hkeys, halone⟩ := hdelivers.of_array harray
    refine ⟨?_, harrayType, ?_, delivered, hdelivers, ?_, ?_⟩
    · intro cached hcached
      rw [(hheap cell).intArray cached hcached, harray]
      exact hlist
    · intro hother
      rw [htype] at hother ⊢
      split at hother <;> simp_all
    · have hlength : delivered.length = array.buckets.length := by
        simpa using congrArg List.length hkeys
      rw [stdZvalCount, harray, hlength]
    · intro hanswer
      have hrange := harrayType.mp hanswer
      apply (findsDelivered_iff array harray hrange hkeys).mpr
      exact halone.mpr ((nullsFirst_null_iff _).mpr
        ⟨helements.convertible, helements.nullsFirst hrange⟩)

def writtenHeap (val : Zval) : Heap :=
  ((HandlerState.start (fun _ => .null) fun _ => freshSlotIterator 0).run
    noHandlers [.write none 0 val]).heap

/-- `[null, 1, 'x', []]` -/
def mixedArray : PhpArray where
  buckets := [(.index 0, .null), (.index 1, .long 1),
    (.index 2, .string (ascii "x")), (.index 3, .array [])]
  nodup := by simp
  stored := by simp [ArrayKey.Stored, longMin, longMax]

/-- The array is written into a cell which has held a map, whose type was asked
and which was looked into. -/
def rewriteMap : List HandlerEvent :=
  [.write none 0 (.array [(.string (ascii "a"), .long 5)]), .type 0,
    .mapFind 0 (ascii "a") 1, .write none 0 (.array mixedArray.buckets),
    .type 0]

theorem list_views_cohere :
    ViewsCohere noHandlers
      ((HandlerState.start (fun _ => .null) fun _ => freshSlotIterator 0).run
        noHandlers rewriteMap).heap 0 mixedArray.buckets :=
  (views_cohere_iff noHandlers (fun _ => .null) (fun _ => freshSlotIterator 0)
    rewriteMap 0 mixedArray rfl).mpr
      ⟨by simp [mixedArray, Zval.zType, ZvalType.Convertible],
        by simp [mixedArray, Zval.LeavesSlot, Zval.zType]⟩

/-- An array with a reference is counted but not delivered, and the null of
`[1, null]` is found as null but delivered as 1. -/
theorem reference_and_null_incoherent :
    (¬ ViewsCohere noHandlers
        (writtenHeap (.array [(.index 0, .reference (.long 1))])) 0
        [(.index 0, .reference (.long 1))]) ∧
      ¬ ViewsCohere noHandlers
        (writtenHeap (.array [(.index 0, .long 1), (.index 1, .null)])) 0
        [(.index 0, .long 1), (.index 1, .null)] := by
  constructor
  · intro hcohere
    obtain ⟨delivered, ⟨fuel, hpass⟩, _⟩ := hcohere.elements
    cases hpass
  · intro hcohere
    obtain ⟨delivered, ⟨fuel, hpass⟩, _, hfinds⟩ := hcohere.elements
    have hdelivered : delivered =
        [(.index 0, .integer 1), (.index 1, .integer 1)] := by
      rcases fuel with _ | _ | fuel
      · cases hpass
      · cases hpass
      · exact (SlotPass.mk.inj (Except.ok.inj hpass)).1.symm
    obtain ⟨value, hvalue, hfound⟩ :=
      (hfinds rfl).within 1 (by simp [hdelivered])
    rw [findsAt_iff rfl] at hfound
    obtain rfl := Except.ok.inj hfound
    simp [hdelivered] at hvalue

end PhpHandlebars
