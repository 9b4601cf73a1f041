import PhpHandlebars.ValueIterator
import PhpHandlebars.ValueLookup
import Mathlib.Tactic

/-!
# `foreach` over a Traversable object

What PHP's `foreach ($object as $key => $value)` sees, one round after the
other: a round fetches the value and the key of the current element, runs the
body, and moves the iterator forward.  A step of
`handlebars_std_zval_iterator_object` calls the same functions, but moves
forward before the element is delivered, and converts the key, which may
throw.
-/

namespace PhpHandlebars

structure ForeachElement where
  key : Option Zval
  value : Zval

inductive ForeachEnd (S : Type) where
  | running (zit : S)
  | finished
  | threw (method : IteratorMethod)

/-- What a round runs the body for, and how it ends. -/
abbrev ForeachRound (S : Type) := Option ForeachElement × ForeachEnd S

variable {S : Type}

/-- Without `get_current_key`, PHP counts the elements. -/
def foreachKey (funcs : IteratorFuncs S) (zit : S) :
    Except Exception (Option Zval × S) :=
  match funcs.getCurrentKey with
  | some getCurrentKey =>
      (getCurrentKey zit).map fun (key, zit) => (some key, zit)
  | none => .ok (none, zit)

/-- The rest of a round, once the value is fetched. -/
def foreachVisit (funcs : IteratorFuncs S) (value : Zval) (zit : S) :
    ForeachRound S :=
  match foreachKey funcs zit with
  | .error _ => (none, .threw .getCurrentKey)
  | .ok (key, zit) =>
      -- the body runs here
      match funcs.moveForward zit with
      | .error _ => (some ⟨key, value⟩, .threw .moveForward)
      | .ok (_, zit) => (some ⟨key, value⟩, .running zit)

def foreachRound (funcs : IteratorFuncs S) (zit : S) : ForeachRound S :=
  match funcs.valid zit with
  | .error _ => (none, .threw .valid)
  | .ok (false, _) => (none, .finished)
  | .ok (true, zit) =>
      match funcs.getCurrentData zit with
      | .error _ => (none, .threw .getCurrentData)
      | .ok (value, zit) => foreachVisit funcs value zit

/-- The elements which at most `fuel` rounds run the body for. -/
def foreachFrom (funcs : IteratorFuncs S) :
    ℕ → S → List ForeachElement × ForeachEnd S
  | 0, zit => ([], .running zit)
  | fuel + 1, zit =>
      match foreachRound funcs zit with
      | (element, .running zit) =>
          let rest := foreachFrom funcs fuel zit
          (element.toList ++ rest.1, rest.2)
      | (element, stopped) => (element.toList, stopped)

def foreachPass (funcs : IteratorFuncs S) (fuel : ℕ) :
    Except Exception S → List ForeachElement × ForeachEnd S
  | .error _ => ([], .threw .getIterator)
  | .ok zit =>
      match funcs.rewind with
      | some rewind =>
          match rewind zit with
          | .error _ => ([], .threw .rewind)
          | .ok (_, zit) => foreachFrom funcs fuel zit
      | none => foreachFrom funcs fuel zit

/-! ## One step and one round -/

/-- How a step of `handlebars_std_zval_iterator_object` goes, given the round
of `foreach` on the same iterator. -/
inductive StepOfRound (env : IterationEnv S) (funcs : IteratorFuncs S)
    (it : ValueIterator S) : ForeachRound S → IterationStep S → Prop where
  | delivered {element : ForeachElement} {zit : S} {it' : ValueIterator S}
      (hvalue : handlebarsValueFromZval element.value it.cur = .ok it'.cur)
      (hkey : it'.key = element.key.map env.convertToString)
      (hconverts : ∀ key ∈ element.key, env.convertThrows key = false)
      (hindex : element.key = none → it'.index = it.index + 1)
      (hnext : it'.next = .object funcs zit)
      (hlog : ∃ calls : List IteratorMethod,
        it'.log = it.log ++ calls.map .called) :
      StepOfRound env funcs it (some element, .running zit) (.ok (true, it'))
  | finished {it' : ValueIterator S} (hnext : it'.next = .void)
      (hlog : it'.log = it.log ++ [.called .valid, .released]) :
      StepOfRound env funcs it (none, .finished) (.ok (false, it'))
  | threw {element : Option ForeachElement} {method : IteratorMethod}
      {it' : ValueIterator S}
      (helement : element.isSome ↔ method = .moveForward)
      (hvalue : ∀ fetched ∈ element, fetched.value.zType.Convertible)
      (hnext : it'.next = .void)
      (hlog : ∃ calls : List IteratorMethod, it'.log =
        it.log ++ calls.map .called ++ [.threw method, .released]) :
      StepOfRound env funcs it (element, .threw method) (.ok (false, it'))
  -- foreach goes on, it does not convert its keys
  | keyThrew {element : ForeachElement} {key : Zval} {stop : ForeachEnd S}
      {it' : ValueIterator S} (hkey : key ∈ element.key)
      (hthrows : env.convertThrows key)
      (hvalue : element.value.zType.Convertible)
      (hlog : ∃ calls : List IteratorMethod, it'.log =
        it.log ++ calls.map .called ++
          [.keyThrew, .called .moveForward, .released]) :
      StepOfRound env funcs it (some element, stop) (.ok (false, it'))
  | raised {round : ForeachRound S} {value : Zval} {error : LibError}
      (hvalue : handlebarsValueFromZval value it.cur = .error error)
      (helement : ∀ fetched ∈ round.1, fetched.value = value)
      (hnone : round.1 = none → round.2 = .threw .getCurrentKey) :
      StepOfRound env funcs it round (.error (.raised error))

theorem fetchKey_of_error {env : IterationEnv S} {funcs : IteratorFuncs S}
    {zit : S} {thrown : Exception} (hkey : foreachKey funcs zit = .error thrown)
    (it : ValueIterator S) :
    it.fetchKey env funcs zit =
      (it.record [.called .getCurrentKey, .threw .getCurrentKey],
        .error thrown) := by
  unfold foreachKey at hkey
  unfold ValueIterator.fetchKey ValueIterator.call
  cases hfunc : funcs.getCurrentKey with
  | none => simp [hfunc] at hkey
  | some getCurrentKey =>
      cases hcall : getCurrentKey zit <;>
        simp_all [Except.map]

theorem fetchKey_of_ok {env : IterationEnv S} {funcs : IteratorFuncs S}
    {zit zit' : S} {key : Option Zval}
    (hkey : foreachKey funcs zit = .ok (key, zit')) (it : ValueIterator S) :
    ∃ it', it.fetchKey env funcs zit =
        (it', .ok (key.any env.convertThrows, zit')) ∧
      it'.cur = it.cur ∧ it'.key = key.map env.convertToString ∧
      (key = none → it'.index = it.index + 1) ∧
      ∃ calls : List IteratorMethod,
        it'.log = it.log ++ calls.map .called ++
          if key.any env.convertThrows then [.keyThrew] else [] := by
  unfold foreachKey at hkey
  unfold ValueIterator.fetchKey ValueIterator.call
  cases hfunc : funcs.getCurrentKey with
  | none =>
      simp only [hfunc, Except.ok.injEq, Prod.mk.injEq] at hkey
      rcases hkey with ⟨rfl, rfl⟩
      exact ⟨_, rfl, rfl, rfl, fun _ => rfl, [], by simp⟩
  | some getCurrentKey =>
      cases hcall : getCurrentKey zit with
      | error thrown => simp [hfunc, hcall, Except.map] at hkey
      | ok result =>
          simp only [hfunc, hcall, Except.map, Except.ok.injEq,
            Prod.mk.injEq] at hkey
          rcases hkey with ⟨rfl, rfl⟩
          simp only [hcall]
          exact ⟨(it.record [.called .getCurrentKey]).convertKey env _,
            rfl, rfl, rfl, by simp, [.getCurrentKey], rfl⟩

theorem foreachVisit_value {funcs : IteratorFuncs S} {value : Zval} {zit : S}
    {element : ForeachElement}
    (helement : element ∈ (foreachVisit funcs value zit).1) :
    element.value = value := by
  unfold foreachVisit at helement
  cases hkey : foreachKey funcs zit with
  | error thrown => simp [hkey] at helement
  | ok fetched =>
      cases hmove : funcs.moveForward fetched.2 <;>
        simp only [hkey, hmove, Option.mem_some_iff] at helement <;>
        exact helement ▸ rfl

theorem foreachVisit_none {funcs : IteratorFuncs S} {value : Zval} {zit : S}
    (hnone : (foreachVisit funcs value zit).1 = none) :
    (foreachVisit funcs value zit).2 = .threw .getCurrentKey := by
  unfold foreachVisit at hnone ⊢
  cases hkey : foreachKey funcs zit with
  | error thrown => rfl
  | ok fetched =>
      cases hmove : funcs.moveForward fetched.2 <;>
        simp [hkey, hmove] at hnone

theorem iteratorObject_stepOfRound (env : IterationEnv S)
    (funcs : IteratorFuncs S) (it : ValueIterator S) (zit : S) :
    StepOfRound env funcs it (foreachRound funcs zit)
      (handlebarsStdZvalIteratorObject env it funcs zit) := by
  unfold foreachRound handlebarsStdZvalIteratorObject ValueIterator.call
  rcases funcs.valid zit with thrown | ⟨more, zit⟩
  · refine .threw (by simp) (by simp) rfl ⟨[.valid], ?_⟩
    simp [ValueIterator.record]
  cases more with
  | false =>
      refine .finished rfl ?_
      simp [ValueIterator.record]
  | true =>
      dsimp only
      rcases funcs.getCurrentData zit with thrown | ⟨val, zit⟩
      · refine .threw (by simp) (by simp) rfl
          ⟨[.valid, .getCurrentData], ?_⟩
        simp [ValueIterator.record]
      dsimp only [ValueIterator.record]
      cases hvalue : handlebarsValueFromZval val it.cur with
      | error error =>
          exact .raised hvalue (fun _ => foreachVisit_value) foreachVisit_none
      | ok value =>
          dsimp only [foreachVisit]
          cases hkey : foreachKey funcs zit with
          | error thrown =>
              rw [fetchKey_of_error hkey]
              refine .threw (by simp) (by simp) rfl
                ⟨[.valid, .getCurrentData, .getCurrentKey], ?_⟩
              simp [ValueIterator.record]
          | ok result =>
              rcases result with ⟨key, zit'⟩
              obtain ⟨it', hfetch, hcur, hkey', hindex, calls, hlog⟩ :=
                fetchKey_of_ok hkey { it with
                  cur := value
                  key := none
                  log := it.log ++ [.called .valid] ++
                    [.called .getCurrentData] }
              have hplain : val.zType.Convertible :=
                (valueFromZval_isOk_iff val it.cur).mp ⟨value, hvalue⟩
              rw [hfetch]
              cases hthrows : key.any env.convertThrows with
              | true =>
                  obtain ⟨fetched, rfl⟩ : ∃ fetched, key = some fetched := by
                    cases key <;> simp at hthrows ⊢
                  have hthrew : ∀ stop, StepOfRound env funcs it
                      (some ⟨some fetched, val⟩, stop)
                      (.ok (false,
                        (it'.record [.called .moveForward]).close .released)) :=
                    fun stop => .keyThrew rfl hthrows hplain
                      ⟨[.valid, .getCurrentData] ++ calls, by
                        simp [ValueIterator.record, hlog, hthrows]⟩
                  dsimp only
                  rcases funcs.moveForward zit' with _ | _
                  · exact hthrew _
                  · exact hthrew _
              | false =>
                  rw [hthrows] at hlog
                  have hconverts : ∀ fetched ∈ key,
                      env.convertThrows fetched = false := by
                    rintro fetched ⟨rfl⟩
                    exact hthrows
                  dsimp only
                  rcases funcs.moveForward zit' with thrown | ⟨_, zit''⟩
                  · refine .threw (by simp) ?_ rfl
                      ⟨[.valid, .getCurrentData] ++ calls ++ [.moveForward],
                        ?_⟩
                    · rintro _ ⟨rfl⟩
                      exact hplain
                    · simp [ValueIterator.close, ValueIterator.record, hlog]
                  · change StepOfRound env funcs it
                      (some ⟨key, val⟩, .running zit'')
                      (.ok (true, { it'.record [.called .moveForward] with
                        next := .object funcs zit'' }))
                    refine .delivered ?_ hkey' hconverts hindex rfl
                      ⟨[.valid, .getCurrentData] ++ calls ++ [.moveForward],
                        ?_⟩
                    · exact hvalue.trans (congrArg Except.ok hcur.symm)
                    · simp [ValueIterator.record, hlog]

theorem advance_stepOfRound (env : IterationEnv S)
    {funcs : IteratorFuncs S} {it : ValueIterator S} {zit : S}
    (hnext : it.next = .object funcs zit) :
    StepOfRound env funcs it (foreachRound funcs zit) (it.advance env) := by
  rw [ValueIterator.advance, hnext]
  exact iteratorObject_stepOfRound env funcs it zit

/-- How an iteration starts, given how `foreach` does. -/
inductive StartOfForeach (env : IterationEnv S) (funcs : IteratorFuncs S)
    (it : ValueIterator S) :
    Except Exception S → IterationStep S → Prop where
  | noIterator {thrown : Exception} :
      StartOfForeach env funcs it (.error thrown) (.error .nullIterator)
  | rewindThrew {zit : S} {it' : ValueIterator S}
      (hforeach : ∀ fuel, foreachPass funcs fuel (.ok zit) =
        ([], .threw .rewind))
      (hnext : it'.next = .void)
      (hlog : it'.log = it.log ++ [.called .getIterator, .obtained,
        .called .rewind, .threw .rewind, .released]) :
      StartOfForeach env funcs it (.ok zit) (.ok (false, it'))
  | started {zit zit' : S} {it' : ValueIterator S}
      (hforeach : ∀ fuel, foreachPass funcs fuel (.ok zit) =
        foreachFrom funcs fuel zit')
      (hnext : it'.next = .object funcs zit')
      (hcur : it'.cur = it.cur) (hindex : it'.index = it.index)
      (hlog : ∃ calls : List IteratorMethod, it'.log =
        it.log ++ [.called .getIterator, .obtained] ++ calls.map .called) :
      StartOfForeach env funcs it (.ok zit) (it'.advance env)

theorem initTraversable_startOfForeach (env : IterationEnv S)
    (it : ValueIterator S) (funcs : IteratorFuncs S)
    (getIterator : Except Exception S) :
    StartOfForeach env funcs it getIterator
      (initTraversable env it funcs getIterator) := by
  cases getIterator with
  | error thrown => exact .noIterator
  | ok zit =>
      cases hrewind : funcs.rewind with
      | none =>
          let it' : ValueIterator S :=
            { it.record [.called .getIterator, .obtained] with
              next := .object funcs zit }
          have hstart : initTraversable env it funcs (.ok zit) =
              it'.advance env := by
            simp only [initTraversable, hrewind]
            rfl
          rw [hstart]
          refine .started (fun fuel => ?_) rfl rfl rfl ⟨[], ?_⟩
          · simp only [foreachPass, hrewind]
          · simp [it', ValueIterator.record]
      | some rewind =>
          cases hcall : rewind zit with
          | error thrown =>
              simp only [initTraversable, hrewind, ValueIterator.call, hcall]
              refine .rewindThrew (fun fuel => ?_) rfl ?_
              · simp only [foreachPass, hrewind, hcall]
              · simp [ValueIterator.record]
          | ok result =>
              let it' : ValueIterator S :=
                { it.record [.called .getIterator, .obtained,
                    .called .rewind] with next := .object funcs result.2 }
              have hstart : initTraversable env it funcs (.ok zit) =
                  it'.advance env := by
                simp only [initTraversable, hrewind, ValueIterator.call,
                  hcall]
                simp [it', ValueIterator.advance, ValueIterator.record]
              rw [hstart]
              refine .started (fun fuel => ?_) rfl rfl rfl ⟨[.rewind], ?_⟩
              · simp only [foreachPass, hrewind, hcall]
              · simp [it', ValueIterator.record]

theorem iteratorInit_startOfForeach {env : IterationEnv S} {handle : ℕ}
    {funcs : IteratorFuncs S} {getIterator : Except Exception S}
    (hobject : env.object handle = .traversable funcs getIterator)
    (it : ValueIterator S) :
    StartOfForeach env funcs it getIterator
      (handlebarsStdZvalIteratorInit env it (.object handle)) := by
  rw [handlebarsStdZvalIteratorInit, hobject]
  exact initTraversable_startOfForeach env it funcs getIterator

/-! ## Objects whose methods do not throw -/

/-- No method throws in the course of a `foreach`. -/
def Quiet (funcs : IteratorFuncs S) (getIterator : Except Exception S) :
    Prop :=
  ∀ fuel method, (foreachPass funcs fuel getIterator).2 ≠ .threw method

/-- An element, with its position, as `foreach` sees it: by-value, and under
the key in string form or the position. -/
structure DeliversElement (env : IterationEnv S)
    (delivery : ArrayKey × Value) (element : ForeachElement × ℕ) : Prop where
  key : delivery.1 = element.1.key.elim (.index element.2) fun key =>
    .string (env.convertToString key)
  value : handlebarsValueFromZval element.1.value.resolve .null =
    .ok delivery.2

structure DeliversForeach (env : IterationEnv S) (start : ℕ)
    (run : List ForeachElement × ForeachEnd S) (pass : IterationPass S) :
    Prop where
  elements : List.Forall₂ (DeliversElement env) pass.delivered
    (run.1.zipIdx start)
  finished : pass.finished ↔ run.2 = .finished

theorem foreachFrom_of_running {funcs : IteratorFuncs S} {zit zit' : S}
    {element : ForeachElement}
    (hround : foreachRound funcs zit = (some element, .running zit'))
    (fuel : ℕ) :
    foreachFrom funcs (fuel + 1) zit =
      (element :: (foreachFrom funcs fuel zit').1,
        (foreachFrom funcs fuel zit').2) := by
  rw [foreachFrom, hround]
  rfl

theorem foreachFrom_of_finished {funcs : IteratorFuncs S} {zit : S}
    (hround : foreachRound funcs zit = (none, .finished)) (fuel : ℕ) :
    foreachFrom funcs (fuel + 1) zit = ([], .finished) := by
  rw [foreachFrom, hround]
  rfl

theorem foreachFrom_of_threw {funcs : IteratorFuncs S} {zit : S}
    {element : Option ForeachElement} {method : IteratorMethod}
    (hround : foreachRound funcs zit = (element, .threw method)) (fuel : ℕ) :
    foreachFrom funcs (fuel + 1) zit = (element.toList, .threw method) := by
  rw [foreachFrom, hround]

theorem foreachRound_ne_threw {funcs : IteratorFuncs S} {zit : S}
    (hquiet : ∀ fuel method, (foreachFrom funcs fuel zit).2 ≠ .threw method)
    (element : Option ForeachElement) (method : IteratorMethod) :
    foreachRound funcs zit ≠ (element, .threw method) := by
  intro hround
  apply hquiet 1 method
  rw [foreachFrom_of_threw hround]

theorem quiet_of_running {funcs : IteratorFuncs S} {zit zit' : S}
    {element : ForeachElement}
    (hround : foreachRound funcs zit = (some element, .running zit'))
    (hquiet : ∀ fuel method, (foreachFrom funcs fuel zit).2 ≠ .threw method) :
    ∀ fuel method, (foreachFrom funcs fuel zit').2 ≠ .threw method := by
  intro fuel method
  have hrun := hquiet (fuel + 1) method
  rwa [foreachFrom_of_running hround] at hrun

theorem deliversForeach_cons {env : IterationEnv S} {start : ℕ}
    {element : ForeachElement} {run : List ForeachElement × ForeachEnd S}
    {delivery : ArrayKey × Value} {tail : IterationPass S} :
    DeliversForeach env start (element :: run.1, run.2)
        { tail with delivered := delivery :: tail.delivered } ↔
      DeliversElement env delivery (element, start) ∧
        DeliversForeach env (start + 1) run tail := by
  constructor
  · intro hdelivers
    have helements := hdelivers.elements
    rw [List.zipIdx_cons] at helements
    obtain ⟨hhead, hrest⟩ := List.forall₂_cons.mp helements
    exact ⟨hhead, hrest, hdelivers.finished⟩
  · intro hparts
    constructor
    · rw [List.zipIdx_cons]
      exact .cons hparts.1 hparts.2.elements
    · exact hparts.2.finished

theorem foreachKey_isSome {funcs : IteratorFuncs S} {zit : S}
    {fetched : Option Zval × S} (hkey : foreachKey funcs zit = .ok fetched) :
    fetched.1.isSome = funcs.getCurrentKey.isSome := by
  unfold foreachKey at hkey
  cases hfunc : funcs.getCurrentKey with
  | none =>
      simp only [hfunc, Except.ok.injEq] at hkey
      exact hkey ▸ rfl
  | some getCurrentKey =>
      cases hcall : getCurrentKey zit <;>
        simp only [hfunc, hcall, Except.map, Except.ok.injEq,
          reduceCtorEq] at hkey
      exact hkey ▸ rfl

/-- Every element has a key, or none has. -/
theorem foreachRound_key {funcs : IteratorFuncs S} {zit : S}
    {element : ForeachElement}
    (helement : element ∈ (foreachRound funcs zit).1) :
    element.key.isSome = funcs.getCurrentKey.isSome := by
  unfold foreachRound at helement
  split at helement
  · simp at helement
  · simp at helement
  · split at helement
    · simp at helement
    · next value zit _ =>
        unfold foreachVisit at helement
        cases hkey : foreachKey funcs zit with
        | error thrown => simp [hkey] at helement
        | ok fetched =>
            rw [← foreachKey_isSome hkey]
            cases hmove : funcs.moveForward fetched.2 <;>
              simp only [hkey, hmove, Option.mem_some_iff] at helement <;>
              exact helement ▸ rfl

theorem resolve_of_convertible {val : Zval} (hval : val.zType.Convertible) :
    val.resolve = val :=
  resolve_of_plain hval.2.1 hval.2.2

/-- An element with a key is delivered as it is when the slot does not matter
to its value. -/
theorem deliversElement_iff {env : IterationEnv S} {it it' : ValueIterator S}
    {element : ForeachElement} (hfunc : element.key.isSome)
    (hvalue : handlebarsValueFromZval element.value it.cur = .ok it'.cur)
    (hkey : it'.key = element.key.map env.convertToString) (start : ℕ) :
    DeliversElement env it'.element (element, start) ↔
      handlebarsValueFromZval element.value .null = .ok it'.cur := by
  have hplain : element.value.resolve = element.value :=
    resolve_of_convertible
      ((valueFromZval_isOk_iff _ it.cur).mp ⟨_, hvalue⟩)
  obtain ⟨key, helementKey⟩ := Option.isSome_iff_exists.mp hfunc
  constructor
  · intro hdelivers
    rw [← hplain]
    exact hdelivers.value
  · intro halone
    constructor
    · simp [ValueIterator.element, hkey, helementKey]
    · rw [hplain]
      exact halone

/-- All keys have a string form. -/
def KeysConvert (env : IterationEnv S) (elements : List ForeachElement) :
    Prop :=
  ∀ element ∈ elements, ∀ key ∈ element.key, env.convertThrows key = false

theorem KeysConvert.nil (env : IterationEnv S) : KeysConvert env [] := by
  simp [KeysConvert]

theorem keysConvert_cons_iff {env : IterationEnv S} {element : ForeachElement}
    {rest : List ForeachElement} :
    KeysConvert env (element :: rest) ↔
      (∀ key ∈ element.key, env.convertThrows key = false) ∧
        KeysConvert env rest :=
  List.forall_mem_cons

/-- A foreach does not end at the element whose key does not convert. -/
theorem foreachFrom_cons {funcs : IteratorFuncs S} {zit : S}
    {element : ForeachElement} {stop : ForeachEnd S}
    (hround : foreachRound funcs zit = (some element, stop)) (fuel : ℕ) :
    ∃ later, (foreachFrom funcs (fuel + 1) zit).1 = element :: later := by
  rw [foreachFrom, hround]
  cases stop <;> simp

theorem not_keysConvert_of_round {env : IterationEnv S}
    {funcs : IteratorFuncs S} {zit : S} {element : ForeachElement}
    {stop : ForeachEnd S} {key : Zval}
    (hround : foreachRound funcs zit = (some element, stop))
    (hkey : key ∈ element.key) (hthrows : env.convertThrows key) (fuel : ℕ) :
    ¬ KeysConvert env (foreachFrom funcs (fuel + 1) zit).1 := by
  obtain ⟨later, hlater⟩ := foreachFrom_cons hround fuel
  intro hkeys
  have hconverts := hkeys element (by simp [hlater]) key hkey
  simp [hthrows] at hconverts

theorem exists_unconvertible_of_round {funcs : IteratorFuncs S} {zit : S}
    {element : ForeachElement} {stop : ForeachEnd S} {rv : Value}
    {error : LibError}
    (hround : foreachRound funcs zit = (some element, stop))
    (hvalue : handlebarsValueFromZval element.value rv = .error error)
    (fuel : ℕ) :
    ∃ fetched ∈ (foreachFrom funcs (fuel + 1) zit).1,
      ¬ fetched.value.zType.Convertible := by
  obtain ⟨later, hlater⟩ := foreachFrom_cons hround fuel
  refine ⟨element, by simp [hlater], ?_⟩
  rw [← valueFromZval_isOk_iff element.value rv, hvalue]
  simp

/-- With keys, the elements are delivered as they are exactly when all keys
convert and no null comes after anything else. -/
theorem objectPass_iff (env : IterationEnv S) {funcs : IteratorFuncs S}
    (hfunc : funcs.getCurrentKey.isSome) {it : ValueIterator S} {zit : S}
    (hnext : it.next = .object funcs zit)
    (hquiet : ∀ fuel method, (foreachFrom funcs fuel zit).2 ≠ .threw method)
    (fuel start : ℕ) :
    (∃ pass, passFrom env fuel it = .ok pass ∧
        DeliversForeach env start (foreachFrom funcs fuel zit) pass) ↔
      KeysConvert env (foreachFrom funcs fuel zit).1 ∧
        NullsFirst it.cur ((foreachFrom funcs fuel zit).1.map (·.value)) := by
  induction fuel generalizing it zit start with
  | zero =>
      refine iff_of_true ⟨_, rfl, .nil, ?_⟩ ⟨.nil env, .nil it.cur⟩
      simp [foreachFrom]
  | succ fuel ih =>
      have hstep := advance_stepOfRound env hnext
      rw [passFrom]
      generalize it.advance env = step at hstep ⊢
      generalize hround : foreachRound funcs zit = round at hstep
      cases hstep with
      | @delivered element zit' it' hvalue hkey hconverts hindex hnext' hlog =>
          have htail := quiet_of_running hround hquiet
          have hrest := ih hnext' htail (start + 1)
          have hsome : element.key.isSome := by
            rw [foreachRound_key (by rw [hround]; rfl)]
            exact hfunc
          have hhead := deliversElement_iff hsome hvalue hkey start
          rw [foreachFrom_of_running hround, List.map_cons,
            keysConvert_cons_iff, nullsFirst_cons_iff]
          constructor
          · rintro ⟨pass, hpass, hdelivers⟩
            obtain ⟨tail, hpass', rfl⟩ := continuePass_true_iff.mp hpass
            have hparts := deliversForeach_cons.mp hdelivers
            have hfirst := hrest.mp ⟨tail, hpass', hparts.2⟩
            exact ⟨⟨hconverts, hfirst.1⟩,
              it'.cur, hvalue, hhead.mp hparts.1, hfirst.2⟩
          · rintro ⟨⟨_, hkeys⟩, value, hvalue', halone, hfirst⟩
            obtain rfl := Except.ok.inj (hvalue.symm.trans hvalue')
            obtain ⟨tail, hpass, hdelivers⟩ := hrest.mpr ⟨hkeys, hfirst⟩
            exact ⟨_, continuePass_true_iff.mpr ⟨tail, hpass, rfl⟩,
              deliversForeach_cons.mpr ⟨hhead.mpr halone, hdelivers⟩⟩
      | finished hnext' hlog =>
          rw [foreachFrom_of_finished hround]
          exact iff_of_true ⟨_, rfl, .nil, by simp⟩ ⟨.nil env, .nil it.cur⟩
      | threw helement hvalue hnext' hlog =>
          exact absurd hround (foreachRound_ne_threw hquiet _ _)
      | keyThrew hkey hthrows hvalue hlog =>
          refine iff_of_false ?_ fun hcondition =>
            not_keysConvert_of_round hround hkey hthrows fuel hcondition.1
          rintro ⟨pass, hpass, hdelivers⟩
          obtain rfl := Except.ok.inj hpass
          obtain ⟨later, hlater⟩ := foreachFrom_cons hround fuel
          have hlength := hdelivers.elements.length_eq
          simp [hlater] at hlength
      | @raised round value error hvalue helement hnone =>
          refine iff_of_false (by simp [continuePass]) ?_
          rintro ⟨_, hfirst⟩
          rcases round with ⟨_ | element, stop⟩
          · obtain rfl := hnone rfl
            exact foreachRound_ne_threw hquiet _ _ hround
          · obtain rfl := helement element rfl
            obtain ⟨fetched, hfetched, hfails⟩ :=
              exists_unconvertible_of_round hround hvalue fuel
            exact hfails (hfirst.convertible _ (List.mem_map_of_mem hfetched))

/-- A round goes on only after its body. -/
theorem foreachRound_ne_running (funcs : IteratorFuncs S) (zit zit' : S) :
    foreachRound funcs zit ≠ (none, .running zit') := by
  intro hround
  unfold foreachRound at hround
  split at hround
  · simp at hround
  · simp at hround
  · split at hround
    · simp at hround
    · next value zit _ =>
        have hthrew := foreachVisit_none (congrArg Prod.fst hround)
        simp [hround] at hthrew

theorem foreachFrom_one_nil_iff {funcs : IteratorFuncs S} {zit : S}
    (hquiet : ∀ fuel method, (foreachFrom funcs fuel zit).2 ≠ .threw method) :
    (foreachFrom funcs 1 zit).1 = [] ↔
      foreachRound funcs zit = (none, .finished) := by
  constructor
  · intro hnil
    rcases hround : foreachRound funcs zit with ⟨element, zit' | _ | method⟩
    · cases element with
      | none => exact absurd hround (foreachRound_ne_running funcs zit zit')
      | some element =>
          rw [foreachFrom_of_running hround] at hnil
          simp at hnil
    · cases element with
      | none => rfl
      | some element => simp [foreachFrom, hround] at hnil
    · exact absurd hround (foreachRound_ne_threw hquiet _ _)
  · intro hround
    rw [foreachFrom_of_finished hround]

/-- Without `get_current_key` the first index is off by one, unless there is
nothing to deliver. -/
theorem keylessPass_iff (env : IterationEnv S) {funcs : IteratorFuncs S}
    (hfunc : funcs.getCurrentKey = none) {it : ValueIterator S} {zit : S}
    (hnext : it.next = .object funcs zit) (hindex : it.index = 0)
    (hquiet : ∀ fuel method, (foreachFrom funcs fuel zit).2 ≠ .threw method)
    (fuel : ℕ) :
    (∃ pass, passFrom env (fuel + 1) it = .ok pass ∧
        DeliversForeach env 0 (foreachFrom funcs (fuel + 1) zit) pass) ↔
      foreachRound funcs zit = (none, .finished) := by
  have hstep := advance_stepOfRound env hnext
  rw [passFrom]
  generalize it.advance env = step at hstep ⊢
  generalize hround : foreachRound funcs zit = round at hstep ⊢
  cases hstep with
  | @delivered element zit' it' hvalue hkey hconverts hcount hnext' hlog =>
      refine iff_of_false ?_ (by simp)
      rintro ⟨pass, hpass, hdelivers⟩
      have hnone : element.key = none := by
        rw [← Option.isNone_iff_eq_none, ← Option.not_isSome,
          foreachRound_key (by rw [hround]; rfl), hfunc]
        rfl
      obtain ⟨tail, htail, rfl⟩ := continuePass_true_iff.mp hpass
      have helements := hdelivers.elements
      rw [foreachFrom_of_running hround, List.zipIdx_cons] at helements
      have hhead := (List.forall₂_cons.mp helements).1.key
      simp [ValueIterator.element, hkey, hnone, hcount hnone, hindex] at hhead
  | finished hnext' hlog =>
      rw [foreachFrom_of_finished hround]
      exact iff_of_true ⟨_, rfl, .nil, by simp⟩ rfl
  | threw helement hvalue hnext' hlog =>
      exact absurd hround (foreachRound_ne_threw hquiet _ _)
  | keyThrew hkey hthrows hvalue hlog =>
      have hsome := foreachRound_key (by rw [hround]; rfl)
      simp [hfunc, Option.mem_def.mp hkey] at hsome
  | raised hvalue helement hnone =>
      refine iff_of_false (by simp [continuePass]) ?_
      rintro rfl
      simpa using hnone rfl

/-- What is delivered is what `foreach` sees exactly when the class provides
keys or there are no elements, all keys convert, and no null comes after
anything else. -/
theorem traversable_delivered_iff {env : IterationEnv S}
    {it : ValueIterator S} {handle : ℕ} {funcs : IteratorFuncs S}
    {getIterator : Except Exception S}
    (hobject : env.object handle = .traversable funcs getIterator)
    (hquiet : Quiet funcs getIterator) (hindex : it.index = 0) :
    (∀ fuel, ∃ pass, iterationPass env fuel it (.object handle) = .ok pass ∧
        DeliversForeach env 0 (foreachPass funcs (fuel + 1) getIterator)
          pass) ↔
      (funcs.getCurrentKey = none →
        (foreachPass funcs 1 getIterator).1 = []) ∧
      ∀ fuel, KeysConvert env (foreachPass funcs fuel getIterator).1 ∧
        NullsFirst it.cur
          ((foreachPass funcs fuel getIterator).1.map (·.value)) := by
  have hstart := iteratorInit_startOfForeach hobject it
  unfold iterationPass
  generalize handlebarsStdZvalIteratorInit env it (.object handle) = step
    at hstart ⊢
  cases hstart with
  | noIterator => exact absurd rfl (hquiet 0 .getIterator)
  | rewindThrew hforeach hnext hlog =>
      exfalso
      apply hquiet 0 .rewind
      rw [hforeach]
  | @started zit zit' it' hforeach hnext hcur hcount hlog =>
      have hquiet' : ∀ fuel method,
          (foreachFrom funcs fuel zit').2 ≠ .threw method := by
        intro fuel method
        rw [← hforeach]
        exact hquiet fuel method
      simp only [hforeach, ← hcur]
      change (∀ fuel, ∃ pass, passFrom env (fuel + 1) it' = .ok pass ∧ _) ↔ _
      cases hfunc : funcs.getCurrentKey with
      | none =>
          have hkeyless := keylessPass_iff env hfunc hnext
            (hcount.trans hindex) hquiet'
          rw [forall_congr' hkeyless, forall_const, foreachFrom_one_nil_iff
            hquiet']
          constructor
          · intro hround
            refine ⟨fun _ => hround, fun fuel => ?_⟩
            cases fuel with
            | zero => exact ⟨.nil env, .nil _⟩
            | succ fuel =>
                rw [foreachFrom_of_finished hround]
                exact ⟨.nil env, .nil _⟩
          · intro hcondition
            exact hcondition.1 rfl
      | some getCurrentKey =>
          have hkeyed := fun fuel => objectPass_iff env
            (by simp [hfunc]) hnext hquiet' (fuel + 1) 0
          rw [forall_congr' hkeyed]
          constructor
          · intro hfirst
            refine ⟨by simp, fun fuel => ?_⟩
            cases fuel with
            | zero => exact ⟨.nil env, .nil _⟩
            | succ fuel => exact hfirst fuel
          · intro hcondition fuel
            exact hcondition.2 (fuel + 1)

/-- An iterator over a list of keys and values. -/
def listFuncs : IteratorFuncs (List (Zval × Zval)) where
  rewind := none
  valid := fun zit => .ok (!zit.isEmpty, zit)
  getCurrentData := fun zit => .ok (zit.head?.elim .null Prod.snd, zit)
  getCurrentKey := some fun zit => .ok (zit.head?.elim .null Prod.fst, zit)
  moveForward := fun zit => .ok ((), zit.tail)

/-- Every object is iterated over by the given functions. -/
def iteratedBy {S : Type} (funcs : IteratorFuncs S)
    (getIterator : Except Exception S) : IterationEnv S where
  object := fun _ => .traversable funcs getIterator
  convertToString := fun key =>
    match key with
    | .long number => ascii (toString number)
    | .string value => value
    | .true => ascii "1"
    | _ => []
  convertThrows := fun key => key.zType = .isObject

theorem listFuncs_foreach (zit : List (Zval × Zval)) (fuel : ℕ) :
    (foreachFrom listFuncs fuel zit).1 =
        (zit.take fuel).map (fun entry => ⟨some entry.1, entry.2⟩) ∧
      ∀ method, (foreachFrom listFuncs fuel zit).2 ≠ .threw method := by
  induction fuel generalizing zit with
  | zero => simp [foreachFrom]
  | succ fuel ih =>
      rcases zit with _ | ⟨⟨key, value⟩, rest⟩
      · have hround : foreachRound listFuncs [] = (none, .finished) := rfl
        simp [foreachFrom_of_finished hround]
      · have hround : foreachRound listFuncs ((key, value) :: rest) =
            (some ⟨some key, value⟩, .running rest) := rfl
        rw [foreachFrom_of_running hround]
        have hrest := ih rest
        exact ⟨by simpa using hrest.1, hrest.2⟩

/-- `[null, 'a' => 1, 7 => 'x']` -/
def mixedList : List (Zval × Zval) :=
  [(.long 0, .null), (.string (ascii "a"), .long 1),
    (.long 7, .string (ascii "x"))]

theorem mixedList_convertible (fuel : ℕ) :
    KeysConvert (iteratedBy listFuncs (.ok mixedList))
        (foreachPass listFuncs fuel (.ok mixedList)).1 ∧
      NullsFirst .null
        ((foreachPass listFuncs fuel (.ok mixedList)).1.map (·.value)) := by
  change KeysConvert _ (foreachFrom listFuncs fuel mixedList).1 ∧
    NullsFirst .null ((foreachFrom listFuncs fuel mixedList).1.map (·.value))
  rw [(listFuncs_foreach mixedList fuel).1]
  constructor
  · intro element helement key hkey
    obtain ⟨entry, hentry, rfl⟩ := List.mem_map.mp helement
    obtain rfl := Option.some.inj hkey
    have hentry := List.mem_of_mem_take hentry
    simp only [mixedList, List.mem_cons, List.not_mem_nil, or_false] at hentry
    rcases hentry with rfl | rfl | rfl <;> rfl
  · have hall : NullsFirst .null (mixedList.map Prod.snd) := by
      simp [mixedList, nullsFirst_cons_iff, handlebarsValueFromZval,
        NullsFirst.nil]
    rw [List.map_map]
    simpa [List.map_take, Function.comp_def] using hall.take fuel

theorem list_delivered :
    ∃ pass, iterationPass (iteratedBy listFuncs (.ok mixedList)) 3
        (freshIterator _) (.object 0) = .ok pass ∧
      DeliversForeach (iteratedBy listFuncs (.ok mixedList)) 0
        (foreachPass listFuncs 4 (.ok mixedList)) pass := by
  have hobject : (iteratedBy listFuncs (.ok mixedList)).object 0 =
      .traversable listFuncs (.ok mixedList) := rfl
  have hquiet : Quiet listFuncs (.ok mixedList) :=
    fun fuel => (listFuncs_foreach mixedList fuel).2
  exact (traversable_delivered_iff hobject hquiet rfl).mpr
    ⟨by simp [listFuncs], mixedList_convertible⟩ 3

def keylessFuncs : IteratorFuncs (List (Zval × Zval)) :=
  { listFuncs with getCurrentKey := none }

def overOne : Except Exception (List (Zval × Zval)) :=
  .ok [(.null, .long 1)]

/-- Without keys, the only element of a list gets the index 1. -/
theorem first_index_is_one :
    ¬ ∀ fuel, ∃ pass, iterationPass
        (iteratedBy keylessFuncs overOne) fuel (freshIterator _)
          (.object 0) = .ok pass ∧
      DeliversForeach (iteratedBy keylessFuncs overOne) 0
        (foreachPass keylessFuncs (fuel + 1) overOne) pass := by
  intro hdelivers
  obtain ⟨pass, hpass, helements, _⟩ := hdelivers 0
  obtain rfl := Except.ok.inj hpass
  have hhead := (List.forall₂_cons.mp helements).1.key
  have hindex : (1 : ℤ) = 0 := ArrayKey.index.inj hhead
  omega

end PhpHandlebars
