import PhpHandlebars.ForeachIteration
import Mathlib.Tactic

/-!
# Iterators whose methods throw

An exception thrown by an iterator ends the iteration: the iterator object is
released and `it->next` is the void iterator.  The element just fetched is lost
when it is `move_forward` or the conversion of the key that throws, and an
iterator which could not be obtained is dereferenced.
-/

namespace PhpHandlebars

variable {S : Type}

/-- An element which the body of a `foreach` is run for, as it is delivered.
A null is delivered as what the slot held. -/
structure Carries (env : IterationEnv S) (delivery : ArrayKey × Value)
    (element : ForeachElement) : Prop where
  key : ∀ key ∈ element.key,
    delivery.1 = .string (env.convertToString key)
  value : ∃ rv, handlebarsValueFromZval element.value rv = .ok delivery.2

/-- The iteration is over with the exception: only the release follows it,
nothing is left to be called, and the elements fetched before have been
delivered. -/
structure ThrowHandled (env : IterationEnv S) (elements : List ForeachElement)
    (events : List IterationEvent) (pass : IterationPass S) : Prop where
  log : ∃ before thrown, events = before ++ [thrown, .released] ∧
    .released ∉ before ∧ ∀ earlier ∈ before, earlier.isThrow = false
  ended : pass.final.advance env = .ok (false, pass.final)
  elements : List.Forall₂ (Carries env) pass.delivered elements

structure EndsCleanly (env : IterationEnv S) (log : List IterationEvent)
    (elements : List ForeachElement)
    (result : Except IterationFault (IterationPass S)) : Prop where
  noNull : result ≠ .error .nullIterator
  handled : ∀ pass, result = .ok pass → ∃ events,
    pass.final.log = log ++ events ∧
      ∀ event ∈ events, event.isThrow → ThrowHandled env elements events pass

/-- An element of a run of `foreach` for which the code throws before it is
delivered. -/
def LosesElement (env : IterationEnv S)
    (run : List ForeachElement × ForeachEnd S) : Prop :=
  run.2 = .threw .moveForward ∨ ¬ KeysConvert env run.1

/-! ## One run of the iterator and of `foreach` -/

/-- How calls of `it->next` go, given the rounds of `foreach` on the same
iterator. -/
inductive PassOfForeach (env : IterationEnv S) (log : List IterationEvent) :
    List ForeachElement × ForeachEnd S →
      Except IterationFault (IterationPass S) → Prop where
  | quiet {run : List ForeachElement × ForeachEnd S} {pass : IterationPass S}
      (hrun : ¬ LosesElement env run)
      (hlog : ∃ events, pass.final.log = log ++ events ∧
        ∀ event ∈ events, event.isThrow = false) :
      PassOfForeach env log run (.ok pass)
  | threw {elements : List ForeachElement} {method : IteratorMethod}
      {pass : IterationPass S}
      (hrun : ¬ LosesElement env (elements, .threw method))
      (helements : List.Forall₂ (Carries env) pass.delivered elements)
      (hnext : pass.final.next = .void)
      (hlog : ∃ calls : List IteratorMethod, pass.final.log =
        log ++ calls.map .called ++ [.threw method, .released]) :
      PassOfForeach env log (elements, .threw method) (.ok pass)
  | dropped {elements later : List ForeachElement} {last : ForeachElement}
      {stop : ForeachEnd S} {pass : IterationPass S}
      (hlost : later = [] ∧ stop = .threw .moveForward ∨
        ∃ key ∈ last.key, env.convertThrows key)
      (hconvertible : ∀ element ∈ elements ++ [last],
        element.value.zType.Convertible)
      (helements : List.Forall₂ (Carries env) pass.delivered elements)
      (hlog : ∃ events, pass.final.log = log ++ events ∧
        ∃ event ∈ events, event.isThrow) :
      PassOfForeach env log (elements ++ last :: later, stop) (.ok pass)
  | raised {run : List ForeachElement × ForeachEnd S} {error : LibError}
      (hrun : LosesElement env run →
        ∃ element ∈ run.1, ¬ element.value.zType.Convertible) :
      PassOfForeach env log run (.error (.raised error))

theorem not_losesElement_nil {env : IterationEnv S} {stop : ForeachEnd S}
    (hstop : stop ≠ .threw .moveForward) : ¬ LosesElement env ([], stop) := by
  simpa [LosesElement, KeysConvert.nil] using hstop

theorem losesElement_cons_iff {env : IterationEnv S}
    {element : ForeachElement} {run : List ForeachElement × ForeachEnd S}
    (hconverts : ∀ key ∈ element.key, env.convertThrows key = false) :
    LosesElement env (element :: run.1, run.2) ↔ LosesElement env run := by
  rw [LosesElement, LosesElement, keysConvert_cons_iff]
  simp only [and_iff_right hconverts]

theorem StepOfRound.carries {env : IterationEnv S} {element : ForeachElement}
    {it it' : ValueIterator S}
    (hvalue : handlebarsValueFromZval element.value it.cur = .ok it'.cur)
    (hkey : it'.key = element.key.map env.convertToString) :
    Carries env it'.element element where
  key := by
    intro key helement
    rw [Option.mem_def] at helement
    simp [ValueIterator.element, hkey, helement]
  value := ⟨it.cur, hvalue⟩

theorem Carries.convertible {env : IterationEnv S}
    {delivery : ArrayKey × Value} {element : ForeachElement}
    (hcarries : Carries env delivery element) :
    element.value.zType.Convertible := by
  obtain ⟨rv, hvalue⟩ := hcarries.value
  exact (valueFromZval_isOk_iff _ rv).mp ⟨_, hvalue⟩

theorem isThrow_of_called {calls : List IteratorMethod}
    {event : IterationEvent} (hevent : event ∈ calls.map .called) :
    event.isThrow = false := by
  obtain ⟨method, _, rfl⟩ := List.mem_map.mp hevent
  rfl

/-- One element more, delivered before all others. -/
theorem PassOfForeach.deliver {env : IterationEnv S}
    {log : List IterationEvent} {calls : List IteratorMethod}
    {it : ValueIterator S} {element : ForeachElement}
    {run : List ForeachElement × ForeachEnd S}
    {result : Except IterationFault (IterationPass S)}
    (hcarries : Carries env it.element element)
    (hconverts : ∀ key ∈ element.key, env.convertThrows key = false)
    (hrest : PassOfForeach env (log ++ calls.map .called) run result) :
    PassOfForeach env log (element :: run.1, run.2)
      (result.map fun pass =>
        { pass with delivered := it.element :: pass.delivered }) := by
  have hloses : LosesElement env (element :: run.1, run.2) ↔
      LosesElement env run := losesElement_cons_iff hconverts
  cases hrest with
  | quiet hrun hevents =>
      obtain ⟨events, hfinal, hevents⟩ := hevents
      refine .quiet (mt hloses.mp hrun) ⟨calls.map .called ++ events, ?_, ?_⟩
      · simpa using hfinal
      · intro event hevent
        rcases List.mem_append.mp hevent with hcall | hevent
        · exact isThrow_of_called hcall
        · exact hevents event hevent
  | threw hrun helements hnext hfinal =>
      obtain ⟨later, hfinal⟩ := hfinal
      refine .threw (mt hloses.mp hrun) (.cons hcarries helements) hnext
        ⟨calls ++ later, ?_⟩
      simpa using hfinal
  | @dropped elements later last stop pass hlost hconvertible helements
      hfinal =>
      obtain ⟨events, hfinal, event, hevent, hthrow⟩ := hfinal
      change PassOfForeach env log
        ((element :: elements) ++ last :: later, stop) _
      refine .dropped hlost ?_ (.cons hcarries helements)
        ⟨calls.map .called ++ events, ?_, event, ?_, hthrow⟩
      · intro other hother
        rcases List.mem_cons.mp hother with rfl | hother
        · exact hcarries.convertible
        · exact hconvertible other hother
      · simpa using hfinal
      · exact List.mem_append_right _ hevent
  | raised hrun =>
      apply PassOfForeach.raised
      intro hend
      obtain ⟨other, hother, hfails⟩ := hrun (hloses.mp hend)
      exact ⟨other, List.mem_cons_of_mem _ hother, hfails⟩

theorem passFrom_passOfForeach {env : IterationEnv S}
    {funcs : IteratorFuncs S} {it : ValueIterator S} {zit : S}
    (hnext : it.next = .object funcs zit) (fuel : ℕ) :
    PassOfForeach env it.log (foreachFrom funcs fuel zit)
      (passFrom env fuel it) := by
  induction fuel generalizing it zit with
  | zero =>
      exact .quiet (not_losesElement_nil (by simp)) ⟨[], by simp⟩
  | succ fuel ih =>
      have hstep := advance_stepOfRound env hnext
      rw [passFrom]
      generalize it.advance env = step at hstep ⊢
      generalize hround : foreachRound funcs zit = round at hstep
      cases hstep with
      | @delivered element zit' it' hvalue hkey hconverts hindex hnext' hlog =>
          have hcarries : Carries env it'.element element :=
            StepOfRound.carries hvalue hkey
          obtain ⟨calls, hlog⟩ := hlog
          have hrest := ih hnext'
          rw [hlog] at hrest
          rw [foreachFrom_of_running hround, continuePass]
          exact hrest.deliver hcarries hconverts
      | finished hnext' hlog =>
          rw [foreachFrom_of_finished hround]
          exact .quiet (not_losesElement_nil (by simp))
            ⟨_, hlog, by simp [IterationEvent.isThrow]⟩
      | @threw element method it' helement hvalue hnext' hlog =>
          rw [foreachFrom_of_threw hround]
          cases element with
          | none =>
              have hmethod : method ≠ .moveForward := by
                simpa using helement
              exact .threw (not_losesElement_nil (by simpa using hmethod))
                .nil hnext' hlog
          | some element =>
              obtain rfl : method = .moveForward := by
                simpa using helement
              obtain ⟨calls, hlog⟩ := hlog
              rw [List.append_assoc] at hlog
              change PassOfForeach env it.log
                ([] ++ element :: [], .threw .moveForward) _
              exact .dropped (.inl ⟨rfl, rfl⟩)
                (by simpa using hvalue) .nil
                ⟨_, hlog, .threw .moveForward, by simp, rfl⟩
      | @keyThrew element key stop it' hkey hthrows hvalue hlog =>
          obtain ⟨later, hlater⟩ := foreachFrom_cons hround fuel
          obtain ⟨calls, hlog⟩ := hlog
          rw [List.append_assoc] at hlog
          rw [← Prod.mk.eta (p := foreachFrom funcs (fuel + 1) zit), hlater]
          change PassOfForeach env it.log ([] ++ element :: later, _) _
          exact .dropped (.inr ⟨key, hkey, hthrows⟩)
            (by simpa using hvalue) .nil
            ⟨_, hlog, .keyThrew, by simp, rfl⟩
      | @raised round value error hvalue helement hnone =>
          apply PassOfForeach.raised
          intro hend
          rcases round with ⟨_ | element, stop⟩
          · obtain rfl := hnone rfl
            rw [foreachFrom_of_threw hround] at hend
            exact absurd hend (not_losesElement_nil (by simp))
          · obtain rfl := helement element rfl
            exact exists_unconvertible_of_round hround hvalue fuel

/-! ## Every point at which PHP code throws -/

theorem iterationPass_noIterator {env : IterationEnv S} {handle : ℕ}
    {funcs : IteratorFuncs S} {thrown : Exception}
    (hobject : env.object handle = .traversable funcs (.error thrown))
    (it : ValueIterator S) (fuel : ℕ) :
    iterationPass env fuel it (.object handle) = .error .nullIterator := by
  simp [iterationPass, handlebarsStdZvalIteratorInit, hobject,
    initTraversable, continuePass]

/-- The iterator was obtained, and some of its functions called. -/
def Started (calls : List IteratorMethod) : List IterationEvent :=
  [.called .getIterator, .obtained] ++ calls.map .called

theorem iterationPass_passOfForeach {env : IterationEnv S} {handle : ℕ}
    {funcs : IteratorFuncs S} {zit : S}
    (hobject : env.object handle = .traversable funcs (.ok zit))
    (it : ValueIterator S) (fuel : ℕ) :
    ∃ calls : List IteratorMethod, PassOfForeach env (it.log ++ Started calls)
      (foreachPass funcs (fuel + 1) (.ok zit))
      (iterationPass env fuel it (.object handle)) := by
  have hstart := iteratorInit_startOfForeach hobject it
  unfold iterationPass
  generalize handlebarsStdZvalIteratorInit env it (.object handle) = step
    at hstart ⊢
  cases hstart with
  | rewindThrew hforeach hnext hlog =>
      rw [hforeach]
      refine ⟨[], .threw (not_losesElement_nil (by simp)) .nil hnext
        ⟨[.rewind], ?_⟩⟩
      simpa [Started] using hlog
  | started hforeach hnext hcur hindex hlog =>
      obtain ⟨calls, hlog⟩ := hlog
      rw [List.append_assoc] at hlog
      refine ⟨calls, ?_⟩
      rw [hforeach, Started, ← hlog]
      exact passFrom_passOfForeach hnext (fuel + 1)

theorem isThrow_of_started {calls : List IteratorMethod}
    {event : IterationEvent} (hevent : event ∈ Started calls) :
    event.isThrow = false := by
  rcases List.mem_append.mp hevent with hevent | hevent
  · simp only [List.mem_cons, List.not_mem_nil, or_false] at hevent
    rcases hevent with rfl | rfl <;> rfl
  · exact isThrow_of_called hevent

theorem ThrowHandled.of_log {env : IterationEnv S}
    {elements : List ForeachElement} {pass : IterationPass S}
    (method : IteratorMethod) (calls : List IteratorMethod)
    (hnext : pass.final.next = .void)
    (helements : List.Forall₂ (Carries env) pass.delivered elements) :
    ThrowHandled env elements
      (Started calls ++ [.threw method, .released]) pass where
  log := ⟨Started calls, .threw method, rfl, by simp [Started],
    fun _ => isThrow_of_started⟩
  ended := advance_of_void hnext
  elements := helements

theorem PassOfForeach.endsCleanly {env : IterationEnv S}
    {log : List IterationEvent} {calls : List IteratorMethod}
    {run : List ForeachElement × ForeachEnd S}
    {result : Except IterationFault (IterationPass S)}
    (hpass : PassOfForeach env (log ++ Started calls) run result)
    (hlost : ∀ elements last later, run.1 = elements ++ last :: later →
      (later = [] ∧ run.2 = .threw .moveForward ∨
        ∃ key ∈ last.key, env.convertThrows key) →
      ∃ element ∈ elements ++ [last], ¬ element.value.zType.Convertible) :
    EndsCleanly env log run.1 result := by
  cases hpass with
  | quiet hrun hlog =>
      obtain ⟨events, hfinal, hevents⟩ := hlog
      refine ⟨by simp, ?_⟩
      rintro _ ⟨rfl⟩
      refine ⟨Started calls ++ events, by simpa using hfinal, ?_⟩
      intro event hevent hthrow
      have hquiet : event.isThrow = false := by
        rcases List.mem_append.mp hevent with hevent | hevent
        · exact isThrow_of_started hevent
        · exact hevents event hevent
      simp [hquiet] at hthrow
  | @threw elements method pass hrun helements hnext hlog =>
      obtain ⟨later, hfinal⟩ := hlog
      refine ⟨by simp, ?_⟩
      rintro _ ⟨rfl⟩
      refine ⟨_, ?_, fun _ _ _ =>
        ThrowHandled.of_log method (calls ++ later) hnext helements⟩
      simpa [Started] using hfinal
  | dropped hdropped hconvertible helements hlog =>
      obtain ⟨element, helement, hfails⟩ := hlost _ _ _ rfl hdropped
      exact absurd (hconvertible element helement) hfails
  | raised hrun => exact ⟨by simp, by simp⟩

theorem PassOfForeach.lost_unconvertible {env : IterationEnv S}
    {log : List IterationEvent} {calls : List IteratorMethod}
    {run : List ForeachElement × ForeachEnd S}
    {result : Except IterationFault (IterationPass S)}
    (hpass : PassOfForeach env (log ++ Started calls) run result)
    (hclean : EndsCleanly env log run.1 result)
    (hloses : LosesElement env run) :
    ∃ element ∈ run.1, ¬ element.value.zType.Convertible := by
  cases hpass with
  | quiet hrun hlog => exact absurd hloses hrun
  | threw hrun helements hnext hlog => exact absurd hloses hrun
  | @dropped elements later last stop pass hdropped hconvertible helements
      hlog =>
      obtain ⟨events, hevents, hhandled⟩ := hclean.handled pass rfl
      obtain ⟨own, hfinal, event, hevent, hthrow⟩ := hlog
      rw [hfinal, List.append_assoc] at hevents
      have hmem : event ∈ events := by
        rw [← List.append_cancel_left hevents]
        exact List.mem_append_right _ hevent
      have hall := (hhandled event hmem hthrow).elements.length_eq
      have hfewer := helements.length_eq
      simp at hall
      omega
  | raised hrun => exact hrun hloses

/-- Every round but the last is for one element. -/
theorem foreachFrom_take (funcs : IteratorFuncs S) {fuel total : ℕ}
    (hfuel : fuel ≤ total) (zit : S) :
    (foreachFrom funcs fuel zit).1 =
      (foreachFrom funcs total zit).1.take fuel := by
  induction total generalizing fuel zit with
  | zero =>
      obtain rfl := Nat.le_zero.mp hfuel
      rfl
  | succ total ih =>
      cases fuel with
      | zero => rfl
      | succ fuel =>
          rcases hround : foreachRound funcs zit with
            ⟨_ | element, zit' | _ | method⟩
          · exact absurd hround (foreachRound_ne_running funcs zit zit')
          all_goals simp only [foreachFrom, hround]
          all_goals simp [ih (Nat.le_of_succ_le_succ hfuel)]

theorem foreachPass_take (funcs : IteratorFuncs S) {fuel total : ℕ}
    (hfuel : fuel ≤ total) (getIterator : Except Exception S) :
    (foreachPass funcs fuel getIterator).1 =
      (foreachPass funcs total getIterator).1.take fuel := by
  unfold foreachPass
  cases getIterator with
  | error thrown => simp
  | ok zit =>
      dsimp only
      cases funcs.rewind with
      | none => exact foreachFrom_take funcs hfuel zit
      | some rewind =>
          dsimp only
          cases rewind zit with
          | error thrown => simp
          | ok result => exact foreachFrom_take funcs hfuel result.2

/-- The element which is lost is the last of a shorter run. -/
theorem lost_in_shorter_run {env : IterationEnv S}
    {funcs : IteratorFuncs S} {getIterator : Except Exception S}
    (hcondition : ∀ fuel,
      LosesElement env (foreachPass funcs (fuel + 1) getIterator) →
        ∃ element ∈ (foreachPass funcs (fuel + 1) getIterator).1,
          ¬ element.value.zType.Convertible)
    {fuel : ℕ} {elements later : List ForeachElement} {last : ForeachElement}
    (hrun : (foreachPass funcs (fuel + 1) getIterator).1 =
      elements ++ last :: later)
    (hlost : later = [] ∧
        (foreachPass funcs (fuel + 1) getIterator).2 = .threw .moveForward ∨
      ∃ key ∈ last.key, env.convertThrows key) :
    ∃ element ∈ elements ++ [last], ¬ element.value.zType.Convertible := by
  rcases hlost with ⟨rfl, hmove⟩ | ⟨key, hkey, hthrows⟩
  · rw [← hrun]
    exact hcondition fuel (.inl hmove)
  · have hlength : elements.length ≤ fuel := by
      have hwhole := foreachPass_take funcs (le_refl (fuel + 1)) getIterator
      have hbound := congrArg List.length hwhole
      rw [hrun] at hbound
      simp at hbound
      omega
    have hshorter : (foreachPass funcs (elements.length + 1) getIterator).1 =
        elements ++ [last] := by
      rw [foreachPass_take funcs (Nat.succ_le_succ hlength), hrun]
      simp [List.take_append]
    rw [← hshorter]
    apply hcondition
    refine .inr fun hkeys => ?_
    have hconverts := hkeys last (by simp [hshorter]) key hkey
    simp [hthrows] at hconverts

/-- An exception ends the iteration cleanly, wherever it is thrown, exactly
when `getIterator` does not throw, and `move_forward` throws and a key does
not convert only where a value which does not convert has ended the iteration
before. -/
theorem throws_handled_iff {env : IterationEnv S} (it : ValueIterator S)
    {handle : ℕ} {funcs : IteratorFuncs S}
    {getIterator : Except Exception S}
    (hobject : env.object handle = .traversable funcs getIterator) :
    (∀ fuel, EndsCleanly env it.log
        (foreachPass funcs (fuel + 1) getIterator).1
        (iterationPass env fuel it (.object handle))) ↔
      (∀ thrown, getIterator ≠ .error thrown) ∧
        ∀ fuel, LosesElement env (foreachPass funcs (fuel + 1) getIterator) →
          ∃ element ∈ (foreachPass funcs (fuel + 1) getIterator).1,
            ¬ element.value.zType.Convertible := by
  cases getIterator with
  | error thrown =>
      refine iff_of_false ?_ fun hcondition => hcondition.1 thrown rfl
      intro hclean
      exact (hclean 0).noNull (iterationPass_noIterator hobject it 0)
  | ok zit =>
      constructor
      · intro hclean
        refine ⟨by simp, fun fuel hloses => ?_⟩
        obtain ⟨calls, hpass⟩ := iterationPass_passOfForeach hobject it fuel
        exact hpass.lost_unconvertible (hclean fuel) hloses
      · intro hcondition fuel
        obtain ⟨calls, hpass⟩ := iterationPass_passOfForeach hobject it fuel
        exact hpass.endsCleanly fun elements last later hrun hlost =>
          lost_in_shorter_run hcondition.2 hrun hlost

/-- The value of the last element cannot be fetched. -/
def failingLast : IteratorFuncs (List (Zval × Zval)) :=
  { listFuncs with
    getCurrentData := fun zit =>
      if zit.length = 1 then .error (.user 0)
      else listFuncs.getCurrentData zit }

/-- A `foreach` over `mixedList` runs its body for two elements, and both
their keys convert. -/
theorem failingLast_loses_none (fuel : ℕ) :
    ¬ LosesElement (iteratedBy failingLast (.ok mixedList))
      (foreachPass failingLast (fuel + 1) (.ok mixedList)) := by
  have hkeys : ∀ count, KeysConvert (iteratedBy failingLast (.ok mixedList))
      ((mixedList.take count).map fun entry => ⟨some entry.1, entry.2⟩) := by
    intro count
    rw [← (listFuncs_foreach mixedList count).1]
    exact (mixedList_convertible count).1
  rintro (hmove | hfails)
  · rcases fuel with _ | _ | fuel
    · change ForeachEnd.running _ = _ at hmove
      simp at hmove
    · change ForeachEnd.running _ = _ at hmove
      simp at hmove
    · change ForeachEnd.threw .getCurrentData = _ at hmove
      simp at hmove
  · rcases fuel with _ | _ | fuel
    · exact hfails (hkeys 1)
    · exact hfails (hkeys 2)
    · exact hfails (hkeys 2)

theorem throw_at_last_element_handled :
    EndsCleanly (iteratedBy failingLast (.ok mixedList)) []
      (foreachPass failingLast 4 (.ok mixedList)).1
      (iterationPass (iteratedBy failingLast (.ok mixedList)) 3
        (freshIterator _) (.object 0)) := by
  have hobject : (iteratedBy failingLast (.ok mixedList)).object 0 =
      .traversable failingLast (.ok mixedList) := rfl
  exact (throws_handled_iff (freshIterator _) hobject).mpr
    ⟨by simp, fun fuel hloses =>
      absurd hloses (failingLast_loses_none fuel)⟩ 3

/-- Moving on from the only element fails. -/
def failingMove : IteratorFuncs (List (Zval × Zval)) :=
  { listFuncs with moveForward := fun _ => .error (.user 0) }

/-- The only element is never delivered, and an iterator which cannot be
obtained is dereferenced. -/
theorem last_element_lost :
    (¬ ∀ fuel, EndsCleanly (iteratedBy failingMove overOne) []
        (foreachPass failingMove (fuel + 1) overOne).1
        (iterationPass (iteratedBy failingMove overOne) fuel
          (freshIterator _) (.object 0))) ∧
      ¬ ∀ fuel, EndsCleanly (iteratedBy listFuncs (.error (.user 0))) []
        (foreachPass listFuncs (fuel + 1) (.error (.user 0))).1
        (iterationPass (iteratedBy listFuncs (.error (.user 0))) fuel
          (freshIterator _) (.object 0)) := by
  constructor
  · intro hclean
    obtain ⟨events, hfinal, hhandled⟩ := (hclean 0).handled _ rfl
    have hthrew : IterationEvent.threw .moveForward ∈ events := by
      rw [← List.nil_append events, ← hfinal]
      decide
    have hall := (hhandled _ hthrew rfl).elements.length_eq
    exact absurd hall (by decide)
  · intro hclean
    exact (hclean 0).noNull rfl

end PhpHandlebars
