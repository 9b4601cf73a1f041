import Mathlib.Tactic

/-!
# Trees of nested calls

A computation which stops at requests and continues with their answers is
kept as a finite tree.  The requests are served by a handler on a state; a
handler may give up, which ends the run.  The rules below lift a fact about
one served request to a whole run.
-/

/-- A computation which asks requests, each continuation depending on the
answer. -/
inductive CallTree (Request Answer Out : Type) where
  | done (out : Out)
  | ask (request : Request) (next : Answer → CallTree Request Answer Out)

namespace CallTree

variable {Request Answer Out State State' Failure : Type}

abbrev Handler (Request Answer State Failure : Type) :=
  State → Request → State × Except Failure Answer

def run (handler : Handler Request Answer State Failure) :
    CallTree Request Answer Out → State → State × Except Failure Out
  | .done out, state => (state, .ok out)
  | .ask request next, state =>
      match handler state request with
      | (state', .error failure) => (state', .error failure)
      | (state', .ok answer) => run handler (next answer) state'

def sequence : List Request → CallTree Request Answer Unit
  | [] => .done ()
  | request :: rest => .ask request fun _ => sequence rest

@[simp] theorem run_done
    (handler : Handler Request Answer State Failure) (out : Out)
    (state : State) :
    (CallTree.done out : CallTree Request Answer Out).run handler state =
      (state, .ok out) := rfl

theorem run_ask_error
    {handler : Handler Request Answer State Failure} {request : Request}
    {next : Answer → CallTree Request Answer Out} {state state' : State}
    {failure : Failure}
    (hserve : handler state request = (state', .error failure)) :
    (CallTree.ask request next).run handler state =
      (state', .error failure) := by
  simp [run, hserve]

theorem run_ask_ok
    {handler : Handler Request Answer State Failure} {request : Request}
    {next : Answer → CallTree Request Answer Out} {state state' : State}
    {answer : Answer}
    (hserve : handler state request = (state', .ok answer)) :
    (CallTree.ask request next).run handler state =
      (next answer).run handler state' := by
  simp [run, hserve]

/-! ## One handler -/

/-- A reflexive and transitive relation which every served request respects
relates the two ends of a run. -/
theorem run_relates
    {handler : Handler Request Answer State Failure}
    {R : State → State → Prop}
    (hrefl : ∀ state, R state state)
    (htrans : ∀ first second third, R first second → R second third →
      R first third)
    (hserve : ∀ state request, R state (handler state request).1)
    (tree : CallTree Request Answer Out) (state : State) :
    R state (tree.run handler state).1 := by
  induction tree generalizing state with
  | done out => exact hrefl state
  | ask request next ih =>
      have hstep := hserve state request
      rcases hanswer : handler state request with ⟨state', failure | answer⟩
      · rw [run_ask_error hanswer]
        simpa [hanswer] using hstep
      · rw [run_ask_ok hanswer]
        rw [hanswer] at hstep
        exact htrans _ _ _ hstep (ih answer state')

/-- The same for runs which get to their end: only the requests which were
answered count. -/
theorem run_ok_relates
    {handler : Handler Request Answer State Failure}
    {R : State → State → Prop}
    (hrefl : ∀ state, R state state)
    (htrans : ∀ first second third, R first second → R second third →
      R first third)
    (hserve : ∀ state request state' answer,
      handler state request = (state', .ok answer) → R state state')
    (tree : CallTree Request Answer Out) {state state' : State} {out : Out}
    (hrun : tree.run handler state = (state', .ok out)) :
    R state state' := by
  induction tree generalizing state with
  | done result =>
      obtain ⟨rfl, _⟩ := Prod.mk.inj hrun
      exact hrefl state
  | ask request next ih =>
      rcases hanswer : handler state request with ⟨middle, failure | answer⟩
      · simp [run_ask_error hanswer] at hrun
      · rw [run_ask_ok hanswer] at hrun
        exact htrans _ _ _ (hserve _ _ _ _ hanswer) (ih answer hrun)

/-- An invariant kept by every served request is kept by a run. -/
theorem run_preserves
    {handler : Handler Request Answer State Failure}
    {Inv : State → Prop}
    (hserve : ∀ state request, Inv state → Inv (handler state request).1)
    (tree : CallTree Request Answer Out) {state : State}
    (hinv : Inv state) :
    Inv (tree.run handler state).1 :=
  run_relates (R := fun before after => Inv before → Inv after)
    (fun _ h => h) (fun _ _ _ hfirst hsecond h => hsecond (hfirst h))
    hserve tree state hinv

/-- A property of every result a computation can end with, whatever it is
answered. -/
def Ends (P : Out → Prop) : CallTree Request Answer Out → Prop
  | .done out => P out
  | .ask _ next => ∀ answer, (next answer).Ends P

theorem run_ends {P : Out → Prop}
    {handler : Handler Request Answer State Failure}
    {tree : CallTree Request Answer Out} (hends : tree.Ends P)
    {state state' : State} {out : Out}
    (hrun : tree.run handler state = (state', .ok out)) : P out := by
  induction tree generalizing state with
  | done result =>
      obtain ⟨_, hout⟩ := Prod.mk.inj hrun
      obtain rfl := Except.ok.inj hout
      exact hends
  | ask request next ih =>
      rcases hanswer : handler state request with ⟨middle, failure | answer⟩
      · simp [run_ask_error hanswer] at hrun
      · rw [run_ask_ok hanswer] at hrun
        exact ih answer (hends answer) hrun

/-! ## Two handlers -/

/-- Two handlers which agree on every request keep related states related
and give the same outcome.  `Good` is a property of the first run only which,
once lost, stays lost; agreement is needed while it holds. -/
theorem run_simulates
    {first : Handler Request Answer State Failure}
    {second : Handler Request Answer State' Failure}
    {R : State → State' → Prop} {Good : State → Prop}
    (hgood : ∀ state request, Good (first state request).1 → Good state)
    (hserve : ∀ state state' request, R state state' →
      Good (first state request).1 →
      R (first state request).1 (second state' request).1 ∧
        (first state request).2 = (second state' request).2)
    (tree : CallTree Request Answer Out) {state : State} {state' : State'}
    (hrel : R state state') (hend : Good (tree.run first state).1) :
    R (tree.run first state).1 (tree.run second state').1 ∧
      (tree.run first state).2 = (tree.run second state').2 := by
  induction tree generalizing state state' with
  | done out => exact ⟨hrel, rfl⟩
  | ask request next ih =>
      have hback : ∀ (tree : CallTree Request Answer Out) (state : State),
          Good (tree.run first state).1 → Good state :=
        run_relates (R := fun before after => Good after → Good before)
          (fun _ h => h) (fun _ _ _ hone htwo h => hone (htwo h)) hgood
      rcases hanswer : first state request with ⟨mid, failure | answer⟩
      · rw [run_ask_error hanswer] at hend ⊢
        obtain ⟨hmid, heq⟩ := hserve state state' request hrel
          (by simpa [hanswer] using hend)
        rcases hother : second state' request with ⟨mid', answer'⟩
        rw [hanswer, hother] at hmid heq
        rw [run_ask_error (hother.trans (congrArg (Prod.mk mid') heq.symm))]
        exact ⟨hmid, rfl⟩
      · rw [run_ask_ok hanswer] at hend ⊢
        obtain ⟨hmid, heq⟩ := hserve state state' request hrel
          (by simpa [hanswer] using hback _ _ hend)
        rcases hother : second state' request with ⟨mid', answer'⟩
        rw [hanswer, hother] at hmid heq
        rw [run_ask_ok (hother.trans (congrArg (Prod.mk mid') heq.symm))]
        exact ih answer hmid hend

end CallTree
