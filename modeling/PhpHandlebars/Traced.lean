import Mathlib.Tactic

/-!
# Computations which record their calls

A computation ends with a result or a fault, and leaves the list of the calls
it has made.  What holds of each of its calls and of its result is shown step
by step.
-/

@[ext] structure Traced (Call Fault Out : Type) where
  calls : List Call
  result : Except Fault Out

namespace Traced

variable {Call Fault Out Out' : Type}

def done (out : Out) : Traced Call Fault Out := ⟨[], .ok out⟩

def call (call : Call) (result : Except Fault Out) : Traced Call Fault Out :=
  ⟨[call], result⟩

def andThen (first : Traced Call Fault Out)
    (next : Out → Traced Call Fault Out') : Traced Call Fault Out' :=
  match first.result with
  | .ok out => ⟨first.calls ++ (next out).calls, (next out).result⟩
  | .error fault => ⟨first.calls, .error fault⟩

instance : Monad (Traced Call Fault) where
  pure := done
  bind := andThen

theorem bind_of_ok {first : Traced Call Fault Out}
    {next : Out → Traced Call Fault Out'} {out : Out}
    (hfirst : first.result = .ok out) :
    first >>= next =
      ⟨first.calls ++ (next out).calls, (next out).result⟩ := by
  change first.andThen next = _
  rw [andThen, hfirst]

theorem bind_of_error {first : Traced Call Fault Out}
    {next : Out → Traced Call Fault Out'} {fault : Fault}
    (hfirst : first.result = .error fault) :
    first >>= next = ⟨first.calls, .error fault⟩ := by
  change first.andThen next = _
  rw [andThen, hfirst]

@[simp] theorem pure_calls (out : Out) :
    (pure out : Traced Call Fault Out).calls = [] := rfl

@[simp] theorem pure_result (out : Out) :
    (pure out : Traced Call Fault Out).result = .ok out := rfl

@[simp] theorem call_calls (made : Call) (result : Except Fault Out) :
    (call made result).calls = [made] := rfl

@[simp] theorem call_result (made : Call) (result : Except Fault Out) :
    (call made result).result = result := rfl

/-- Calls made first are not undone. -/
theorem calls_prefix_bind (first : Traced Call Fault Out)
    (next : Out → Traced Call Fault Out') :
    first.calls <+: (first >>= next).calls := by
  cases hfirst : first.result with
  | ok out =>
      rw [bind_of_ok hfirst]
      exact List.prefix_append _ _
  | error fault =>
      rw [bind_of_error hfirst]

theorem calls_bind_ne_nil {first : Traced Call Fault Out}
    (hfirst : first.calls ≠ []) (next : Out → Traced Call Fault Out') :
    (first >>= next).calls ≠ [] := by
  intro hnil
  have hprefix := calls_prefix_bind first next
  rw [hnil, List.prefix_nil] at hprefix
  exact hfirst hprefix

/-! ## Conditions on calls and results -/

/-- All calls satisfy a condition, and so does the result, if there is one. -/
structure Ensures (P : Call → Prop) (Q : Out → Prop)
    (traced : Traced Call Fault Out) : Prop where
  calls : ∀ made ∈ traced.calls, P made
  result : ∀ out, traced.result = .ok out → Q out

variable {P : Call → Prop} {Q : Out → Prop} {Q' : Out' → Prop}

theorem ensures_pure {out : Out} (hout : Q out) :
    Ensures P Q (pure out : Traced Call Fault Out) where
  calls := by simp
  result := by
    rintro _ ⟨rfl⟩
    exact hout

theorem Ensures.bind {first : Traced Call Fault Out}
    {next : Out → Traced Call Fault Out'} (hfirst : first.Ensures P Q)
    (hnext : ∀ out, Q out → (next out).Ensures P Q') :
    (first >>= next).Ensures P Q' := by
  cases hresult : first.result with
  | ok out =>
      have hout := hnext out (hfirst.result out hresult)
      rw [bind_of_ok hresult]
      constructor
      · intro made hmade
        rcases List.mem_append.mp hmade with hold | hnew
        · exact hfirst.calls made hold
        · exact hout.calls made hnew
      · exact hout.result
  | error fault =>
      rw [bind_of_error hresult]
      constructor
      · exact hfirst.calls
      · simp

end Traced
