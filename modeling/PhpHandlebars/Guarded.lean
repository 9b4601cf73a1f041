import PhpHandlebars.Traced
import Mathlib.Tactic

/-!
# Computations under a handler slot

A computation holds one handler at a time: installing one replaces the one
before it, as repeated `setjmp` on the same buffer does.  An error of a call
goes to the handler which is installed when the call is made.
-/

def Guarded (Call Handler Err Out : Type) : Type :=
  Handler → Traced Call (Handler × Err) (Out × Handler)

namespace Guarded

variable {Call Handler Err Failure Out Out' : Type}

def done (out : Out) : Guarded Call Handler Err Out :=
  fun handler => .done (out, handler)

def andThen (first : Guarded Call Handler Err Out)
    (next : Out → Guarded Call Handler Err Out') :
    Guarded Call Handler Err Out' :=
  fun handler => first handler >>= fun reached => next reached.1 reached.2

instance : Monad (Guarded Call Handler Err) where
  pure := done
  bind := andThen

def install (handler : Handler) : Guarded Call Handler Err Unit :=
  fun _ => .done ((), handler)

/-- What a call leaves while `handler` is installed. -/
def settle (handler : Handler) :
    Except Err Out → Except (Handler × Err) (Out × Handler)
  | .ok out => .ok (out, handler)
  | .error error => .error (handler, error)

def call (made : Call) (result : Except Err Out) :
    Guarded Call Handler Err Out :=
  fun handler => .call made (settle handler result)

/-- What an observer sees: the calls, and the result or what the handler has
made of the error. -/
def report (catches : Handler → Err → Failure) (first : Handler)
    (body : Guarded Call Handler Err Out) : Traced Call Failure Out :=
  let ended := body first
  ⟨ended.calls, Except.mapError (fun raised => catches raised.1 raised.2) <|
    ended.result.map Prod.fst⟩

variable (catches : Handler → Err → Failure) (handler : Handler)

@[simp] theorem report_pure (out : Out) :
    (pure out : Guarded Call Handler Err Out).report catches handler =
      pure out := rfl

/-- The handler installed before is forgotten. -/
@[simp] theorem report_install_bind (installed : Handler)
    (next : Unit → Guarded Call Handler Err Out) :
    (install installed >>= next).report catches handler =
      (next ()).report catches installed := rfl

@[simp] theorem report_pure_bind (out : Out)
    (next : Out → Guarded Call Handler Err Out') :
    (pure out >>= next).report catches handler =
      (next out).report catches handler := rfl

theorem report_call (made : Call) (result : Except Err Out) :
    (call made result).report catches handler =
      .call made (Except.mapError (catches handler) result) := by
  cases result <;> rfl

theorem report_call_bind (made : Call) (result : Except Err Out)
    (next : Out → Guarded Call Handler Err Out') :
    (call made result >>= next).report catches handler =
      Traced.call made (Except.mapError (catches handler) result) >>=
        fun out => (next out).report catches handler := by
  cases result <;> rfl

/-- One step of a simulation: two computations which make the same call go on
alike exactly when they agree behind it and their handlers make the same of
its errors. -/
theorem report_call_bind_eq_iff {first second : Handler} (made : Call)
    (result : Except Err Out)
    (next next' : Out → Guarded Call Handler Err Out') :
    (call made result >>= next).report catches first =
        (call made result >>= next').report catches second ↔
      (∀ out, result = .ok out →
        (next out).report catches first = (next' out).report catches second) ∧
      ∀ error, result = .error error →
        catches first error = catches second error := by
  rw [report_call_bind, report_call_bind]
  cases result with
  | ok out =>
      have hcall : ∀ reached : Handler,
          Except.mapError (catches reached) (.ok out : Except Err Out) =
            .ok out := by
        intro reached
        rfl
      rw [hcall, hcall, Traced.bind_of_ok rfl, Traced.bind_of_ok rfl,
        Traced.mk.injEq, List.append_cancel_left_eq]
      constructor
      · intro hagree
        constructor
        · rintro _ ⟨rfl⟩
          exact Traced.ext hagree.1 hagree.2
        · simp
      · intro hagree
        rw [hagree.1 out rfl]
        exact ⟨rfl, rfl⟩
  | error error =>
      have hcall : ∀ reached : Handler,
          Except.mapError (catches reached) (.error error : Except Err Out) =
            .error (catches reached error) := by
        intro reached
        rfl
      rw [hcall, hcall, Traced.bind_of_error rfl, Traced.bind_of_error rfl]
      simp

end Guarded
