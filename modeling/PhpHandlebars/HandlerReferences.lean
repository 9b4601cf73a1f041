import PhpHandlebars.HelperCall
import PhpHandlebars.Ledger
import PhpHandlebars.ValueLookup
import Mathlib.Tactic

/-!
# What the handlers of wrapped values hold

`handlebars_std_zval_map_find` and `handlebars_std_zval_call` make PHP values
for the time of the call.  An error of a conversion leaves the function where
it is raised.
-/

namespace PhpHandlebars

variable {Ty : Type}

inductive Temporary where
  /-- the key as a PHP string, and what `read_dimension` returns -/
  | prop
  | dimension
  /-- the array of object and method name, and what `zend_is_callable_ex` and
  `zend_create_fake_closure` make -/
  | callableArray
  | closure
  | error
  /-- the parameters, the name and the return value of a call -/
  | argument (i : ℕ)
  | functionName
  | returned
  deriving DecidableEq

/-- A handler called by the library, with what PHP answers at that time.
`fills` says whether `read_dimension` has filled in `zrv`, as the one of an
`offsetGet` written in PHP does; others return an entry of the object. -/
inductive HandlerCall (Ty : Type) where
  | mapFind (objects : ObjectHandlers) (fills : Bool) (intern : Zval)
      (key : Bytes) (rv : Value)
  | call (branch : Branch Ty) (engine : HelperEngine Ty) (fcc : Option ℕ)
      (intern : Zval) (args : List Value) (rv : Value)

/-- The end of the `IS_OBJECT` case, where no entry has been found. -/
def callableRefs (objects : ObjectHandlers) (handle : ℕ) (key : Bytes) :
    Ledger Temporary :=
  match objects.callableMethod handle key with
  | some _ => [.acquire .callableArray, .acquire .closure]
  | none => [.acquire .callableArray, .acquire .error]

/-- The release behind a conversion is not reached when that raises. -/
def releaseAfter {Out : Type} (conversion : Except LibError Out)
    (held : Temporary) : Ledger Temporary :=
  match conversion with
  | .ok _ => [.release held]
  | .error _ => []

def dimensionRefs (objects : ObjectHandlers) (fills : Bool) (handle : ℕ)
    (key : Bytes) (rv : Value) : Ledger Temporary :=
  let entry :=
    if objects.hasDimension handle key then objects.readDimension handle key
    else none
  match entry with
  | some entry =>
      if fills then
        [.acquire .prop, .acquire .dimension, .release .prop] ++
          releaseAfter (handlebarsValueFromZval entry rv) .dimension
      else [.acquire .prop, .release .prop]
  | none =>
      [.acquire .prop, .release .prop] ++ callableRefs objects handle key

def mapFindRefs (objects : ObjectHandlers) (fills : Bool) (intern : Zval)
    (key : Bytes) (rv : Value) : Ledger Temporary :=
  match intern with
  | .object handle =>
      if objects.isArrayAccess handle then
        dimensionRefs objects fills handle key rv
      else
        -- a property is read without a reference to it
        match objects.readProperty handle key with
        | none | some .null => callableRefs objects handle key
        | some _ => []
  | _ => []

def callRefsOf (zArgs : List Argument) {Out : Type}
    (conversion : Except LibError Out) : Ledger Temporary :=
  let held :=
    (List.range zArgs.length).map Temporary.argument ++ [.functionName]
  held.map .acquire ++ [.acquire .returned] ++ held.map .release ++
    releaseAfter conversion .returned

def HandlerCall.refs : HandlerCall Ty → Ledger Temporary
  | .mapFind objects fills intern key rv =>
      mapFindRefs objects fills intern key rv
  | .call branch engine fcc intern args rv =>
      match intern with
      | .object handle =>
          if engine.isCallable handle then
            let zArgs := fillArguments args
              (engine.sendOptions branch handle args.length)
            let zRet := (engine.callFunction (fcc.getD handle) zArgs).1
            callRefsOf zArgs (engine.convertReturn zRet rv)
          else []
      | _ => []

/-! ## What is left of one call -/

/-- The object answers the lookup: with an offset which can be converted or
which has not been filled in, or with a property which is not null. -/
def Answers (objects : ObjectHandlers) (fills : Bool) (handle : ℕ)
    (key : Bytes) : Prop :=
  if objects.isArrayAccess handle then
    objects.hasDimension handle key = true ∧
      ∃ entry, objects.readDimension handle key = some entry ∧
        (fills → entry.zType.Convertible)
  else
    ∃ entry, objects.readProperty handle key = some entry ∧
      entry.zType ≠ .isNull

/-- A lookup on an object is answered, and a helper returns what can be
converted. -/
def HandlerCall.Settles : HandlerCall Ty → Prop
  | .mapFind objects fills intern key _ =>
      ∀ handle, intern = .object handle → Answers objects fills handle key
  | .call branch engine fcc intern args rv =>
      ∀ error, (handlebarsStdZvalCall branch engine fcc intern args
        rv).outcome = .error error → error = externalError

/-- A ledger leaves nothing exactly on a condition, and never releases what is
not held. -/
def SettlesIff (refs : Ledger Temporary) (condition : Prop) : Prop :=
  ∃ left, Ledger.settle 0 refs = some left ∧ (left = 0 ↔ condition)

theorem settlesIff_callableRefs (objects : ObjectHandlers) (handle : ℕ)
    (key : Bytes) : SettlesIff (callableRefs objects handle key) False := by
  unfold callableRefs
  cases objects.callableMethod handle key <;>
    exact ⟨_, rfl, by simp⟩

theorem isOk_iff_convertible (entry : Zval) (rv : Value) :
    (handlebarsValueFromZval entry rv).isOk ↔ entry.zType.Convertible := by
  cases hconvert : handlebarsValueFromZval entry rv with
  | ok value =>
      simp only [Except.isOk, Except.toBool, true_iff]
      by_contra hnot
      have herror := (handlebarsValueFromZval_error_iff entry rv _).mpr
        ⟨hnot, rfl⟩
      simp [hconvert] at herror
  | error error =>
      have hnot := (handlebarsValueFromZval_error_iff entry rv error).mp
        hconvert
      simpa [Except.isOk, Except.toBool] using hnot.1

theorem settlesIff_dimensionRefs (objects : ObjectHandlers) (fills : Bool)
    (handle : ℕ) (key : Bytes) (rv : Value) :
    SettlesIff (dimensionRefs objects fills handle key rv)
      (objects.hasDimension handle key = true ∧
        ∃ entry, objects.readDimension handle key = some entry ∧
          (fills → entry.zType.Convertible)) := by
  unfold dimensionRefs
  cases hhas : objects.hasDimension handle key with
  | false =>
      obtain ⟨left, hsettle, hleft⟩ :=
        settlesIff_callableRefs objects handle key
      refine ⟨left, ?_, by simpa using hleft⟩
      rw [if_neg (by simp)]
      exact hsettle
  | true =>
      rw [if_pos rfl]
      cases hread : objects.readDimension handle key with
      | none =>
          obtain ⟨left, hsettle, hleft⟩ :=
            settlesIff_callableRefs objects handle key
          exact ⟨left, hsettle, by simpa using hleft⟩
      | some entry =>
          have hiff := isOk_iff_convertible entry rv
          cases fills with
          | false => exact ⟨0, rfl, by simp⟩
          | true =>
              simp only [if_true, forall_const]
              cases hconvert : handlebarsValueFromZval entry rv with
              | ok value =>
                  refine ⟨0, ?_, ?_⟩
                  · simp [releaseAfter, Ledger.settle]
                  · simpa [hconvert, Except.isOk, Except.toBool] using hiff
              | error error =>
                  refine ⟨{.dimension}, ?_, ?_⟩
                  · simp [releaseAfter, Ledger.settle,
                      Multiset.erase_cons_tail]
                  · simpa [hconvert, Except.isOk, Except.toBool] using hiff

theorem settlesIff_mapFindRefs (objects : ObjectHandlers) (fills : Bool)
    (intern : Zval) (key : Bytes) (rv : Value) :
    SettlesIff (mapFindRefs objects fills intern key rv)
      (∀ handle, intern = .object handle →
        Answers objects fills handle key) := by
  cases intern with
  | object handle =>
      simp only [mapFindRefs, Zval.object.injEq, forall_eq']
      unfold Answers
      cases objects.isArrayAccess handle with
      | true => exact settlesIff_dimensionRefs objects fills handle key rv
      | false =>
          simp only [Bool.false_eq_true, if_false]
          cases hread : objects.readProperty handle key with
          | none => simpa using settlesIff_callableRefs objects handle key
          | some entry =>
              cases entry with
              | null =>
                  simpa [Zval.zType] using
                    settlesIff_callableRefs objects handle key
              | _ => exact ⟨0, rfl, by simp [Zval.zType]⟩
  | _ => exact ⟨0, rfl, by simp⟩

theorem settlesIff_callRefsOf (zArgs : List Argument) {Out : Type}
    (conversion : Except LibError Out) :
    SettlesIff (callRefsOf zArgs conversion) conversion.isOk := by
  have hreturned : Ledger.settle 0
      [LedgerEntry.acquire Temporary.returned] = some {.returned} := rfl
  have hbracket := Ledger.settle_bracket hreturned
    ((List.range zArgs.length).map Temporary.argument ++ [.functionName])
  unfold SettlesIff callRefsOf
  simp only [Ledger.settle_append] at hbracket ⊢
  rw [hbracket, Option.bind_some]
  cases conversion with
  | ok out => exact ⟨0, rfl, by simp [Except.isOk, Except.toBool]⟩
  | error error =>
      exact ⟨{.returned}, rfl, by simp [Except.isOk, Except.toBool]⟩

theorem convertReturn_ne_external {engine : HelperEngine Ty} {zRet : Zval}
    {rv : Value} {error : LibError}
    (hconvert : engine.convertReturn zRet rv = .error error) :
    error ≠ externalError := by
  have hconversion : ∀ val, handlebarsValueFromZval val rv = .error error →
      error ≠ externalError := by
    intro val hval
    obtain ⟨_, rfl⟩ := (handlebarsValueFromZval_error_iff _ _ _).mp hval
    simp [unimplementedConversion, externalError]
  unfold HelperEngine.convertReturn at hconvert
  dsimp only at hconvert
  split at hconvert
  next text hsafe => simp [handlebarsValueFromZval] at hconvert
  next hsafe =>
    cases hval : handlebarsValueFromZval zRet rv with
    | ok value => simp [hval] at hconvert
    | error raised =>
        obtain rfl : raised = error := by simpa [hval] using hconvert
        exact hconversion zRet hval

theorem outcome_error_iff {Out : Type} (result : Except LibError Out)
    (exception : Bool) :
    (∀ error, (do
        let out ← result
        if exception then throw externalError else return out) =
          Except.error error → error = externalError) ↔
      ∀ error, result = .error error → error = externalError := by
  cases result with
  | ok out =>
      cases exception with
      | true => simp [bind, Except.bind, throw, throwThe, MonadExceptOf.throw]
      | false => simp [bind, Except.bind, pure, Except.pure]
  | error error => simp [bind, Except.bind]

/-- The error of a return value which cannot be converted is not the one an
exception becomes. -/
theorem settles_call_iff {engine : HelperEngine Ty} {handle : ℕ}
    (hcallable : engine.isCallable handle) (branch : Branch Ty)
    (fcc : Option ℕ) (args : List Value) (rv : Value) :
    (HandlerCall.call branch engine fcc (.object handle) args rv).Settles ↔
      (engine.convertReturn (engine.callFunction (fcc.getD handle)
        (fillArguments args
          (engine.sendOptions branch handle args.length))).1 rv).isOk := by
  simp only [HandlerCall.Settles, handlebarsStdZvalCall, hcallable, if_true,
    outcome_error_iff]
  cases hconvert : engine.convertReturn (engine.callFunction
      (fcc.getD handle) (fillArguments args
        (engine.sendOptions branch handle args.length))).1 rv with
  | ok result => simp [Except.isOk, Except.toBool]
  | error raised =>
      have hne := convertReturn_ne_external hconvert
      simpa [Except.isOk, Except.toBool] using hne

theorem HandlerCall.settlesIff (made : HandlerCall Ty) :
    SettlesIff made.refs made.Settles := by
  cases made with
  | mapFind objects fills intern key rv =>
      exact settlesIff_mapFindRefs objects fills intern key rv
  | call branch engine fcc intern args rv =>
      cases intern with
      | object handle =>
          cases hcallable : engine.isCallable handle with
          | true =>
              rw [settles_call_iff hcallable]
              simp only [HandlerCall.refs, hcallable, if_true]
              exact settlesIff_callRefsOf _ _
          | false =>
              refine ⟨0, by simp [HandlerCall.refs, hcallable,
                Ledger.settle], ?_⟩
              simp [HandlerCall.Settles, handlebarsStdZvalCall, hcallable]
      | _ =>
          exact ⟨0, rfl, by
            simp [HandlerCall.Settles, handlebarsStdZvalCall]⟩

/-- Whatever the handlers are called for, they release nothing they do not
hold, and all they hold is released exactly when every object looked up in
answers and every helper returns what can be converted. -/
theorem handlers_settle_iff (calls : List (HandlerCall Ty)) :
    (Ledger.settle 0 (calls.flatMap HandlerCall.refs)).isSome ∧
      (Ledger.Balanced (calls.flatMap HandlerCall.refs) ↔
        ∀ made ∈ calls, made.Settles) := by
  have hchoose : ∀ made : HandlerCall Ty, ∃ left,
      Ledger.settle 0 made.refs = some left ∧ (left = 0 ↔ made.Settles) :=
    fun made => made.settlesIff
  choose left hsettle hleft using hchoose
  constructor
  · rw [Ledger.settle_flatMap hsettle]
    rfl
  · rw [Ledger.balanced_flatMap_iff hsettle]
    simp only [hleft]

end PhpHandlebars
