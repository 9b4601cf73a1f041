import PhpHandlebars.PhpArray
import PhpHandlebars.ValueConversion
import Mathlib.Tactic

/-!
# Calls of helpers

`handlebars_std_zval_call` converts the arguments and appends an `Options`
object, or does not, according to the type of the parameter behind them.  The
types are looked at by different macros under PHP 8 and PHP 7.  What is called
then is the function which an earlier call left in `obj->fcc`.
-/

namespace PhpHandlebars

/-! ## Types of parameters -/

inductive Builtin where
  | null
  | false
  | true
  | bool
  | int
  | float
  | string
  | array
  | callable
  | iterable
  | object
  | mixed
  deriving DecidableEq

structure ClassName where
  name : Bytes
  plain : 0 ∉ name
  deriving DecidableEq

/-- `zend_type` of PHP 8: a mask, and a class or a list of classes behind its
pointer.  Without either the parameter is untyped. -/
structure ZendType where
  mask : List Builtin
  classes : List ClassName
  deriving DecidableEq

inductive ZendType7 where
  | none
  | code (type : Builtin) (allowNull : Bool)
  | className (name : ClassName) (allowNull : Bool)
  deriving DecidableEq

def optionsName : Bytes := ascii "Handlebars\\Options"

/-- `strcmp(name, "Handlebars\\Options") == 0`. -/
def isOptionsName (name : Bytes) : Bool :=
  cString name = optionsName

namespace ZendType

/-- `ZEND_TYPE_IS_ONLY_MASK`, which is false of a type that is not set. -/
def isOnlyMask (type : ZendType) : Bool :=
  type.mask ≠ [] ∧ type.classes = []

def hasName (type : ZendType) : Bool :=
  type.classes.length = 1

/-- What `ZEND_TYPE_FOREACH` runs over: the list, or the type itself. -/
def subtypes (type : ZendType) : List ZendType :=
  if type.classes.length ≤ 1 then [type]
  else type.classes.map fun name => ⟨[], [name]⟩

/-- `ZSTR_VAL(ZEND_TYPE_NAME(type))`.  A list has no name; what stands in its
memory where a string would have its bytes is given by `listBytes`. -/
def typeName (listBytes : List ClassName → Bytes) (type : ZendType) : Bytes :=
  match type.classes with
  | [name] => name.name
  | classes => listBytes classes

end ZendType

/-! ## The decision -/

def sendOptions8 (listBytes : List ClassName → Bytes) (sendOptions : Bool)
    (argInfo : List ZendType) (argc : ℕ) : Bool :=
  match argInfo[argc]? with
  | none => sendOptions
  | some type =>
      let sendOptions := if type.isOnlyMask then false else sendOptions
      type.subtypes.foldl (fun sendOptions subtype =>
        if subtype.hasName then
          -- the name is that of `type`, not of `subtype`
          if isOptionsName (type.typeName listBytes) then true
          else sendOptions
        else sendOptions) sendOptions

/-- `ZEND_TYPE_IS_CODE(arg_info->type)`, which looks at the first
parameter. -/
def firstIsCode : List ZendType7 → Bool
  | .code _ _ :: _ => true
  | _ => false

def sendOptions7 (sendOptions : Bool) (argInfo : List ZendType7)
    (argc : ℕ) : Bool :=
  match argInfo[argc]? with
  | none => sendOptions
  | some (.className name _) => isOptionsName name.name
  | some _ => !firstIsCode argInfo

/-! ## The call -/

inductive Argument where
  | converted (val : Zval)
  | options

/-- What the engine knows about the objects of a PHP version. -/
structure HelperEngine (Ty : Type) where
  isCallable : ℕ → Bool
  isClosure : ℕ → Bool
  /-- the parameters of a closure, or of `__invoke`, which `num_args` counts -/
  argInfo : ℕ → List Ty
  /-- the variadic parameter behind them, which it does not count -/
  variadic : ℕ → Option Ty
  /-- `zend_call_function`: the return value, and whether an exception is
  pending, also where the call failed and one is thrown for it -/
  callFunction : ℕ → List Argument → Zval × Bool
  /-- the string a `Handlebars\SafeString` is converted to -/
  safeString : ℕ → Option Bytes

/-- The branch compiled in: what the flag becomes at a declared parameter. -/
abbrev Branch (Ty : Type) := Bool → List Ty → ℕ → Bool

structure HelperResult where
  /-- the object called and its parameters, if there is a call -/
  passed : Option (ℕ × List Argument)
  /-- the value, and whether it is flagged as a safe string -/
  outcome : Except LibError (Value × Bool)
  /-- `obj->fcc` at the end -/
  fcc : Option ℕ

/-- The function of a closure is taken out of `obj->fcc` after the call, that
of another object stays there. -/
def fccAfterCall (isClosure : ℕ → Bool) (called : ℕ) : Option ℕ :=
  if isClosure called then none else some called

variable {Ty : Type}

def HelperEngine.sendOptions (engine : HelperEngine Ty) (branch : Branch Ty)
    (handle argc : ℕ) : Bool :=
  let sendOptions := engine.isClosure handle
  let argInfo := engine.argInfo handle
  if argc < argInfo.length then branch sendOptions argInfo argc
  else sendOptions

def convertArguments (i : ℕ) : List Value → List Argument → List Argument
  | [], zArgs => zArgs
  | arg :: rest, zArgs =>
      convertArguments (i + 1) rest
        (zArgs.set i (.converted (handlebarsValueToZval arg)))

def fillArguments (args : List Value) (sendOptions : Bool) : List Argument :=
  let nArgs := args.length + if sendOptions then 1 else 0
  let zArgs := convertArguments 0 args
    (List.replicate nArgs (.converted .undef))
  if sendOptions then zArgs.set (nArgs - 1) .options else zArgs

def HelperEngine.convertReturn (engine : HelperEngine Ty) (zRet : Zval)
    (rv : Value) : Except LibError (Value × Bool) :=
  let safe := match zRet with
    | .object handle => engine.safeString handle
    | _ => none
  match safe with
  | some text => do return (← handlebarsValueFromZval (.string text) rv, true)
  | none => do return (← handlebarsValueFromZval zRet rv, false)

/-- `fcc` is the object whose function is in `obj->fcc` already. -/
def handlebarsStdZvalCall (branch : Branch Ty) (engine : HelperEngine Ty)
    (fcc : Option ℕ) (intern : Zval) (args : List Value) (rv : Value) :
    HelperResult :=
  match intern with
  | .object handle =>
      if engine.isCallable handle then
        let zArgs := fillArguments args
          (engine.sendOptions branch handle args.length)
        let called := fcc.getD handle
        let (zRet, exception) := engine.callFunction called zArgs
        ⟨some (called, zArgs), do
          let result ← engine.convertReturn zRet rv
          if exception then throw externalError else return result,
          fccAfterCall engine.isClosure called⟩
      else ⟨none, .ok (rv, false), fcc⟩
  | _ => ⟨none, .ok (rv, false), fcc⟩

/-! ## What is documented -/

def lowercase (name : Bytes) : Bytes :=
  name.map fun byte => if 65 ≤ byte ∧ byte ≤ 90 then byte + 32 else byte

/-- Class names do not depend on case. -/
def ClassName.NamesOptions (name : ClassName) : Prop :=
  lowercase name.name = lowercase optionsName

namespace ZendType

def Untyped (type : ZendType) : Prop :=
  type.mask = [] ∧ type.classes = []

/-- An instance of `Handlebars\Options` may be passed; `admits` says to which
classes it belongs. -/
def AdmitsOptions (admits : ClassName → Bool) (type : ZendType) : Prop :=
  .object ∈ type.mask ∨ .mixed ∈ type.mask ∨
    ∃ name ∈ type.classes, admits name

def NamesOptions (type : ZendType) : Prop :=
  ∃ name ∈ type.classes, name.NamesOptions

end ZendType

def ZendType7.toType : ZendType7 → ZendType
  | .none => ⟨[], []⟩
  | .code type allowNull => ⟨type :: if allowNull then [.null] else [], []⟩
  | .className name allowNull => ⟨if allowNull then [.null] else [], [name]⟩

/-- Whether the helper is to get an `Options` object behind its arguments. -/
def ReceivesOptions (admits : ClassName → Bool) (closure : Bool)
    (argInfo : List ZendType) (argc : ℕ) : Prop :=
  if closure then
    argInfo.length ≤ argc ∨ ∃ type, argInfo[argc]? = some type ∧
      (type.Untyped ∨ type.AdmitsOptions admits)
  else
    argc < argInfo.length ∧ ∃ type, argInfo[argc]? = some type ∧
      (type.Untyped ∨ type.NamesOptions)

/-- The declared parameters, a variadic one at the end. -/
def HelperEngine.parameters (engine : HelperEngine Ty) (handle : ℕ) :
    List Ty :=
  engine.argInfo handle ++ (engine.variadic handle).toList

/-- The helper is called with the converted arguments, in order, and with an
`Options` object behind them exactly as documented. -/
def PassesAsDocumented (admits : ClassName → Bool) (branch : Branch Ty)
    (toType : Ty → ZendType) (engine : HelperEngine Ty) (fcc : Option ℕ)
    (handle : ℕ) (args : List Value) (rv : Value) : Prop :=
  let converted := args.map fun arg =>
    Argument.converted (handlebarsValueToZval arg)
  let receives := ReceivesOptions admits (engine.isClosure handle)
    ((engine.parameters handle).map toType) args.length
  let passed := (handlebarsStdZvalCall branch engine fcc (.object handle) args
    rv).passed
  (receives → passed = some (handle, converted ++ [.options])) ∧
    (¬ receives → passed = some (handle, converted))

/-- The call goes to the object itself. -/
def CallsOwn (fcc : Option ℕ) (handle : ℕ) : Prop :=
  ∀ called ∈ fcc, called = handle

theorem callsOwn_iff (fcc : Option ℕ) (handle : ℕ) :
    CallsOwn fcc handle ↔ fcc.getD handle = handle := by
  cases fcc <;> simp [CallsOwn]

/-! ## Arguments -/

theorem convertArguments_append (args : List Value)
    (done zArgs : List Argument) (hroom : args.length ≤ zArgs.length) :
    convertArguments done.length args (done ++ zArgs) =
      done ++ args.map (fun arg => .converted (handlebarsValueToZval arg)) ++
        zArgs.drop args.length := by
  induction args generalizing done zArgs with
  | nil => simp [convertArguments]
  | cons arg rest ih =>
      cases zArgs with
      | nil => simp at hroom
      | cons old zArgs =>
          have hset : (done ++ old :: zArgs).set done.length
              (.converted (handlebarsValueToZval arg)) =
                (done ++ [.converted (handlebarsValueToZval arg)]) ++
                  zArgs := by
            simp
          have hrest := ih
            (done ++ [.converted (handlebarsValueToZval arg)]) zArgs
            (by simpa using hroom)
          rw [List.length_append, List.length_singleton] at hrest
          rw [convertArguments, hset, hrest]
          simp

theorem fillArguments_eq (args : List Value) (sendOptions : Bool) :
    fillArguments args sendOptions =
      args.map (fun arg => .converted (handlebarsValueToZval arg)) ++
        if sendOptions then [.options] else [] := by
  have hroom : args.length ≤
      (List.replicate (args.length + if sendOptions then 1 else 0)
        (Argument.converted .undef)).length := by
    simp
  have hconverted := convertArguments_append args [] _ hroom
  simp only [List.length_nil, List.nil_append] at hconverted
  unfold fillArguments
  simp only [hconverted]
  cases sendOptions <;> simp

theorem passed_eq {engine : HelperEngine Ty} {handle : ℕ}
    (hcallable : engine.isCallable handle) (branch : Branch Ty)
    (fcc : Option ℕ) (args : List Value) (rv : Value) :
    (handlebarsStdZvalCall branch engine fcc (.object handle) args
        rv).passed =
      some (fcc.getD handle,
        args.map (fun arg => .converted (handlebarsValueToZval arg)) ++
          if engine.sendOptions branch handle args.length then [.options]
          else []) := by
  rw [← fillArguments_eq]
  simp only [handlebarsStdZvalCall, hcallable, if_true]

/-- Only the decision and the function called can go wrong. -/
theorem passesAsDocumented_iff {engine : HelperEngine Ty} {handle : ℕ}
    (hcallable : engine.isCallable handle) (admits : ClassName → Bool)
    (branch : Branch Ty) (toType : Ty → ZendType) (fcc : Option ℕ)
    (args : List Value) (rv : Value) :
    PassesAsDocumented admits branch toType engine fcc handle args rv ↔
      CallsOwn fcc handle ∧
        (engine.sendOptions branch handle args.length ↔
          ReceivesOptions admits (engine.isClosure handle)
            ((engine.parameters handle).map toType) args.length) := by
  unfold PassesAsDocumented
  rw [callsOwn_iff]
  simp only [passed_eq hcallable, Option.some.injEq, Prod.mk.injEq]
  by_cases hreceives : ReceivesOptions admits (engine.isClosure handle)
      ((engine.parameters handle).map toType) args.length <;>
    cases engine.sendOptions branch handle args.length <;>
    simp [hreceives]

/-- What the parameter behind the arguments should decide. -/
def ShouldReceive (admits : ClassName → Bool) (closure : Bool)
    (type : ZendType) : Prop :=
  type.Untyped ∨
    if closure then type.AdmitsOptions admits else type.NamesOptions

/-- A variadic parameter right behind the arguments is not looked at: a closure
gets the object, another helper does not. -/
def VariadicDecides (admits : ClassName → Bool) (closure : Bool)
    (numArgs : ℕ) (variadic : Option ZendType) (argc : ℕ) : Prop :=
  argc = numArgs → ∀ type ∈ variadic,
    ShouldReceive admits closure type ↔ closure

theorem receivesOptions_iff (admits : ClassName → Bool) (closure : Bool)
    (parameters : List ZendType) (argc : ℕ) :
    ReceivesOptions admits closure parameters argc ↔
      parameters[argc]?.elim (closure = true)
        (ShouldReceive admits closure) := by
  unfold ReceivesOptions ShouldReceive
  cases htype : parameters[argc]? with
  | none =>
      have hle := List.getElem?_eq_none_iff.mp htype
      cases closure <;> simp [hle]
  | some type =>
      obtain ⟨hlt, _⟩ := List.getElem?_eq_some_iff.mp htype
      cases closure <;> simp [hlt]

/-- Behind all declared parameters both branches do as documented. -/
theorem decision_iff {engine : HelperEngine Ty} {handle argc : ℕ}
    (admits : ClassName → Bool) (branch : Branch Ty) (toType : Ty → ZendType) :
    (engine.sendOptions branch handle argc ↔
      ReceivesOptions admits (engine.isClosure handle)
        ((engine.parameters handle).map toType) argc) ↔
      (∀ type, (engine.argInfo handle)[argc]? = some type →
        (branch (engine.isClosure handle) (engine.argInfo handle) argc ↔
          ShouldReceive admits (engine.isClosure handle) (toType type))) ∧
      VariadicDecides admits (engine.isClosure handle)
        (engine.argInfo handle).length
        ((engine.variadic handle).map toType) argc := by
  rw [receivesOptions_iff, HelperEngine.sendOptions, VariadicDecides,
    HelperEngine.parameters, List.getElem?_map]
  rcases lt_trichotomy argc (engine.argInfo handle).length with
    hlt | rfl | hgt
  · rw [if_pos hlt, List.getElem?_append_left hlt,
      List.getElem?_eq_getElem hlt]
    simp [hlt.ne]
  · rw [if_neg (Nat.lt_irrefl _), List.getElem?_append_right (Nat.le_refl _),
      Nat.sub_self]
    cases engine.variadic handle with
    | none => simp
    | some type => simp [iff_comm]
  · have hlast : (engine.variadic handle).toList.length ≤ 1 :=
      Option.length_toList_le
    rw [if_neg (by omega), List.getElem?_eq_none (by simp; omega),
      List.getElem?_eq_none (by omega)]
    simp [hgt.ne']

/-! ## PHP 8 -/

theorem isOptionsName_iff (name : ClassName) :
    isOptionsName name.name ↔ name.name = optionsName := by
  rw [isOptionsName, cString_of_not_mem name.plain, decide_eq_true_eq]

theorem namesOptions_of_eq {name : ClassName} (hname : name.name = optionsName) :
    name.NamesOptions := by
  rw [ClassName.NamesOptions, hname]

/-- The loop over the subtypes compares the same name again and again. -/
theorem foldl_same_name (named : ZendType → Bool) (same : Bool)
    (subtypes : List ZendType) (sendOptions : Bool) :
    subtypes.foldl (fun sendOptions subtype =>
        if named subtype then if same then true else sendOptions
        else sendOptions) sendOptions =
      (sendOptions || same && subtypes.any named) := by
  induction subtypes generalizing sendOptions with
  | nil => simp
  | cons subtype rest ih =>
      rw [List.foldl_cons, ih, List.any_cons]
      cases named subtype <;> cases same <;> cases sendOptions <;> simp

/-- A list of classes is never taken for `Handlebars\Options`. -/
theorem sendOptions8_iff {listBytes : List ClassName → Bytes}
    (hlist : ∀ classes, isOptionsName (listBytes classes) = false)
    {argInfo : List ZendType} {argc : ℕ} {type : ZendType}
    (htype : argInfo[argc]? = some type) (sendOptions : Bool) :
    sendOptions8 listBytes sendOptions argInfo argc ↔
      sendOptions ∧ type.isOnlyMask = false ∨
        ∃ name, type.classes = [name] ∧ name.name = optionsName := by
  obtain ⟨mask, classes⟩ := type
  simp only [sendOptions8, htype, foldl_same_name]
  rcases classes with _ | ⟨name, _ | ⟨other, rest⟩⟩
  · cases mask <;> cases sendOptions <;>
      simp [ZendType.isOnlyMask, ZendType.subtypes, ZendType.hasName]
  · have hname := isOptionsName_iff name
    cases sendOptions <;>
      simp [ZendType.isOnlyMask, ZendType.subtypes, ZendType.hasName,
        ZendType.typeName, hname]
  · have hother := hlist (name :: other :: rest)
    cases sendOptions <;>
      simp [ZendType.isOnlyMask, ZendType.typeName, hother]

/-- Under PHP 8 a closure decides by whether there is a class in the type, and
another object by whether the class is alone in it and spelled as declared. -/
def Decides8 (admits : ClassName → Bool) (closure : Bool)
    (argInfo : List ZendType) (variadic : Option ZendType) (argc : ℕ) :
    Prop :=
  (∀ type, argInfo[argc]? = some type →
    if closure then type.classes ≠ [] ↔ type.AdmitsOptions admits
    else ¬ type.Untyped ∧ (type.NamesOptions →
      ∃ name, type.classes = [name] ∧ name.name = optionsName)) ∧
  VariadicDecides admits closure argInfo.length variadic argc

theorem decides8_iff {listBytes : List ClassName → Bytes}
    (hlist : ∀ classes, isOptionsName (listBytes classes) = false)
    (admits : ClassName → Bool) (engine : HelperEngine ZendType)
    (handle argc : ℕ) :
    (engine.sendOptions (sendOptions8 listBytes) handle argc ↔
      ReceivesOptions admits (engine.isClosure handle)
        ((engine.parameters handle).map id) argc) ↔
      Decides8 admits (engine.isClosure handle) (engine.argInfo handle)
        (engine.variadic handle) argc := by
  rw [decision_iff, Decides8, Option.map_id, id]
  apply and_congr_left'
  apply forall_congr'
  intro type
  apply imp_congr_right
  intro htype
  rw [sendOptions8_iff hlist htype, ShouldReceive, id]
  have hnamed : (∃ name, type.classes = [name] ∧ name.name = optionsName) →
      type.NamesOptions ∧ type.classes ≠ [] := by
    rintro ⟨name, hclasses, hname⟩
    constructor
    · exact ⟨name, by simp [hclasses], namesOptions_of_eq hname⟩
    · simp [hclasses]
  have honly : type.isOnlyMask = false ↔
      type.mask = [] ∨ type.classes ≠ [] := by
    simp [ZendType.isOnlyMask, or_iff_not_imp_left]
  have huntyped : type.Untyped → ¬ type.AdmitsOptions admits := by
    rintro ⟨hmask, hclasses⟩
    simp [ZendType.AdmitsOptions, hmask, hclasses]
  unfold ZendType.Untyped at huntyped ⊢
  cases engine.isClosure handle with
  | false =>
      simp only [Bool.false_eq_true, false_and, false_or, if_false]
      grind
  | true =>
      simp only [true_and, if_true, honly]
      grind

/-! ## PHP 7 -/

/-- Under PHP 7 a class is compared by its spelling, and anything else decided
by the first parameter. -/
def Decides7 (admits : ClassName → Bool) (closure : Bool)
    (argInfo : List ZendType7) (variadic : Option ZendType7) (argc : ℕ) :
    Prop :=
  (∀ name allowNull, argInfo[argc]? = some (.className name allowNull) →
    (name.name = optionsName ↔
      if closure then (admits name : Prop) else name.NamesOptions)) ∧
  (argInfo[argc]? = some .none → firstIsCode argInfo = false) ∧
  (∀ type allowNull, argInfo[argc]? = some (.code type allowNull) →
    (firstIsCode argInfo = false ↔
      closure ∧ (type = .object ∨ type = .mixed))) ∧
  VariadicDecides admits closure argInfo.length
    (variadic.map ZendType7.toType) argc

theorem decides7_iff (admits : ClassName → Bool)
    (engine : HelperEngine ZendType7) (handle argc : ℕ) :
    (engine.sendOptions sendOptions7 handle argc ↔
      ReceivesOptions admits (engine.isClosure handle)
        ((engine.parameters handle).map ZendType7.toType) argc) ↔
      Decides7 admits (engine.isClosure handle) (engine.argInfo handle)
        (engine.variadic handle) argc := by
  rw [decision_iff, Decides7, ← and_assoc, ← and_assoc]
  apply and_congr_left'
  unfold sendOptions7 ShouldReceive
  cases (engine.argInfo handle)[argc]? with
  | none => simp
  | some type =>
      cases type with
      | none => simp [ZendType7.toType, ZendType.Untyped]
      | code type allowNull =>
          cases engine.isClosure handle <;>
            cases allowNull <;>
            simp [ZendType7.toType, ZendType.Untyped,
              ZendType.AdmitsOptions, ZendType.NamesOptions,
              @eq_comm _ Builtin.object, @eq_comm _ Builtin.mixed]
      | className name allowNull =>
          have hname := isOptionsName_iff name
          cases engine.isClosure handle <;>
            cases allowNull <;>
            simp [ZendType7.toType, ZendType.Untyped,
              ZendType.AdmitsOptions, ZendType.NamesOptions, hname]

/-! ## Both versions -/

/-- Helpers get an `Options` object as documented exactly for the parameters
on which the tests of their version decide rightly, and when the call goes to
them and not to an object which was called before through the same cell. -/
theorem options_passed_iff (admits : ClassName → Bool)
    {listBytes : List ClassName → Bytes}
    (hlist : ∀ classes, isOptionsName (listBytes classes) = false) :
    (∀ (engine : HelperEngine ZendType) (handle : ℕ),
      engine.isCallable handle → ∀ fcc args rv,
        (PassesAsDocumented admits (sendOptions8 listBytes) id engine fcc
            handle args rv ↔
          CallsOwn fcc handle ∧
            Decides8 admits (engine.isClosure handle) (engine.argInfo handle)
              (engine.variadic handle) args.length)) ∧
    ∀ (engine : HelperEngine ZendType7) (handle : ℕ),
      engine.isCallable handle → ∀ fcc args rv,
        (PassesAsDocumented admits sendOptions7 ZendType7.toType engine fcc
            handle args rv ↔
          CallsOwn fcc handle ∧
            Decides7 admits (engine.isClosure handle) (engine.argInfo handle)
              (engine.variadic handle) args.length) := by
  constructor
  · intro engine handle hcallable fcc args rv
    rw [passesAsDocumented_iff hcallable, decides8_iff hlist]
  · intro engine handle hcallable fcc args rv
    rw [passesAsDocumented_iff hcallable, decides7_iff]

def optionsClass : ClassName where
  name := optionsName
  plain := by decide

def admitsOptionsClass (name : ClassName) : Bool :=
  name = optionsClass

def sampleEngine (closure : Bool) (argInfo : List Ty)
    (variadic : Option Ty) : HelperEngine Ty where
  isCallable _ := true
  isClosure _ := closure
  argInfo _ := argInfo
  variadic _ := variadic
  callFunction _ _ := (.null, false)
  safeString _ := none

theorem emptyBytes_isOptionsName (classes : List ClassName) :
    isOptionsName ((fun _ => []) classes) = false := by
  have hempty : isOptionsName [] = false := by decide
  exact hempty

/-- A closure with a parameter for its argument, one for the options and a
variadic one. -/
theorem options_passed_to_closure :
    PassesAsDocumented admitsOptionsClass (sendOptions8 fun _ => []) id
        (sampleEngine true [⟨[], []⟩, ⟨[.null], [optionsClass]⟩]
          (some ⟨[.int], []⟩)) none 0 [.integer 1] .null ∧
      PassesAsDocumented admitsOptionsClass sendOptions7 ZendType7.toType
        (sampleEngine true [.none, .className optionsClass true]
          (some (.code .int false))) none 0 [.integer 1] .null := by
  obtain ⟨hphp8, hphp7⟩ :=
    options_passed_iff admitsOptionsClass emptyBytes_isOptionsName
  constructor
  · rw [hphp8 _ 0 rfl]
    refine ⟨by simp [CallsOwn], ?_, by simp [VariadicDecides, sampleEngine]⟩
    rintro type ⟨rfl⟩
    simp [sampleEngine, ZendType.AdmitsOptions, admitsOptionsClass]
  · rw [hphp7 _ 0 rfl]
    simp [sampleEngine, Decides7, VariadicDecides, CallsOwn,
      admitsOptionsClass, optionsClass]

/-- The second parameter of `__invoke` has no type, but gets no options.
Under PHP 8 the flag is only ever set for a name, and PHP 7 goes by the first
parameter, which is a string. -/
theorem untyped_parameter_without_options :
    ¬ PassesAsDocumented admitsOptionsClass (sendOptions8 fun _ => []) id
        (sampleEngine false [⟨[.string], []⟩, ⟨[], []⟩] none) none 0
        [.integer 1] .null ∧
      ¬ PassesAsDocumented admitsOptionsClass sendOptions7 ZendType7.toType
        (sampleEngine false [.code .string false, .none] none) none 0
        [.integer 1] .null := by
  constructor
  · rw [passesAsDocumented_iff rfl, decides8_iff emptyBytes_isOptionsName]
    intro hpasses
    have huntyped := (hpasses.2.1 ⟨[], []⟩ rfl).1
    exact huntyped ⟨rfl, rfl⟩
  · rw [passesAsDocumented_iff rfl, decides7_iff]
    intro hpasses
    have hcode := hpasses.2.2.1 rfl
    exact absurd hcode (by decide)

/-! ## One version against the other -/

/-- An engine of PHP 8 with the same declarations and the same helpers. -/
def HelperEngine.php8 (engine : HelperEngine ZendType7) :
    HelperEngine ZendType where
  isCallable := engine.isCallable
  isClosure := engine.isClosure
  argInfo := fun handle => (engine.argInfo handle).map ZendType7.toType
  variadic := fun handle => (engine.variadic handle).map ZendType7.toType
  callFunction := engine.callFunction
  safeString := engine.safeString

/-- What the tests of both versions make of the parameter behind the
arguments.  A class is taken by its name, other than by the closures of PHP 8;
the rest rests on the first parameter under PHP 7. -/
def VersionsDecideAlike (closure : Bool) (argInfo : List ZendType7)
    (argc : ℕ) : Prop :=
  match argInfo[argc]? with
  | none => True
  | some .none => closure = !firstIsCode argInfo
  | some (.code _ _) => firstIsCode argInfo
  | some (.className name _) => closure → name.name = optionsName

theorem sendOptions8_toType (listBytes : List ClassName → Bytes)
    (closure : Bool) (argInfo : List ZendType7) (argc : ℕ) :
    sendOptions8 listBytes closure (argInfo.map ZendType7.toType) argc =
      match argInfo[argc]? with
      | none => closure
      | some .none => closure
      | some (.code _ _) => false
      | some (.className name _) => closure || isOptionsName name.name := by
  unfold sendOptions8
  rw [List.getElem?_map]
  cases argInfo[argc]? with
  | none => rfl
  | some type =>
      cases type with
      | none => rfl
      | code type allowNull =>
          simp [ZendType7.toType, ZendType.isOnlyMask, ZendType.subtypes,
            ZendType.hasName]
      | className name allowNull =>
          cases closure <;> cases hname : isOptionsName name.name <;>
            simp [ZendType7.toType, ZendType.isOnlyMask, ZendType.subtypes,
              ZendType.hasName, ZendType.typeName, hname]

theorem decisions_eq_iff (listBytes : List ClassName → Bytes)
    (engine : HelperEngine ZendType7) (handle argc : ℕ) :
    engine.php8.sendOptions (sendOptions8 listBytes) handle argc =
        engine.sendOptions sendOptions7 handle argc ↔
      VersionsDecideAlike (engine.isClosure handle) (engine.argInfo handle)
        argc := by
  simp only [HelperEngine.sendOptions, HelperEngine.php8, List.length_map,
    sendOptions8_toType, sendOptions7, VersionsDecideAlike]
  by_cases hargc : argc < (engine.argInfo handle).length
  · rw [if_pos hargc, if_pos hargc]
    cases (engine.argInfo handle)[argc]? with
    | none => simp
    | some type =>
        cases type with
        | none => simp
        | code type allowNull =>
            cases firstIsCode (engine.argInfo handle) <;> simp
        | className name allowNull =>
            have hname := isOptionsName_iff name
            cases engine.isClosure handle <;> simp [← hname]
  · rw [if_neg hargc, if_neg hargc, List.getElem?_eq_none (by omega)]
    simp

theorem fillArguments_injective (args : List Value) :
    Function.Injective (fillArguments args) := by
  intro sent sent' heq
  rw [fillArguments_eq, fillArguments_eq, List.append_cancel_left_eq] at heq
  cases sent <;> cases sent' <;> simp at heq <;> rfl

end PhpHandlebars
