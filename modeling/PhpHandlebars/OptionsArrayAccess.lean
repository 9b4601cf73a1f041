import PhpHandlebars.EventRun
import PhpHandlebars.OptionsObject
import PhpHandlebars.PhpArray
import PhpHandlebars.ValueConversion
import Mathlib.Tactic

/-!
# Array access on Options

`offsetGet` and `offsetExists` read the property through the handlers of the
object.  `zend_read_property_ex` answers a missing property with a pointer to
a null, and `offsetExists` asks only whether there is a pointer.
-/

namespace PhpHandlebars

variable {V : Type} (version : PhpVersion) (toZval : V → Zval)

/-- `zend_bad_property_name` rejects names which begin with a NUL byte. -/
def badPropertyName (member : Bytes) : Bool :=
  member.head? = some 0

def OptionsObject.assign (object : OptionsObject V) (member : Bytes)
    (value : Zval) : OptionsObject V :=
  if badPropertyName member then object
  else object.stdWriteProperty member value

def OptionsObject.remove (object : OptionsObject V) (member : Bytes) :
    OptionsObject V :=
  if badPropertyName member then object else object.stdUnsetProperty member

def OptionsObject.assignBucket (object : OptionsObject V) :
    ArrayKey × Zval → OptionsObject V
  | (.string key, entry) => object.assign key entry
  | (.index _, _) => object

/-- `HandlebarsOptions::__construct`. -/
def optionsConstruct (object : OptionsObject V) (props : Option HashTable) :
    OptionsObject V :=
  let object := object.assign (ascii "fn") .null
  let object := object.assign (ascii "inverse") .null
  match props with
  | some ht => ht.foldl OptionsObject.assignBucket object
  | none => object

/-- Where an object comes from: `php_handlebars_options_ctor`, or PHP code. -/
inductive OptionsOrigin (V : Type) where
  | vm (number dtorCtx : ℕ) (options : HandlebarsOptions V)
  | user (props : Option HashTable)

def OptionsOrigin.object : OptionsOrigin V → OptionsObject V
  | .vm number dtorCtx options => optionsCtor number dtorCtx options
  | .user props => optionsConstruct optionsObjCreate props

/-! ## The methods -/

/-- `zend_read_property_ex`: behind a missing property there is
`EG(uninitialized_zval)`, never NULL. -/
def zendReadProperty (object : OptionsObject V) (member : Bytes) :
    OptionsObject V × Option Zval :=
  let read := readProperty version toZval object member
  (read.object, some (read.value.getD .null))

def offsetExists (object : OptionsObject V) (offset : Bytes) :
    OptionsObject V × Bool :=
  let (object, prop) := zendReadProperty version toZval object offset
  (object, prop ≠ none)

def offsetGet (object : OptionsObject V) (offset : Bytes) :
    OptionsObject V × Zval :=
  let (object, prop) := zendReadProperty version toZval object offset
  (object, (prop.getD .undef).deref)

def offsetSet (object : OptionsObject V) (_offset : Bytes) (_value : Zval) :
    OptionsObject V × Exception :=
  (object, .made .runtimeException "offsetSet is not implemented" (.other 0))

def offsetUnset (object : OptionsObject V) (_offset : Bytes) :
    OptionsObject V × Exception :=
  (object, .made .runtimeException "offsetUnset is not implemented" (.other 0))

/-- What the handler returns for `$options->member`.  A name which is missing
or bad gives a null beside a diagnostic, which is left out. -/
def propertyFetch (object : OptionsObject V) (member : Bytes) :
    OptionsObject V × Zval :=
  let read := readProperty version toZval object member
  (read.object, (read.value.getD .null).deref)

theorem offsetGet_eq (object : OptionsObject V) (key : Bytes) :
    offsetGet version toZval object key =
      propertyFetch version toZval object key := rfl

theorem offsetExists_answer (object : OptionsObject V) (key : Bytes) :
    (offsetExists version toZval object key).2 = true := by
  simp [offsetExists, zendReadProperty]

/-- There is a value for the property, in the table or still in the internal
structure, and it is not null. -/
def PropertyPresent (object : OptionsObject V) (member : Bytes) : Prop :=
  ∃ value, propertyValue version toZval object member = some value ∧
    value.resolve.zType ≠ .isNull

theorem hasProperty_iff (object : OptionsObject V) (member : Bytes) :
    (hasProperty version toZval object member).2 = true ↔
      PropertyPresent version toZval object member := by
  have hchecked : (hasProperty version toZval object member).2 =
      (propertyValue version toZval object member).any fun value =>
        value.resolve.zType ≠ .isNull := by
    rw [← readProperty_properties_self]
    rfl
  rw [hchecked, Option.any_eq_true]
  simp only [PropertyPresent, decide_eq_true_eq]

/-! ## Runs -/

inductive AccessEvent where
  | read (member : Bytes)
  | isset (member : Bytes)
  | write (member : Bytes) (value : Zval)
  | unset (member : Bytes)
  | construct (props : Option HashTable)
  | offsetGet (offset : Bytes)
  | offsetExists (offset : Bytes)
  | offsetSet (offset : Bytes) (value : Zval)
  | offsetUnset (offset : Bytes)
  /-- the VM is freed before the object -/
  | vmFreed

/-- What an array access has answered, and what the property access would
have. -/
inductive AccessAnswer where
  | value (got expected : Zval)
  | existence (got expected : Bool)

def AccessAnswer.Agrees : AccessAnswer → Prop
  | .value got expected => got = expected
  | .existence got expected => got = expected

structure AccessHistory (V : Type) where
  object : OptionsObject V
  answers : List AccessAnswer

def AccessHistory.start (origin : OptionsOrigin V) : AccessHistory V where
  object := origin.object
  answers := []

def AccessHistory.Agrees (history : AccessHistory V) : Prop :=
  ∀ answer ∈ history.answers, answer.Agrees

def accessStep (history : AccessHistory V) :
    AccessEvent → Option (AccessHistory V)
  | .read member =>
      some { history with
        object := (propertyFetch version toZval history.object member).1 }
  | .isset member =>
      some { history with
        object := (hasProperty version toZval history.object member).1 }
  | .write member value =>
      some { history with object := history.object.assign member value }
  | .unset member =>
      some { history with object := history.object.remove member }
  | .construct props =>
      some { history with object := optionsConstruct history.object props }
  | .offsetGet offset =>
      let got := offsetGet version toZval history.object offset
      let expected := propertyFetch version toZval history.object offset
      some ⟨got.1, history.answers ++ [.value got.2 expected.2]⟩
  | .offsetExists offset =>
      let got := offsetExists version toZval history.object offset
      let expected := hasProperty version toZval history.object offset
      some ⟨got.1, history.answers ++ [.existence got.2 expected.2]⟩
  | .offsetSet offset value =>
      some { history with
        object := (offsetSet history.object offset value).1 }
  | .offsetUnset offset =>
      some { history with object := (offsetUnset history.object offset).1 }
  | .vmFreed =>
      some { history with object := optionsDtorCtxDtor history.object }

/-- `offsetExists` is asked only for a property which is there. -/
def FindsProperty (history : AccessHistory V) : AccessEvent → Prop
  | .offsetExists offset => PropertyPresent version toZval history.object offset
  | _ => True

theorem agrees_append (history : AccessHistory V) (object : OptionsObject V)
    (answer : AccessAnswer) (hagrees : history.Agrees) :
    AccessHistory.Agrees ⟨object, history.answers ++ [answer]⟩ ↔
      answer.Agrees := by
  constructor
  · intro hall
    exact hall answer (List.mem_append_right _ (List.mem_singleton_self _))
  · intro hanswer other hother
    rcases List.mem_append.mp hother with hold | hnew
    · exact hagrees other hold
    · obtain rfl := List.mem_singleton.mp hnew
      exact hanswer

/-- One event keeps the two ways of access in agreement exactly when it finds
its property. -/
theorem accessStep_agrees (history : AccessHistory V) (event : AccessEvent)
    (hagrees : history.Agrees) :
    ∃ next, accessStep version toZval history event = some next ∧
      (next.Agrees ↔ FindsProperty version toZval history event) := by
  cases event with
  | offsetGet offset =>
      refine ⟨_, rfl, ?_⟩
      rw [agrees_append history _ _ hagrees, offsetGet_eq]
      exact iff_of_true rfl trivial
  | offsetExists offset =>
      refine ⟨_, rfl, ?_⟩
      rw [agrees_append history _ _ hagrees]
      change _ = _ ↔ PropertyPresent version toZval history.object offset
      rw [offsetExists_answer, eq_comm, hasProperty_iff]
  | _ => exact ⟨_, rfl, iff_of_true hagrees trivial⟩

/-- Through a whole run, the array accesses answer as the property accesses
exactly when no `offsetExists` meets a missing or null property. -/
theorem offsets_agree_iff (origin : OptionsOrigin V)
    (events : List AccessEvent) :
    EventRun.Throughout (accessStep version toZval) AccessHistory.Agrees
        (.start origin) events ↔
      EventRun.Allowed (accessStep version toZval)
        (FindsProperty version toZval) (.start origin) events := by
  apply EventRun.throughout_iff_allowed (accessStep_agrees version toZval)
  intro answer hanswer
  exact absurd hanswer List.not_mem_nil

/-- What the VM passes to a helper which is called without a hash. -/
def withoutHash : HandlebarsOptions Value :=
  { HandlebarsOptions.zero with name := some (ascii "link"), inverse := -1 }

/-- Neither the null hash nor the missing property is there, but both are
reported. -/
theorem offsetExists_reports_missing :
    (∀ key ∈ [ascii "hash", ascii "missing"],
      (offsetExists .php8 handlebarsValueToZval
          (optionsCtor 0 0 withoutHash) key).2 = true ∧
        (hasProperty .php8 handlebarsValueToZval
          (optionsCtor 0 0 withoutHash) key).2 = false) ∧
    ¬ EventRun.Throughout (accessStep .php8 handlebarsValueToZval)
      AccessHistory.Agrees (.start (.vm 0 0 withoutHash))
        [.offsetExists (ascii "hash")] := by
  constructor
  · simp only [List.mem_cons, List.not_mem_nil, or_false]
    rintro key (rfl | rfl)
    · exact ⟨rfl, rfl⟩
    · exact ⟨rfl, rfl⟩
  · intro hthroughout
    have hlast := hthroughout.2 _ rfl
    have hanswer := hlast (.existence true false) (List.mem_singleton_self _)
    simp [AccessAnswer.Agrees] at hanswer

end PhpHandlebars
