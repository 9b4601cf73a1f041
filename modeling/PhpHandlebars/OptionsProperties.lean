import PhpHandlebars.EventRun
import PhpHandlebars.OptionsObject
import PhpHandlebars.PhpArray
import Mathlib.Tactic

/-!
# Options as an ordinary object

Under PHP 8, PHP code reads, checks, writes and unsets the properties of an
object whose VM is alive.  A property in the internal structure is written into
the table by the next read or check, over whatever PHP code has put there.
-/

namespace PhpHandlebars

inductive PropertyEvent where
  | read (member : Bytes)
  | isset (member : Bytes)
  | write (member : Bytes) (value : Zval)
  | unset (member : Bytes)

def PropertyEvent.member : PropertyEvent → Bytes
  | .read member => member
  | .isset member => member
  | .write member _ => member
  | .unset member => member

/-- A read, with what an ordinary object would answer. -/
structure ReadAnswer where
  member : Bytes
  value : Option Zval
  expected : Option Zval

/-- An object, what the VM gave it, and what PHP code has done to its
properties: nothing, unset them, or written them. -/
structure PropertyHistory (V : Type) where
  object : OptionsObject V
  vmValue : Bytes → Option Zval
  user : Bytes → Option (Option Zval)
  answers : List ReadAnswer

variable {V : Type} (toZval : V → Zval)

/-- A property the VM has no value for has its declared one. -/
def PropertyHistory.start (vm dtorCtx : ℕ) (options : HandlebarsOptions V) :
    PropertyHistory V where
  object := optionsCtor vm dtorCtx options
  vmValue := fun member => (heldValue toZval options member).or
    ((optionsObjCreate : OptionsObject V).properties member)
  user := fun _ => none
  answers := []

def PropertyHistory.expected (history : PropertyHistory V) (member : Bytes) :
    Option Zval :=
  (history.user member).getD (history.vmValue member)

def propertyStep (history : PropertyHistory V) :
    PropertyEvent → Option (PropertyHistory V)
  | .read member =>
      let read := readProperty .php8 toZval history.object member
      some { history with
        object := read.object
        answers := history.answers ++
          [⟨member, read.value, history.expected member⟩] }
  | .isset member =>
      some { history with
        object := (hasProperty .php8 toZval history.object member).1 }
  | .write member value =>
      some { history with
        object := history.object.stdWriteProperty member value
        user := Function.update history.user member (some (some value)) }
  | .unset member =>
      some { history with
        object := history.object.stdUnsetProperty member
        user := Function.update history.user member (some none) }

/-- A value which is still in the structure is read only before PHP code
touches the property, or when it is what PHP code has written there. -/
def SafeProperty (history : PropertyHistory V) : PropertyEvent → Prop
  | .read member | .isset member =>
      ∀ value ∈ heldValue toZval history.object.options member,
        ∀ written ∈ history.user member, written = some value
  | .write _ _ | .unset _ => True

structure PropertyInvariant (history : PropertyHistory V) : Prop where
  untouched : ∀ member, history.user member = none →
    propertyValue .php8 toZval history.object member = history.vmValue member
  touched : ∀ member written, history.user member = some written →
    history.object.properties member = written
  answers : ∀ answer ∈ history.answers, answer.value = answer.expected

theorem PropertyInvariant.start (vm dtorCtx : ℕ)
    (options : HandlebarsOptions V) :
    PropertyInvariant toZval (.start toZval vm dtorCtx options) where
  untouched := fun _ _ => propertyValue_of_own .php8 toZval rfl _
  touched := by simp [PropertyHistory.start]
  answers := by simp [PropertyHistory.start]

/-- Under the condition, a read finds what an ordinary object would have. -/
theorem PropertyInvariant.propertyValue_eq {history : PropertyHistory V}
    (hinv : PropertyInvariant toZval history) {member : Bytes}
    (hsafe : SafeProperty toZval history (.read member)) :
    propertyValue .php8 toZval history.object member =
      history.expected member := by
  unfold PropertyHistory.expected
  cases huser : history.user member with
  | none => exact hinv.untouched member huser
  | some written =>
      rw [Option.getD_some, propertyValue_of_own .php8 toZval rfl]
      cases hheld : heldValue toZval history.object.options member with
      | none => exact hinv.touched member written huser
      | some value => exact (hsafe value hheld written huser).symm

/-- A read, or what a check does to the object. -/
theorem PropertyInvariant.afterRead {history : PropertyHistory V}
    (hinv : PropertyInvariant toZval history) {member : Bytes}
    (hsafe : SafeProperty toZval history (.read member)) :
    PropertyInvariant toZval { history with
      object := (readProperty .php8 toZval history.object member).object } where
  untouched := by
    intro other huser
    rw [propertyValue_readProperty .php8 toZval history.object id]
    exact hinv.untouched other huser
  touched := by
    intro other written huser
    by_cases hne : other = member
    · subst other
      rw [readProperty_properties_self, hinv.propertyValue_eq toZval hsafe,
        PropertyHistory.expected, huser, Option.getD_some]
    · have hwritten : writtenProperty member .php8 ≠ other :=
        fun heq => hne heq.symm
      rw [readProperty_properties_of_ne .php8 toZval history.object hwritten]
      exact hinv.touched other written huser
  answers := hinv.answers

/-- A write, or an unset. -/
theorem PropertyInvariant.afterWrite {history : PropertyHistory V}
    (hinv : PropertyInvariant toZval history) (member : Bytes)
    (written : Option Zval) :
    PropertyInvariant toZval { history with
      object := { history.object with
        properties := Function.update history.object.properties member
          written }
      user := Function.update history.user member (some written) } where
  untouched := by
    intro other huser
    by_cases hne : other = member
    · subst other
      simp at huser
    · have hold : history.user other = none := by
        simpa [hne] using huser
      rw [← hinv.untouched other hold]
      simp only [propertyValue, Function.update_of_ne hne]
  touched := by
    intro other value huser
    by_cases hne : other = member
    · subst other
      simpa using huser
    · have hold : history.user other = some value := by
        simpa [hne] using huser
      simpa [hne] using hinv.touched other value hold
  answers := hinv.answers

theorem propertyStep_preserves (history : PropertyHistory V)
    (event : PropertyEvent) (next : PropertyHistory V)
    (hinv : PropertyInvariant toZval history)
    (hsafe : SafeProperty toZval history event)
    (hstep : propertyStep toZval history event = some next) :
    PropertyInvariant toZval next := by
  cases event with
  | read member =>
      obtain rfl := Option.some.inj hstep
      have hread := hinv.afterRead toZval hsafe
      refine ⟨hread.untouched, hread.touched, ?_⟩
      intro answer hanswer
      rcases List.mem_append.mp hanswer with hold | hnew
      · exact hinv.answers answer hold
      · obtain rfl := List.mem_singleton.mp hnew
        exact (readProperty_value .php8 toZval history.object member).trans
          (hinv.propertyValue_eq toZval hsafe)
  | isset member =>
      obtain rfl := Option.some.inj hstep
      exact hinv.afterRead toZval hsafe
  | write member value =>
      obtain rfl := Option.some.inj hstep
      exact hinv.afterWrite toZval member (some value)
  | unset member =>
      obtain rfl := Option.some.inj hstep
      exact hinv.afterWrite toZval member none

/-- What is done to one property does not show at another one. -/
theorem propertyStep_others {history next : PropertyHistory V}
    {event : PropertyEvent}
    (hstep : propertyStep toZval history event = some next) {other : Bytes}
    (hne : other ≠ event.member) :
    (readProperty .php8 toZval next.object other).value =
      (readProperty .php8 toZval history.object other).value := by
  rw [readProperty_value, readProperty_value]
  cases event with
  | read member =>
      obtain rfl := Option.some.inj hstep
      exact propertyValue_readProperty .php8 toZval history.object id
  | isset member =>
      obtain rfl := Option.some.inj hstep
      exact propertyValue_readProperty .php8 toZval history.object id
  | write member value =>
      obtain rfl := Option.some.inj hstep
      have hother : other ≠ member := hne
      simp only [propertyValue, OptionsObject.stdWriteProperty,
        Function.update_of_ne hother]
  | unset member =>
      obtain rfl := Option.some.inj hstep
      have hother : other ≠ member := hne
      simp only [propertyValue, OptionsObject.stdUnsetProperty,
        Function.update_of_ne hother]

/-- When no value is left in the structure behind the back of PHP code, every
read gives what was written last, or the VM's value, and properties do not
affect one another. -/
theorem options_read_as_written {vm dtorCtx : ℕ}
    {options : HandlebarsOptions V} {events : List PropertyEvent}
    {history : PropertyHistory V}
    (hsafe : EventRun.Allowed (propertyStep toZval) (SafeProperty toZval)
      (.start toZval vm dtorCtx options) events)
    (hrun : EventRun.run (propertyStep toZval)
      (.start toZval vm dtorCtx options) events = some history) :
    (∀ answer ∈ history.answers, answer.value = answer.expected) ∧
      ∀ event next, propertyStep toZval history event = some next →
        ∀ other, other ≠ event.member →
          (readProperty .php8 toZval next.object other).value =
            (readProperty .php8 toZval history.object other).value := by
  constructor
  · exact (EventRun.run_preserves (propertyStep_preserves toZval)
      (PropertyInvariant.start toZval vm dtorCtx options) hsafe hrun).answers
  · intro event next hstep other hne
    exact propertyStep_others toZval hstep hne

/-- The options of `{{#if}}`, as the VM passes them on. -/
def ifOptions : HandlebarsOptions Value :=
  { HandlebarsOptions.zero with name := some (ascii "if"), inverse := -1 }

def renamed : Zval :=
  .string (ascii "unless")

/-- The name is read before PHP code writes it. -/
def readThenWrite : List PropertyEvent :=
  [.read (ascii "name"), .write (ascii "name") renamed, .read (ascii "name")]

theorem readThenWrite_safe :
    EventRun.Allowed (propertyStep handlebarsValueToZval)
      (SafeProperty handlebarsValueToZval)
      (.start handlebarsValueToZval 0 0 ifOptions) readThenWrite := by
  refine ⟨?_, ?_⟩
  · intro _ _ written hwritten
    simp [PropertyHistory.start] at hwritten
  rintro _ ⟨rfl⟩
  refine ⟨trivial, ?_⟩
  rintro _ ⟨rfl⟩
  refine ⟨?_, ?_⟩
  · intro value hvalue
    change none = some value at hvalue
    simp at hvalue
  · rintro _ ⟨rfl⟩
    trivial

theorem readThenWrite_read_as_written :
    ∃ history, EventRun.run (propertyStep handlebarsValueToZval)
        (.start handlebarsValueToZval 0 0 ifOptions) readThenWrite =
          some history ∧
      (∀ answer ∈ history.answers, answer.value = answer.expected) ∧
      ∀ event next, propertyStep handlebarsValueToZval history event =
          some next →
        ∀ other, other ≠ event.member →
          (readProperty .php8 handlebarsValueToZval next.object other).value =
            (readProperty .php8 handlebarsValueToZval history.object
              other).value :=
  ⟨_, rfl, options_read_as_written handlebarsValueToZval readThenWrite_safe
    rfl⟩

/-- Written before it is read, the name is the VM's again. -/
theorem name_written_before_read :
    ∃ history, EventRun.run (propertyStep handlebarsValueToZval)
        (.start handlebarsValueToZval 0 0 ifOptions)
        [.write (ascii "name") renamed, .read (ascii "name")] =
          some history ∧
      ¬ ∀ answer ∈ history.answers, answer.value = answer.expected := by
  refine ⟨_, rfl, ?_⟩
  intro hanswers
  have hname := hanswers ⟨ascii "name", some (.string (ascii "if")),
    some renamed⟩ (List.mem_singleton_self _)
  have hbytes := Zval.string.inj (Option.some.inj hname)
  exact absurd hbytes (by decide)

end PhpHandlebars
