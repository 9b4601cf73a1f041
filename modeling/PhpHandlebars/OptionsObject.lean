import PhpHandlebars.Zval
import Mathlib.Logic.Function.Basic
import Mathlib.Tactic

/-!
# The Options object

What the VM passes to a helper stays in the internal structure of the object
until PHP code asks for it: the read handler of a property writes it into the
property table, and most of the handlers then forget it.  Writing and unsetting
a property are the standard handlers of PHP, which know nothing of the
structure.
-/

namespace PhpHandlebars

/-- `struct handlebars_options`; `V` stands for the values the last three
fields point to. -/
structure HandlebarsOptions (V : Type) where
  name : Option Bytes
  program : ℤ
  inverse : ℤ
  scope : Option V
  hash : Option V
  data : Option V

/-- `struct php_handlebars_options_obj` with its property table. -/
structure OptionsObject (V : Type) where
  options : HandlebarsOptions V
  vm : Option ℕ
  dtorCtx : Option ℕ
  properties : Bytes → Option Zval

/-- `handlebars_value_to_zval` and `handlebars_value_dtor` on a value. -/
inductive ValueUse (V : Type) where
  | read (value : V)
  | destroy (value : V)

structure PropertyRead (V : Type) where
  object : OptionsObject V
  value : Option Zval
  uses : List (ValueUse V)

variable {V : Type}

def declaredProperties : List Bytes :=
  ["name", "hash", "fn", "inverse", "scope", "data", "ids", "hashIds",
    "hashTypes", "hashContexts", "types", "contexts", "args",
    "partial"].map ascii

/-- The structure after `memset` to zero. -/
def HandlebarsOptions.zero : HandlebarsOptions V where
  name := none
  program := 0
  inverse := 0
  scope := none
  hash := none
  data := none

/-- `php_handlebars_options_obj_create`. -/
def optionsObjCreate : OptionsObject V where
  options := { HandlebarsOptions.zero with program := -1, inverse := -1 }
  vm := none
  dtorCtx := none
  properties := fun member =>
    if member ∈ declaredProperties then some .null else none

/-- `php_handlebars_options_ctor`, with the values already copied. -/
def optionsCtor (vm dtorCtx : ℕ) (options : HandlebarsOptions V) :
    OptionsObject V :=
  { (optionsObjCreate : OptionsObject V) with
    options := options, vm := some vm, dtorCtx := some dtorCtx }

/-- `options_dtor_ctx_dtor`. -/
def optionsDtorCtxDtor (object : OptionsObject V) : OptionsObject V :=
  { object with options := .zero, vm := none, dtorCtx := none }

/-! ## Property handlers -/

/-- What sets one read handler apart from another: the property its PHP 7
branch names, the value it would write, what it leaves of the structure, and
what it does to the value. -/
structure PropHandler (V : Type) where
  interned : Bytes
  held : HandlebarsOptions V → Option Zval
  cleared : HandlebarsOptions V → HandlebarsOptions V
  uses : HandlebarsOptions V → List (ValueUse V)

def OptionsObject.stdReadProperty (object : OptionsObject V)
    (member : Bytes) : PropertyRead V :=
  ⟨object, object.properties member, []⟩

def OptionsObject.stdWriteProperty (object : OptionsObject V)
    (member : Bytes) (value : Zval) : OptionsObject V :=
  { object with
    properties := Function.update object.properties member (some value) }

def OptionsObject.stdUnsetProperty (object : OptionsObject V)
    (member : Bytes) : OptionsObject V :=
  { object with properties := Function.update object.properties member none }

/-- The property which is written: the one which is asked for under PHP 8, the
handler's own one under PHP 7. -/
def PropHandler.writes (handler : PropHandler V) (member : Bytes) :
    PhpVersion → Bytes
  | .php8 => member
  | .php7 => handler.interned

def PropHandler.readProperty (handler : PropHandler V) (version : PhpVersion)
    (object : OptionsObject V) (member : Bytes) : PropertyRead V :=
  match handler.held object.options with
  | some value =>
      let written :=
        object.stdWriteProperty (handler.writes member version) value
      { ({ written with options := handler.cleared object.options }
          : OptionsObject V).stdReadProperty member with
        uses := handler.uses object.options }
  | none => object.stdReadProperty member

/-- The value is converted, written, and destroyed. -/
def useOnce (value : Option V) : List (ValueUse V) :=
  value.toList.flatMap fun value => [.read value, .destroy value]

def hbsReadName : PropHandler V where
  interned := ascii "name"
  held := fun options => options.name.map .string
  cleared := fun options => { options with name := none }
  uses := fun _ => []

/-- The branch for PHP 7 writes `fn`, and reads `program` then. -/
def hbsReadProgram : PropHandler V where
  interned := ascii "fn"
  held := fun options =>
    if 0 ≤ options.program then some (.long options.program) else none
  cleared := fun options => options
  uses := fun _ => []

def hbsReadInverse : PropHandler V where
  interned := ascii "inverse"
  held := fun options =>
    if 0 ≤ options.inverse then some (.long options.inverse) else none
  cleared := fun options => options
  uses := fun _ => []

variable (version : PhpVersion) (toZval : V → Zval)

def hbsReadScope : PropHandler V where
  interned := ascii "scope"
  held := fun options => options.scope.map toZval
  cleared := fun options => { options with scope := none }
  uses := fun options => useOnce options.scope

def hbsReadHash : PropHandler V where
  interned := ascii "hash"
  held := fun options => options.hash.map toZval
  cleared := fun options => { options with hash := none }
  uses := fun options => useOnce options.hash

def hbsReadData : PropHandler V where
  interned := ascii "data"
  held := fun options => options.data.map toZval
  cleared := fun options => { options with data := none }
  uses := fun options => useOnce options.data

/-- `HandlebarsOptions_prop_handlers`. -/
def propHandlers : List (Bytes × PropHandler V) :=
  [(ascii "name", hbsReadName),
    (ascii "program", hbsReadProgram),
    (ascii "inverse", hbsReadInverse),
    (ascii "scope", hbsReadScope toZval),
    (ascii "hash", hbsReadHash toZval),
    (ascii "data", hbsReadData toZval)]

def findPropHandler (member : Bytes) : Option (PropHandler V) :=
  ((propHandlers toZval).find? fun entry => entry.1 = member).map Prod.snd

def readProperty (object : OptionsObject V) (member : Bytes) :
    PropertyRead V :=
  match findPropHandler toZval member with
  | some handler => handler.readProperty version object member
  | none => object.stdReadProperty member

/-- The property is read before it is asked for. -/
def hasProperty (object : OptionsObject V) (member : Bytes) :
    OptionsObject V × Bool :=
  let read := readProperty version toZval object member
  (read.object, (read.object.properties member).any fun value =>
    value.resolve.zType ≠ .isNull)

/-! ## What a read does -/

/-- The value of a property which is still in the internal structure. -/
def heldValue (options : HandlebarsOptions V) (member : Bytes) :
    Option Zval :=
  (findPropHandler toZval member).bind fun handler => handler.held options

def clearedOptions (options : HandlebarsOptions V) (member : Bytes) :
    HandlebarsOptions V :=
  (findPropHandler toZval member).elim options fun handler =>
    handler.cleared options

/-- The property a read of `member` writes to, when it writes. -/
def writtenProperty (member : Bytes) : PhpVersion → Bytes
  | .php8 => member
  | .php7 => if member = ascii "program" then ascii "fn" else member

/-- `fn` is the only property which is written for another one. -/
theorem eq_of_writtenProperty {member other : Bytes}
    (hfn : other ≠ ascii "fn")
    (hwritten : writtenProperty member version = other) : member = other := by
  cases version with
  | php8 => exact hwritten
  | php7 =>
      by_cases hprogram : member = ascii "program"
      · rw [writtenProperty, if_pos hprogram] at hwritten
        exact absurd hwritten.symm hfn
      · rwa [writtenProperty, if_neg hprogram] at hwritten

theorem findPropHandler_cases (member : Bytes) :
    findPropHandler toZval member = none ∨
    (member = ascii "name" ∧
      findPropHandler toZval member = some hbsReadName) ∨
    (member = ascii "program" ∧
      findPropHandler toZval member = some hbsReadProgram) ∨
    (member = ascii "inverse" ∧
      findPropHandler toZval member = some hbsReadInverse) ∨
    (member = ascii "scope" ∧
      findPropHandler toZval member = some (hbsReadScope toZval)) ∨
    (member = ascii "hash" ∧
      findPropHandler toZval member = some (hbsReadHash toZval)) ∨
    (member = ascii "data" ∧
      findPropHandler toZval member = some (hbsReadData toZval)) := by
  by_cases hmem : member ∈ ["name", "program", "inverse", "scope", "hash",
      "data"].map ascii
  · right
    simp only [List.map_cons, List.map_nil, List.mem_cons,
      List.not_mem_nil, or_false] at hmem
    rcases hmem with rfl | rfl | rfl | rfl | rfl | rfl
    · exact .inl ⟨rfl, rfl⟩
    · exact .inr (.inl ⟨rfl, rfl⟩)
    · exact .inr (.inr (.inl ⟨rfl, rfl⟩))
    · exact .inr (.inr (.inr (.inl ⟨rfl, rfl⟩)))
    · exact .inr (.inr (.inr (.inr (.inl ⟨rfl, rfl⟩))))
    · exact .inr (.inr (.inr (.inr (.inr ⟨rfl, rfl⟩))))
  · left
    simp only [List.map_cons, List.map_nil, List.mem_cons,
      List.not_mem_nil, or_false, not_or] at hmem
    simp [findPropHandler, propHandlers, eq_comm, hmem]

theorem findPropHandler_writes {member : Bytes} {handler : PropHandler V}
    (hfind : findPropHandler toZval member = some handler) :
    handler.writes member version = writtenProperty member version := by
  cases version with
  | php8 => rfl
  | php7 =>
      rcases findPropHandler_cases toZval member with hcase | ⟨rfl, hcase⟩ |
        ⟨rfl, hcase⟩ | ⟨rfl, hcase⟩ | ⟨rfl, hcase⟩ | ⟨rfl, hcase⟩ |
        ⟨rfl, hcase⟩ <;> rw [hcase] at hfind
      · simp at hfind
      all_goals
        obtain rfl := Option.some.inj hfind
        rfl

theorem readProperty_of_held {object : OptionsObject V} {member : Bytes}
    {value : Zval}
    (hheld : heldValue toZval object.options member = some value) :
    (readProperty version toZval object member).object =
      { object.stdWriteProperty (writtenProperty member version) value with
        options := clearedOptions toZval object.options member } := by
  obtain ⟨handler, hfind, hvalue⟩ := Option.bind_eq_some_iff.mp hheld
  simp [readProperty, clearedOptions, hfind, PropHandler.readProperty, hvalue,
    OptionsObject.stdReadProperty, OptionsObject.stdWriteProperty,
    findPropHandler_writes version toZval hfind]

theorem readProperty_of_not_held {object : OptionsObject V} {member : Bytes}
    (hheld : heldValue toZval object.options member = none) :
    readProperty version toZval object member =
      object.stdReadProperty member := by
  unfold heldValue at hheld
  unfold readProperty
  cases hfind : findPropHandler toZval member with
  | none => rfl
  | some handler =>
      simp only [hfind, Option.bind_some] at hheld
      simp [PropHandler.readProperty, hheld]

/-- A read ends with the standard handler. -/
theorem readProperty_value_eq (object : OptionsObject V) (member : Bytes) :
    (readProperty version toZval object member).value =
      (readProperty version toZval object member).object.properties
        member := by
  unfold readProperty
  cases findPropHandler toZval member with
  | none => rfl
  | some handler =>
      dsimp only [PropHandler.readProperty]
      split <;> rfl

/-- A handler forgets nothing but its own property. -/
theorem heldValue_cleared_of_ne (options : HandlebarsOptions V)
    {member other : Bytes} (hne : other ≠ member) :
    heldValue toZval (clearedOptions toZval options member) other =
      heldValue toZval options other := by
  unfold heldValue clearedOptions
  rcases findPropHandler_cases toZval member with hfind | ⟨rfl, hfind⟩ |
    ⟨rfl, hfind⟩ | ⟨rfl, hfind⟩ | ⟨rfl, hfind⟩ | ⟨rfl, hfind⟩ |
    ⟨rfl, hfind⟩ <;>
    rcases findPropHandler_cases toZval other with hother | ⟨rfl, hother⟩ |
      ⟨rfl, hother⟩ | ⟨rfl, hother⟩ | ⟨rfl, hother⟩ | ⟨rfl, hother⟩ |
      ⟨rfl, hother⟩ <;>
    first
    | rw [hfind, hother]; rfl
    | exact absurd rfl hne

/-- A handler which does not forget its property would write the same value
again. -/
theorem heldValue_cleared (options : HandlebarsOptions V) (member : Bytes) :
    heldValue toZval (clearedOptions toZval options member) member = none ∨
      clearedOptions toZval options member = options := by
  unfold heldValue clearedOptions
  rcases findPropHandler_cases toZval member with hfind | ⟨rfl, hfind⟩ |
    ⟨rfl, hfind⟩ | ⟨rfl, hfind⟩ | ⟨rfl, hfind⟩ | ⟨rfl, hfind⟩ |
    ⟨rfl, hfind⟩ <;> rw [hfind]
  · exact .inr rfl
  · exact .inl rfl
  · exact .inr rfl
  · exact .inr rfl
  · exact .inl rfl
  · exact .inl rfl
  · exact .inl rfl

/-- What a read of a property gives: the value in the structure, when the
handler writes it where it reads afterwards. -/
def propertyValue (object : OptionsObject V) (member : Bytes) : Option Zval :=
  if writtenProperty member version = member then
    (heldValue toZval object.options member).or (object.properties member)
  else object.properties member

theorem propertyValue_of_own {member : Bytes}
    (hown : writtenProperty member version = member)
    (object : OptionsObject V) :
    propertyValue version toZval object member =
      (heldValue toZval object.options member).or
        (object.properties member) :=
  if_pos hown

theorem propertyValue_of_other {member : Bytes}
    (hother : writtenProperty member version ≠ member)
    (object : OptionsObject V) :
    propertyValue version toZval object member = object.properties member :=
  if_neg hother

/-- After a read the property table holds what was read. -/
theorem readProperty_properties_self (object : OptionsObject V)
    (member : Bytes) :
    (readProperty version toZval object member).object.properties member =
      propertyValue version toZval object member := by
  unfold propertyValue
  cases hheld : heldValue toZval object.options member with
  | none =>
      rw [readProperty_of_not_held version toZval hheld, Option.none_or,
        ite_self]
      rfl
  | some value =>
      rw [readProperty_of_held version toZval hheld, Option.some_or]
      split
      next hown => simp [OptionsObject.stdWriteProperty, hown]
      next hother =>
        simp [OptionsObject.stdWriteProperty, Ne.symm hother]

theorem readProperty_value (object : OptionsObject V) (member : Bytes) :
    (readProperty version toZval object member).value =
      propertyValue version toZval object member := by
  rw [readProperty_value_eq, readProperty_properties_self]

theorem readProperty_properties_of_ne (object : OptionsObject V)
    {member other : Bytes} (hne : writtenProperty member version ≠ other) :
    (readProperty version toZval object member).object.properties other =
      object.properties other := by
  cases hheld : heldValue toZval object.options member with
  | none => rw [readProperty_of_not_held version toZval hheld]; rfl
  | some value =>
      rw [readProperty_of_held version toZval hheld]
      simp [OptionsObject.stdWriteProperty, hne.symm]

/-- A read leaves the structure as it is or forgets the property. -/
theorem readProperty_options (object : OptionsObject V) (member : Bytes) :
    (readProperty version toZval object member).object.options =
        object.options ∨
      (readProperty version toZval object member).object.options =
        clearedOptions toZval object.options member := by
  cases hheld : heldValue toZval object.options member with
  | none =>
      left
      rw [readProperty_of_not_held version toZval hheld]
      rfl
  | some value =>
      right
      rw [readProperty_of_held version toZval hheld]

theorem readProperty_held_of_ne (object : OptionsObject V)
    {member other : Bytes} (hne : other ≠ member) :
    heldValue toZval (readProperty version toZval object member).object.options
        other = heldValue toZval object.options other := by
  rcases readProperty_options version toZval object member with heq | heq
  · rw [heq]
  · rw [heq, heldValue_cleared_of_ne toZval object.options hne]

theorem readProperty_held_self (object : OptionsObject V) (member : Bytes) :
    heldValue toZval (readProperty version toZval object member).object.options
        member = none ∨
      heldValue toZval
          (readProperty version toZval object member).object.options member =
        heldValue toZval object.options member := by
  rcases readProperty_options version toZval object member with heq | heq
  · exact .inr (by rw [heq])
  · rcases heldValue_cleared toZval object.options member with hnone | hsame
    · exact .inl (by rw [heq, hnone])
    · exact .inr (by rw [heq, hsame])

theorem propertyValue_readProperty_self (object : OptionsObject V)
    (member : Bytes) :
    propertyValue version toZval
        (readProperty version toZval object member).object member =
      propertyValue version toZval object member := by
  have hwritten := readProperty_properties_self version toZval object member
  by_cases hown : writtenProperty member version = member
  · rw [propertyValue_of_own version toZval hown, hwritten]
    rcases readProperty_held_self version toZval object member with
      hnone | hsame
    · rw [hnone, Option.none_or]
    · rw [hsame, propertyValue_of_own version toZval hown, ← Option.or_assoc,
        Option.or_self]
  · rw [propertyValue_of_other version toZval hown, hwritten]

/-- Reading a property does not change what a read of another one gives, but
for the one it writes to. -/
theorem propertyValue_readProperty (object : OptionsObject V)
    {member other : Bytes}
    (hown : writtenProperty member version = other → member = other) :
    propertyValue version toZval
        (readProperty version toZval object member).object other =
      propertyValue version toZval object other := by
  by_cases hne : member = other
  · subst other
    exact propertyValue_readProperty_self version toZval object member
  · have hother : other ≠ member := fun heq => hne heq.symm
    have hwritten : writtenProperty member version ≠ other :=
      fun heq => hne (hown heq)
    rw [propertyValue, readProperty_held_of_ne version toZval object hother,
      readProperty_properties_of_ne version toZval object hwritten,
      propertyValue]

end PhpHandlebars
