import PhpHandlebars.OptionsObject
import PhpHandlebars.PhpArray
import Mathlib.Tactic

/-!
# Options objects which outlive their VM

The destructor of the VM's side fills the internal structure with zeros.  That
is NULL for the properties which are pointers, but a program number for the two
which are not.  Under PHP 7 a read of `program` writes `fn`, and finds no
program number at any time.
-/

namespace PhpHandlebars

variable {V : Type} (version : PhpVersion) (toZval : V → Zval)

/-- The value of a read: PHP gives null, with a warning, for a property which
is not there. -/
def readResult (object : OptionsObject V) (member : Bytes) : Zval :=
  (readProperty version toZval object member).value.getD .null

def readAll (object : OptionsObject V) (members : List Bytes) :
    OptionsObject V :=
  members.foldl (fun object member =>
    (readProperty version toZval object member).object) object

/-- A read after the teardown gives what a read before it gave; when there was
none, what a read just before it would have given, or null. -/
structure ReadsLikeBefore (created : OptionsObject V)
    (before earlier : List Bytes) (member : Bytes) : Prop where
  repeated : ∀ previous later, before = previous ++ member :: later →
    readResult version toZval (readAll version toZval
      (optionsDtorCtxDtor (readAll version toZval created before)) earlier)
        member =
      readResult version toZval (readAll version toZval created previous) member
  fresh : member ∉ before →
    readResult version toZval (readAll version toZval
      (optionsDtorCtxDtor (readAll version toZval created before)) earlier)
          member =
        readResult version toZval (readAll version toZval created before)
          member ∨
      readResult version toZval (readAll version toZval
        (optionsDtorCtxDtor (readAll version toZval created before)) earlier)
          member = .null

/-- The properties which have a read handler. -/
def handledProperties : List Bytes :=
  ["name", "program", "inverse", "scope", "hash", "data"].map ascii

def KeepsItsMind (created : OptionsObject V) (before after : List Bytes) :
    Prop :=
  ∀ earlier, ∀ member ∈ handledProperties, ∀ later,
    after = earlier ++ member :: later →
      ReadsLikeBefore version toZval created before earlier member

theorem handledProperties_ne_fn {member : Bytes}
    (hmember : member ∈ handledProperties) : member ≠ ascii "fn" := by
  rintro rfl
  exact absurd hmember (by decide)

theorem readAll_cons (object : OptionsObject V) (member : Bytes)
    (members : List Bytes) :
    readAll version toZval object (member :: members) =
      readAll version toZval (readProperty version toZval object member).object
        members := rfl

theorem propertyValue_readAll (object : OptionsObject V)
    (members : List Bytes) {member : Bytes} (hfn : member ≠ ascii "fn") :
    propertyValue version toZval (readAll version toZval object members)
        member = propertyValue version toZval object member := by
  induction members generalizing object with
  | nil => rfl
  | cons first rest ih =>
      rw [readAll_cons, ih, propertyValue_readProperty version toZval object
        (eq_of_writtenProperty version hfn)]

theorem readResult_eq (object : OptionsObject V) (member : Bytes) :
    readResult version toZval object member =
      (propertyValue version toZval object member).getD .null := by
  rw [readResult, readProperty_value]

theorem readResult_readAll (object : OptionsObject V)
    (members : List Bytes) {member : Bytes} (hfn : member ≠ ascii "fn") :
    readResult version toZval (readAll version toZval object members) member =
      readResult version toZval object member := by
  rw [readResult_eq, readResult_eq, propertyValue_readAll version toZval object
    members hfn]

/-- Once read, a property stays in the table. -/
theorem readAll_properties_settled {object : OptionsObject V} {member : Bytes}
    (hfn : member ≠ ascii "fn")
    (hsettled : object.properties member =
      propertyValue version toZval object member) (members : List Bytes) :
    (readAll version toZval object members).properties member =
      propertyValue version toZval object member := by
  induction members generalizing object with
  | nil => exact hsettled
  | cons first rest ih =>
      have hwrites : writtenProperty first version = member →
          first = member := eq_of_writtenProperty version hfn
      have hvalue :=
        propertyValue_readProperty version toZval object hwrites
      rw [readAll_cons, ih, hvalue]
      rw [hvalue]
      by_cases hwritten : writtenProperty first version = member
      · obtain rfl := eq_of_writtenProperty version hfn hwritten
        exact readProperty_properties_self version toZval object first
      · rw [readProperty_properties_of_ne version toZval object hwritten,
          hsettled]

theorem readAll_properties_of_mem {members : List Bytes} {member : Bytes}
    (hfn : member ≠ ascii "fn") (hmem : member ∈ members)
    (object : OptionsObject V) :
    (readAll version toZval object members).properties member =
      propertyValue version toZval object member := by
  induction members generalizing object with
  | nil => simp at hmem
  | cons first rest ih =>
      have hwrites : writtenProperty first version = member →
          first = member := eq_of_writtenProperty version hfn
      have hvalue :=
        propertyValue_readProperty version toZval object hwrites
      rw [readAll_cons]
      rcases List.mem_cons.mp hmem with rfl | hrest
      · rw [readAll_properties_settled version toZval hfn, hvalue]
        rw [readProperty_properties_self, hvalue]
      · rw [ih hrest, hvalue]

theorem readAll_properties_of_not_mem {members : List Bytes} {member : Bytes}
    (hfn : member ≠ ascii "fn") (hmem : member ∉ members)
    (object : OptionsObject V) :
    (readAll version toZval object members).properties member =
      object.properties member := by
  induction members generalizing object with
  | nil => rfl
  | cons first rest ih =>
      rw [List.mem_cons, not_or] at hmem
      have hwritten : writtenProperty first version ≠ member := fun heq =>
        hmem.1 (eq_of_writtenProperty version hfn heq).symm
      rw [readAll_cons, ih hmem.2,
        readProperty_properties_of_ne version toZval object hwritten]

/-! ## After the teardown -/

theorem heldValue_program (options : HandlebarsOptions V) :
    heldValue toZval options (ascii "program") =
      if 0 ≤ options.program then some (.long options.program) else none := rfl

theorem heldValue_inverse (options : HandlebarsOptions V) :
    heldValue toZval options (ascii "inverse") =
      if 0 ≤ options.inverse then some (.long options.inverse) else none := rfl

theorem heldValue_zero_of_ne {member : Bytes}
    (hprogram : member ≠ ascii "program")
    (hinverse : member ≠ ascii "inverse") :
    heldValue toZval .zero member = none := by
  unfold heldValue
  rcases findPropHandler_cases toZval member with hfind | ⟨rfl, hfind⟩ |
    ⟨rfl, hfind⟩ | ⟨rfl, hfind⟩ | ⟨rfl, hfind⟩ | ⟨rfl, hfind⟩ |
    ⟨rfl, hfind⟩ <;> rw [hfind]
  · rfl
  · rfl
  · exact absurd rfl hprogram
  · exact absurd rfl hinverse
  · rfl
  · rfl
  · rfl

theorem optionsCtor_properties (vm dtorCtx : ℕ)
    (options : HandlebarsOptions V) (member : Bytes) :
    ((optionsCtor vm dtorCtx options).properties member).getD .null =
      .null := by
  by_cases hdeclared : member ∈ declaredProperties <;>
    simp [optionsCtor, optionsObjCreate, hdeclared]

/-- What a read of a torn down object gives does not depend on the reads since
the teardown. -/
theorem late_readResult (created : OptionsObject V)
    (before earlier : List Bytes) {member : Bytes}
    (hfn : member ≠ ascii "fn") :
    readResult version toZval (readAll version toZval
        (optionsDtorCtxDtor (readAll version toZval created before)) earlier)
          member =
      (propertyValue version toZval
        (optionsDtorCtxDtor (readAll version toZval created before))
          member).getD .null := by
  rw [readResult_readAll version toZval _ _ hfn, readResult_eq]

theorem readsLikeBefore_of_late_eq {created : OptionsObject V}
    {before earlier : List Bytes} {member : Bytes}
    (hfn : member ≠ ascii "fn")
    (heq : readResult version toZval (readAll version toZval
        (optionsDtorCtxDtor (readAll version toZval created before)) earlier)
          member =
      readResult version toZval created member) :
    ReadsLikeBefore version toZval created before earlier member where
  repeated := by
    intro previous later _
    rw [heq, readResult_readAll version toZval _ _ hfn]
  fresh := by
    intro _
    rw [heq, readResult_readAll version toZval _ _ hfn]
    exact .inl rfl

/-- A property which a read after the teardown finds in the table: a pointer in
the structure, or what PHP 7 writes to another property. -/
theorem readsLikeBefore_of_table (vm dtorCtx : ℕ)
    (options : HandlebarsOptions V) (before earlier : List Bytes)
    {member : Bytes} (hfn : member ≠ ascii "fn")
    (htable : ∀ object : OptionsObject V,
      propertyValue version toZval (optionsDtorCtxDtor object) member =
        object.properties member) :
    ReadsLikeBefore version toZval (optionsCtor vm dtorCtx options) before
      earlier member := by
  have hlate := late_readResult version toZval
    (optionsCtor vm dtorCtx options) before earlier hfn
  rw [htable] at hlate
  by_cases hmem : member ∈ before
  · apply readsLikeBefore_of_late_eq version toZval hfn
    rw [hlate, readAll_properties_of_mem version toZval hfn hmem,
      readResult_eq]
  · rw [readAll_properties_of_not_mem version toZval hfn hmem,
      optionsCtor_properties] at hlate
    refine ⟨?_, fun _ => .inr hlate⟩
    rintro previous later rfl
    simp at hmem

/-- A property which is a number in the structure. -/
theorem readsLikeBefore_number_iff {vm dtorCtx : ℕ}
    {options : HandlebarsOptions V} {member : Bytes} {number : ℤ}
    (hfn : member ≠ ascii "fn")
    (hown : writtenProperty member version = member)
    (hheld : heldValue toZval options member =
      if 0 ≤ number then some (.long number) else none)
    (hzero : heldValue toZval .zero member = some (.long 0))
    (before earlier : List Bytes) :
    ReadsLikeBefore version toZval (optionsCtor vm dtorCtx options) before
      earlier member ↔ number = 0 := by
  have hlate := late_readResult version toZval
    (optionsCtor vm dtorCtx options) before earlier hfn
  rw [propertyValue_of_own version toZval hown] at hlate
  change _ = ((heldValue toZval .zero member).or _).getD .null at hlate
  rw [hzero, Option.some_or, Option.getD_some] at hlate
  have hcreated : readResult version toZval (optionsCtor vm dtorCtx options)
      member = if 0 ≤ number then .long number else .null := by
    rw [readResult_eq, propertyValue_of_own version toZval hown]
    change ((heldValue toZval options member).or _).getD .null = _
    rw [hheld]
    split
    · rfl
    · rw [Option.none_or, optionsCtor_properties]
  constructor
  · intro hreads
    have heq : Zval.long 0 = readResult version toZval
        (optionsCtor vm dtorCtx options) member := by
      by_cases hmem : member ∈ before
      · obtain ⟨previous, later, hsplit⟩ := List.append_of_mem hmem
        rw [← hlate, hreads.repeated previous later hsplit,
          readResult_readAll version toZval _ _ hfn]
      · rcases hreads.fresh hmem with heq | hnull
        · rw [← hlate, heq, readResult_readAll version toZval _ _ hfn]
        · rw [hlate] at hnull
          simp at hnull
    rw [hcreated] at heq
    split at heq
    · exact (Zval.long.inj heq).symm
    · simp at heq
  · rintro rfl
    apply readsLikeBefore_of_late_eq version toZval hfn
    rw [hlate, hcreated, if_pos le_rfl]

theorem propertyValue_torn_of_pointer {member : Bytes}
    (hzero : heldValue toZval .zero member = none) (object : OptionsObject V) :
    propertyValue version toZval (optionsDtorCtxDtor object) member =
      object.properties member := by
  unfold propertyValue
  change (if _ then (heldValue toZval .zero member).or _ else _) = _
  rw [hzero, Option.none_or, ite_self]
  rfl

theorem readsLikeBefore_program_iff (vm dtorCtx : ℕ)
    (options : HandlebarsOptions V) (before earlier : List Bytes) :
    ReadsLikeBefore version toZval (optionsCtor vm dtorCtx options) before
        earlier (ascii "program") ↔
      (version = .php8 → options.program = 0) := by
  have hfn : ascii "program" ≠ ascii "fn" := by decide
  cases version with
  | php8 =>
      rw [readsLikeBefore_number_iff .php8 toZval hfn rfl
        (heldValue_program toZval options) rfl]
      simp
  | php7 =>
      simp only [reduceCtorEq, false_implies, iff_true]
      apply readsLikeBefore_of_table .php7 toZval vm dtorCtx options before
        earlier hfn
      have hother : writtenProperty (ascii "program") .php7 ≠
          ascii "program" := by decide
      intro object
      exact propertyValue_of_other .php7 toZval hother _

theorem readsLikeBefore_iff (vm dtorCtx : ℕ) (options : HandlebarsOptions V)
    (before earlier : List Bytes) {member : Bytes}
    (hfn : member ≠ ascii "fn") :
    ReadsLikeBefore version toZval (optionsCtor vm dtorCtx options) before
        earlier member ↔
      (member = ascii "program" → version = .php8 → options.program = 0) ∧
        (member = ascii "inverse" → options.inverse = 0) := by
  have hdifferent : ascii "program" ≠ ascii "inverse" := by decide
  by_cases hprogram : member = ascii "program"
  · subst hprogram
    rw [readsLikeBefore_program_iff]
    simp [hdifferent]
  · have hown : writtenProperty member version = member := by
      cases version with
      | php8 => rfl
      | php7 => exact if_neg hprogram
    by_cases hinverse : member = ascii "inverse"
    · subst hinverse
      rw [readsLikeBefore_number_iff version toZval hfn hown
        (heldValue_inverse toZval options) rfl]
      simp [hdifferent.symm]
    · simp only [hprogram, hinverse, false_implies, and_self, iff_true]
      apply readsLikeBefore_of_table version toZval vm dtorCtx options before
        earlier hfn
      exact propertyValue_torn_of_pointer version toZval
        (heldValue_zero_of_ne toZval hprogram hinverse)

/-- An object does not change its mind exactly when its numbers are zero or
are not asked for after the teardown; under PHP 7 a read of `program` gives no
number at any time. -/
theorem keepsItsMind_iff (vm dtorCtx : ℕ) (options : HandlebarsOptions V)
    (before after : List Bytes) :
    KeepsItsMind version toZval (optionsCtor vm dtorCtx options) before after ↔
      (ascii "program" ∈ after → version = .php8 → options.program = 0) ∧
        (ascii "inverse" ∈ after → options.inverse = 0) := by
  unfold KeepsItsMind
  constructor
  · intro hreads
    constructor
    · intro hmem
      obtain ⟨earlier, later, hsplit⟩ := List.append_of_mem hmem
      have hprogram := hreads earlier _ (by decide) later hsplit
      rw [readsLikeBefore_iff version toZval _ _ _ _ _ (by decide)] at hprogram
      exact hprogram.1 rfl
    · intro hmem
      obtain ⟨earlier, later, hsplit⟩ := List.append_of_mem hmem
      have hinverse := hreads earlier _ (by decide) later hsplit
      rw [readsLikeBefore_iff version toZval _ _ _ _ _ (by decide)] at hinverse
      exact hinverse.2 rfl
  · rintro hzero earlier member hmember later rfl
    rw [readsLikeBefore_iff version toZval _ _ _ _ _
      (handledProperties_ne_fn hmember)]
    constructor
    · rintro rfl
      exact hzero.1 (by simp)
    · rintro rfl
      exact hzero.2 (by simp)

/-- A block without an `else`: there is no inverse program, until the VM is
gone. -/
theorem absent_inverse_becomes_zero :
    ¬ KeepsItsMind .php8 handlebarsValueToZval
      (optionsCtor 0 0 { HandlebarsOptions.zero with inverse := -1 }) []
      [ascii "inverse"] := by
  intro hkeeps
  have hreads := hkeeps [] (ascii "inverse") (by decide) [] rfl
  rw [readsLikeBefore_iff _ _ _ _ _ _ _ (by decide)] at hreads
  have hzero : (-1 : ℤ) = 0 := hreads.2 rfl
  omega

end PhpHandlebars
