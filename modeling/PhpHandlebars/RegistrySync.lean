import PhpHandlebars.EventRun
import PhpHandlebars.PhpArray
import PhpHandlebars.ValueConversion
import Mathlib.Tactic

/-!
# The registries of a VM object

Helpers and partials are kept twice: as values of the library, which `render`
hands to the VM, and as the properties which the getters read.  A setter
destroys the value, converts the new one into it and then writes the property;
a conversion error leaves it between the two.
-/

namespace PhpHandlebars

def internedHelpers : Bytes := ascii "helpers"
def internedPartials : Bytes := ascii "partials"

/-- `intern->helpers` or `intern->partials`, and the property beside it. -/
structure RegistrySlot where
  effective : Value
  property : Zval

structure VmRegistries where
  helpers : RegistrySlot
  partials : RegistrySlot

/-- The registries of a new object are empty maps, its properties null. -/
def phpHandlebarsVmObjCreateCommon : VmRegistries where
  helpers := ⟨.map [], .null⟩
  partials := ⟨.map [], .null⟩

/-- What `php_handlebars_vm_set_helpers` and `php_handlebars_vm_set_partials`
do to their registry. -/
def RegistrySlot.set (slot : RegistrySlot) (val : Zval)
    (pending : Option Exception) : RegistrySlot × Option Exception :=
  let destroyed : RegistrySlot := { slot with effective := .null }
  match handlebarsValueFromZval val destroyed.effective with
  | .ok effective => (⟨effective, val⟩, pending)
  | .error error =>
      -- the longjmp skips the update of the property
      (destroyed, phpHandlebarsThrow .runtimeException error pending)

def phpHandlebarsVmSetHelpers (vm : VmRegistries) (helpers : Zval)
    (pending : Option Exception) : VmRegistries × Option Exception :=
  let (slot, pending) := vm.helpers.set helpers pending
  ({ vm with helpers := slot }, pending)

def phpHandlebarsVmSetPartials (vm : VmRegistries) (partials : Zval)
    (pending : Option Exception) : VmRegistries × Option Exception :=
  let (slot, pending) := vm.partials.set partials pending
  ({ vm with partials := slot }, pending)

inductive Thrown where
  /-- thrown by the parameter parser -/
  | typeError
  | exception (exception : Exception)

/-- `HandlebarsVM::__construct`; the second setter runs also behind an
exception of the first. -/
def construct (vm : VmRegistries) (options : Option Zval) :
    VmRegistries × Option Thrown :=
  match options with
  | none => (vm, none)
  | some (.array ht) =>
      let (vm, pending) := match zendHashFind ht internedHelpers with
        | some helpers => phpHandlebarsVmSetHelpers vm helpers none
        | none => (vm, none)
      let (vm, pending) := match zendHashFind ht internedPartials with
        | some partials => phpHandlebarsVmSetPartials vm partials pending
        | none => (vm, pending)
      (vm, pending.map .exception)
  | some _ => (vm, some .typeError)

/-- `Z_PARAM_OBJECT_OF_CLASS` with the interface `Handlebars\Registry`. -/
def isRegistryObject (isRegistry : ℕ → Bool) : Zval → Bool
  | .object handle => isRegistry handle
  | _ => false

def setHelpers (isRegistry : ℕ → Bool) (vm : VmRegistries) (helpers : Zval) :
    VmRegistries × Option Thrown :=
  if isRegistryObject isRegistry helpers then
    let (vm, pending) := phpHandlebarsVmSetHelpers vm helpers none
    (vm, pending.map .exception)
  else
    (vm, some .typeError)

def setPartials (isRegistry : ℕ → Bool) (vm : VmRegistries)
    (partials : Zval) : VmRegistries × Option Thrown :=
  if isRegistryObject isRegistry partials then
    let (vm, pending) := phpHandlebarsVmSetPartials vm partials none
    (vm, pending.map .exception)
  else
    (vm, some .typeError)

inductive RegistryCall where
  | construct (options : Option Zval)
  | setHelpers (helpers : Zval)
  | setPartials (partials : Zval)

/-- The registries of an object, with those before its last call and what this
call has thrown. -/
structure RegistryRun where
  vm : VmRegistries
  before : VmRegistries
  thrown : Option Thrown

def RegistryRun.start : RegistryRun where
  vm := phpHandlebarsVmObjCreateCommon
  before := phpHandlebarsVmObjCreateCommon
  thrown := none

def RegistryCall.perform (isRegistry : ℕ → Bool) (vm : VmRegistries) :
    RegistryCall → VmRegistries × Option Thrown
  | .construct options => PhpHandlebars.construct vm options
  | .setHelpers helpers => PhpHandlebars.setHelpers isRegistry vm helpers
  | .setPartials partials => PhpHandlebars.setPartials isRegistry vm partials

def RegistryRun.step (isRegistry : ℕ → Bool) (state : RegistryRun)
    (call : RegistryCall) : Option RegistryRun :=
  let (vm, thrown) := call.perform isRegistry state.vm
  some ⟨vm, state.vm, thrown⟩

/-! ## What is to hold after each call -/

/-- The effective registry is the property, converted into an empty one. -/
def RegistrySlot.InStep (slot : RegistrySlot) : Prop :=
  ∃ rv : Value, (rv = .null ∨ rv = .map []) ∧
    handlebarsValueFromZval slot.property rv = .ok slot.effective

structure RegistriesInStep (state : RegistryRun) : Prop where
  helpers : state.vm.helpers.InStep
  partials : state.vm.partials.InStep
  atomic : state.thrown ≠ none → state.vm = state.before

/-- Setting the value makes no difference: the registry has it already, or it
cannot be converted and there is nothing to destroy. -/
def RegistrySlot.Keeps (slot : RegistrySlot) (val : Zval) : Prop :=
  slot.property = val ∧ handlebarsValueFromZval val .null = .ok slot.effective ∨
    ¬ val.zType.Convertible ∧ slot.effective = .null

/-- A constructor call whose values can all be converted, or makes no
difference. -/
def SafeConstruct (vm : VmRegistries) (ht : HashTable) : Prop :=
  (∀ helpers, zendHashFind ht internedHelpers = some helpers →
      helpers.zType.Convertible) ∧
    (∀ partials, zendHashFind ht internedPartials = some partials →
      partials.zType.Convertible) ∨
  (∀ helpers, zendHashFind ht internedHelpers = some helpers →
      vm.helpers.Keeps helpers) ∧
    ∀ partials, zendHashFind ht internedPartials = some partials →
      vm.partials.Keeps partials

def SafeCall (state : RegistryRun) : RegistryCall → Prop
  | .construct (some (.array ht)) => SafeConstruct state.vm ht
  | _ => True

/-! ## One registry -/

theorem handlebarsValueFromZval_ok
    {val : Zval} (hval : val.zType.Convertible) (rv : Value) :
    ∃ effective, handlebarsValueFromZval val rv = .ok effective := by
  cases hresult : handlebarsValueFromZval val rv with
  | ok effective => exact ⟨effective, rfl⟩
  | error error =>
      rw [handlebarsValueFromZval_error_iff] at hresult
      exact absurd hval hresult.1

theorem set_of_convertible
    (slot : RegistrySlot) {val : Zval} (hval : val.zType.Convertible)
    (pending : Option Exception) :
    (slot.set val pending).2 = pending ∧
      (slot.set val pending).1.InStep := by
  obtain ⟨effective, hresult⟩ := handlebarsValueFromZval_ok hval .null
  have hset : slot.set val pending = (⟨effective, val⟩, pending) := by
    simp only [RegistrySlot.set, hresult]
  rw [hset]
  exact ⟨rfl, .null, .inl rfl, hresult⟩

theorem set_of_not_convertible
    (slot : RegistrySlot) {val : Zval} (hval : ¬ val.zType.Convertible)
    (pending : Option Exception) :
    slot.set val pending =
      ({ slot with effective := .null },
        zendThrowException .runtimeException
          (unimplementedConversion val.zType).message .error pending) := by
  have hresult : handlebarsValueFromZval val .null =
      .error (unimplementedConversion val.zType) := by
    rw [handlebarsValueFromZval_error_iff]
    exact ⟨hval, rfl⟩
  simp only [RegistrySlot.set, hresult]
  rfl

theorem set_eq_self_iff
    (slot : RegistrySlot) (val : Zval) (pending : Option Exception) :
    (slot.set val pending).1 = slot ↔ slot.Keeps val := by
  obtain ⟨current, property⟩ := slot
  unfold RegistrySlot.Keeps
  by_cases hval : val.zType.Convertible
  · obtain ⟨effective, hresult⟩ := handlebarsValueFromZval_ok hval .null
    simp [RegistrySlot.set, hresult, hval, and_comm, eq_comm]
  · have hnever : handlebarsValueFromZval val .null ≠ .ok current := by
      intro hok
      have herror := (handlebarsValueFromZval_error_iff val .null _).mpr
        ⟨hval, rfl⟩
      simp [hok] at herror
    rw [set_of_not_convertible _ hval]
    simp [hval, hnever, eq_comm]

/-! ## Calls -/

def RegistrySlot.setGiven (slot : RegistrySlot) (given : Option Zval)
    (pending : Option Exception) : RegistrySlot × Option Exception :=
  given.elim (slot, pending) fun val => slot.set val pending

theorem construct_array (vm : VmRegistries) (ht : HashTable) :
    construct vm (some (.array ht)) =
      let first :=
        vm.helpers.setGiven (zendHashFind ht internedHelpers) none
      let second :=
        vm.partials.setGiven (zendHashFind ht internedPartials) first.2
      (⟨first.1, second.1⟩, second.2.map .exception) := by
  cases hhelpers : zendHashFind ht internedHelpers <;>
    cases hpartials : zendHashFind ht internedPartials <;>
      simp only [construct, RegistrySlot.setGiven, hhelpers, hpartials] <;> rfl

theorem setGiven_of_convertible
    {slot : RegistrySlot} (hslot : slot.InStep) {given : Option Zval}
    (hgiven : ∀ val, given = some val → val.zType.Convertible)
    (pending : Option Exception) :
    (slot.setGiven given pending).2 = pending ∧
      (slot.setGiven given pending).1.InStep := by
  cases given with
  | none => exact ⟨rfl, hslot⟩
  | some val => exact set_of_convertible slot (hgiven val rfl) pending

theorem setGiven_eq_self_iff
    (slot : RegistrySlot) (given : Option Zval) (pending : Option Exception) :
    (slot.setGiven given pending).1 = slot ↔
      ∀ val, given = some val → slot.Keeps val := by
  cases given with
  | none => simp [RegistrySlot.setGiven]
  | some val => simpa [RegistrySlot.setGiven] using
      set_eq_self_iff slot val pending

theorem setGiven_pending_ne_none_iff
    (slot : RegistrySlot) (given : Option Zval) (pending : Option Exception) :
    (slot.setGiven given pending).2 ≠ none ↔
      pending ≠ none ∨ ¬ ∀ val, given = some val → val.zType.Convertible := by
  cases given with
  | none => simp [RegistrySlot.setGiven]
  | some val =>
      by_cases hval : val.zType.Convertible
      · have hpending := (set_of_convertible slot hval pending).1
        simp [RegistrySlot.setGiven, hpending, hval]
      · have hthrown := zendThrowException_isSome .runtimeException
          (unimplementedConversion val.zType).message .error pending
        simp [RegistrySlot.setGiven, set_of_not_convertible slot hval pending,
          hval, ← Option.isSome_iff_ne_none, hthrown]

/-- A call which throws is atomic exactly when it changes nothing. -/
theorem inStep_of_thrown
    {state : RegistryRun} (hstate : RegistriesInStep state)
    {vm : VmRegistries} {thrown : Option Thrown} (hthrown : thrown ≠ none) :
    RegistriesInStep ⟨vm, state.vm, thrown⟩ ↔ vm = state.vm := by
  constructor
  · intro hnext
    exact hnext.atomic hthrown
  · rintro rfl
    exact ⟨hstate.helpers, hstate.partials, fun _ => rfl⟩

theorem construct_inStep_iff
    {state : RegistryRun} (hstate : RegistriesInStep state)
    (ht : HashTable) :
    RegistriesInStep
        ⟨(construct state.vm (some (.array ht))).1, state.vm,
          (construct state.vm (some (.array ht))).2⟩ ↔
      SafeConstruct state.vm ht := by
  rw [construct_array]
  unfold SafeConstruct
  generalize zendHashFind ht internedHelpers = helpers
  generalize zendHashFind ht internedPartials = partials
  by_cases hall : (∀ val, helpers = some val → val.zType.Convertible) ∧
      ∀ val, partials = some val → val.zType.Convertible
  · obtain ⟨hpending, hhelpers⟩ :=
      setGiven_of_convertible hstate.helpers hall.1 none
    obtain ⟨hpending', hpartials⟩ := setGiven_of_convertible
      hstate.partials hall.2 (state.vm.helpers.setGiven helpers none).2
    apply iff_of_true _ (.inl hall)
    constructor
    · exact hhelpers
    · exact hpartials
    · intro hthrown
      rw [hpending] at hpending'
      simp [hpending, hpending'] at hthrown
  · have hthrown : (state.vm.partials.setGiven partials
        (state.vm.helpers.setGiven helpers none).2).2.map
          Thrown.exception ≠ none := by
      rw [Ne, Option.map_eq_none_iff, ← Ne, setGiven_pending_ne_none_iff,
        setGiven_pending_ne_none_iff]
      tauto
    rw [inStep_of_thrown hstate hthrown, or_iff_right hall,
      ← setGiven_eq_self_iff _ helpers none,
      ← setGiven_eq_self_iff _ partials
        (state.vm.helpers.setGiven helpers none).2]
    constructor
    · intro heq
      exact ⟨congrArg VmRegistries.helpers heq,
        congrArg VmRegistries.partials heq⟩
    · rintro ⟨hhelpers, hpartials⟩
      simp only [hhelpers, hpartials]

theorem registryObject_convertible
    {isRegistry : ℕ → Bool} {val : Zval}
    (hval : isRegistryObject isRegistry val) : val.zType.Convertible := by
  cases val with
  | object handle => simp [Zval.zType, ZvalType.Convertible]
  | _ => simp [isRegistryObject] at hval

theorem setHelpers_inStep
    {isRegistry : ℕ → Bool} {state : RegistryRun}
    (hstate : RegistriesInStep state) (helpers : Zval) :
    RegistriesInStep
      ⟨(setHelpers isRegistry state.vm helpers).1, state.vm,
        (setHelpers isRegistry state.vm helpers).2⟩ := by
  unfold setHelpers
  split
  next hobject =>
    obtain ⟨hpending, hslot⟩ := set_of_convertible state.vm.helpers
      (registryObject_convertible hobject) none
    constructor
    · exact hslot
    · exact hstate.partials
    · simp [phpHandlebarsVmSetHelpers, hpending]
  next =>
    rw [inStep_of_thrown hstate (by simp)]

theorem setPartials_inStep
    {isRegistry : ℕ → Bool} {state : RegistryRun}
    (hstate : RegistriesInStep state) (partials : Zval) :
    RegistriesInStep
      ⟨(setPartials isRegistry state.vm partials).1, state.vm,
        (setPartials isRegistry state.vm partials).2⟩ := by
  unfold setPartials
  split
  next hobject =>
    obtain ⟨hpending, hslot⟩ := set_of_convertible state.vm.partials
      (registryObject_convertible hobject) none
    constructor
    · exact hstate.helpers
    · exact hslot
    · simp [phpHandlebarsVmSetPartials, hpending]
  next =>
    rw [inStep_of_thrown hstate (by simp)]

theorem step_inStep_iff (isRegistry : ℕ → Bool)
    (state : RegistryRun) (call : RegistryCall)
    (hstate : RegistriesInStep state) :
    ∃ next, state.step isRegistry call = some next ∧
      (RegistriesInStep next ↔ SafeCall state call) := by
  refine ⟨_, rfl, ?_⟩
  cases call with
  | construct options =>
      cases options with
      | none =>
          apply iff_of_true _ trivial
          exact ⟨hstate.helpers, hstate.partials, fun hthrown =>
            absurd rfl hthrown⟩
      | some options =>
          cases options with
          | array ht => exact construct_inStep_iff hstate ht
          | _ =>
              apply iff_of_true _ trivial
              exact ⟨hstate.helpers, hstate.partials, fun _ => rfl⟩
  | setHelpers helpers =>
      exact iff_of_true (setHelpers_inStep hstate helpers) trivial
  | setPartials partials =>
      exact iff_of_true (setPartials_inStep hstate partials) trivial

theorem start_inStep : RegistriesInStep .start where
  helpers := ⟨.map [], .inr rfl, rfl⟩
  partials := ⟨.map [], .inr rfl, rfl⟩
  atomic := fun hthrown => absurd rfl hthrown

/-- The registries of an object are in step after each of its calls exactly
when no constructor call destroys one for a value which cannot be
converted. -/
theorem registries_in_step_iff (isRegistry : ℕ → Bool)
    (calls : List RegistryCall) :
    EventRun.Throughout (RegistryRun.step isRegistry) RegistriesInStep .start
        calls ↔
      EventRun.Allowed (RegistryRun.step isRegistry) SafeCall .start calls :=
  EventRun.throughout_iff_allowed (step_inStep_iff isRegistry) start_inStep
    calls

/-- A reference is no helper registry; the getter still returns the old one,
but `render` has none any more. -/
theorem failed_construct_destroys_registry :
    ¬ EventRun.Throughout (RegistryRun.step fun _ => true) RegistriesInStep
      .start
      [.construct (some (.array [(.string internedHelpers, .object 1)])),
        .construct (some (.array
          [(.string internedHelpers, .reference (.object 1))]))] := by
  intro hthroughout
  have hlast := (hthroughout.2 _ rfl).2 _ rfl
  obtain ⟨rv, _, hconverted⟩ := hlast.helpers
  have hobject : handlebarsValueFromZval (.object 1) rv = .ok .null :=
    hconverted
  simp [handlebarsValueFromZval] at hobject

end PhpHandlebars
