import PhpHandlebars.OptionsArrayAccess
import PhpHandlebars.OptionsTeardown
import PhpHandlebars.ValueConversion
import Mathlib.Tactic

/-!
# The blocks of a helper

`Options::fn` and `Options::inverse` run a program of the VM as long as the VM
is there.  Without one they invoke an object which PHP code has put into the
property of the same name, which they read through the handlers of the object;
and a handler may write over the property before.
-/

namespace PhpHandlebars

variable {V : Type} (version : PhpVersion) (toZval : V → Zval)

inductive Block where
  | fn
  | inverse
  deriving DecidableEq

def Block.member : Block → Bytes
  | .fn => ascii "fn"
  | .inverse => ascii "inverse"

def Block.guid (options : HandlebarsOptions V) : Block → ℤ
  | .fn => options.program
  | .inverse => options.inverse

/-- What a call of a block comes to. -/
inductive BlockOutcome where
  /-- `handlebars_vm_execute_program_ex` -/
  | executed (programGuid : ℤ) (arguments : List Zval)
  /-- the template has no such block -/
  | nothing
  | invoked (handle : ℕ) (arguments : List Zval)
  | thrown (exception : Exception)

def fnIsNotSet : BlockOutcome :=
  .thrown (.made .runtimeException "fn is not set" (.other 0))

/-- The branch for objects which were made by PHP code: `z_fn` is not
dereferenced. -/
def invokeBlock (zFn : Option Zval) (arguments : List Zval) : BlockOutcome :=
  match zFn with
  | some (.object handle) => .invoked handle arguments
  | _ => fnIsNotSet

/-- `php_handlebars_options_call`, up to the program. -/
def phpHandlebarsOptionsCall (object : OptionsObject V) (block : Block)
    (arguments : List Zval) : OptionsObject V × BlockOutcome :=
  match object.vm with
  | none =>
      let (object, zFn) := zendReadProperty version toZval object block.member
      (object, invokeBlock zFn arguments)
  | some _ =>
      let programGuid := block.guid object.options
      if programGuid < 0 then (object, .nothing)
      else (object, .executed programGuid arguments)

inductive BlockEvent where
  | access (event : AccessEvent)
  | call (block : Block) (arguments : List Zval)

/-- The destructor on the VM's side exists for objects which the VM has
made. -/
def OptionsObject.access (object : OptionsObject V) (event : AccessEvent) :
    OptionsObject V :=
  match event, object.dtorCtx with
  | .vmFreed, none => object
  | _, _ => ((accessStep version toZval ⟨object, []⟩ event).map
      AccessHistory.object).getD object

/-! ## What the blocks are meant to be -/

abbrev PropertyTable := Bytes → Option Zval

def PropertyTable.assign (table : PropertyTable) (member : Bytes)
    (value : Zval) : PropertyTable :=
  if badPropertyName member then table
  else Function.update table member (some value)

def PropertyTable.remove (table : PropertyTable) (member : Bytes) :
    PropertyTable :=
  if badPropertyName member then table
  else Function.update table member none

def PropertyTable.assignBucket (table : PropertyTable) :
    ArrayKey × Zval → PropertyTable
  | (.string key, entry) => table.assign key entry
  | (.index _, _) => table

def PropertyTable.construct (table : PropertyTable)
    (props : Option HashTable) : PropertyTable :=
  let table := table.assign (ascii "fn") .null
  let table := table.assign (ascii "inverse") .null
  match props with
  | some ht => ht.foldl PropertyTable.assignBucket table
  | none => table

/-- The programs of the VM, as long as it is there; a template need not have
both of them. -/
inductive VmLife where
  /-- the object was made by PHP code -/
  | never
  | alive (fn inverse : Option ℤ)
  | gone

/-- The blocks: what PHP code has written into the properties, and the programs
of the VM.  Reading leaves all of it alone. -/
structure Blocks where
  table : PropertyTable
  vm : VmLife

def Blocks.access (blocks : Blocks) : AccessEvent → Blocks
  | .write member value =>
      { blocks with table := blocks.table.assign member value }
  | .unset member => { blocks with table := blocks.table.remove member }
  | .construct props => { blocks with table := blocks.table.construct props }
  | .vmFreed =>
      match blocks.vm with
      | .never => blocks
      | _ => { blocks with vm := .gone }
  | _ => blocks

def executeBlock (program : Option ℤ) (arguments : List Zval) : BlockOutcome :=
  program.elim .nothing fun guid => .executed guid arguments

/-- The VM's program while there is a VM, else what PHP code has put into the
property. -/
def Blocks.call (blocks : Blocks) (block : Block) (arguments : List Zval) :
    BlockOutcome :=
  match blocks.vm, block with
  | .alive fn _, .fn => executeBlock fn arguments
  | .alive _ inverse, .inverse => executeBlock inverse arguments
  | _, block => invokeBlock (blocks.table block.member) arguments

/-- The VM says with a negative number that there is no such block. -/
def reportedProgram (guid : ℤ) : Option ℤ :=
  if guid < 0 then none else some guid

def OptionsOrigin.blocks (origin : OptionsOrigin V) : Blocks where
  table := origin.object.properties
  vm := match origin with
    | .vm _ _ options =>
        .alive (reportedProgram options.program)
          (reportedProgram options.inverse)
    | .user _ => .never

/-! ## Histories -/

/-- What a call has come to, and what it was meant to. -/
structure BlockCall where
  outcome : BlockOutcome
  intended : BlockOutcome

structure BlockHistory (V : Type) where
  object : OptionsObject V
  blocks : Blocks
  calls : List BlockCall

def BlockHistory.start (origin : OptionsOrigin V) : BlockHistory V where
  object := origin.object
  blocks := origin.blocks
  calls := []

def blockStep (history : BlockHistory V) :
    BlockEvent → Option (BlockHistory V)
  | .access event =>
      some { history with
        object := history.object.access version toZval event
        blocks := history.blocks.access event }
  | .call block arguments =>
      let (object, outcome) := phpHandlebarsOptionsCall version toZval
        history.object block arguments
      some { history with
        object := object
        calls := history.calls ++
          [⟨outcome, history.blocks.call block arguments⟩] }

/-- All calls have come to what they were meant to, and `fn` is as PHP code has
left it. -/
structure BlockHistory.Faithful (history : BlockHistory V) : Prop where
  calls : ∀ call ∈ history.calls, call.outcome = call.intended
  fn : history.object.properties (ascii "fn") =
    history.blocks.table (ascii "fn")

/-- The property an access reads through the handlers. -/
def AccessEvent.readMember : AccessEvent → Option Bytes
  | .read member | .isset member | .offsetGet member | .offsetExists member =>
      some member
  | _ => none

/-- The number of `program`: the destructor of the VM's side leaves a zero. -/
def VmLife.programNumber : VmLife → Option ℤ
  | .never => none
  | .alive fn _ => fn
  | .gone => some 0

/-- No object is looked for in `inverse` once the VM is gone, and under PHP 7
`program` is not read over `fn`. -/
def KeepsBlocks (history : BlockHistory V) : BlockEvent → Prop
  | .access event =>
      version = .php7 → event.readMember = some (ascii "program") →
        ∀ number ∈ history.blocks.vm.programNumber,
          history.blocks.table (ascii "fn") = some (.long number)
  | .call .inverse _ =>
      history.blocks.vm = .gone → ∀ handle,
        history.blocks.table (ascii "inverse") ≠ some (.object handle)
  | .call .fn _ => True

/-! ## Writes -/

/-- What happens to one property does not depend on the others. -/
def Local (change : PropertyTable → PropertyTable) : Prop :=
  ∀ table table' member, table member = table' member →
    change table member = change table' member

theorem local_id : Local id := fun _ _ _ hsame => hsame

theorem local_assign (member : Bytes) (value : Zval) :
    Local fun table => table.assign member value := by
  intro table table' other hsame
  unfold PropertyTable.assign
  split
  · exact hsame
  · by_cases hother : other = member
    · simp [hother]
    · simpa [hother] using hsame

theorem local_remove (member : Bytes) :
    Local fun table => table.remove member := by
  intro table table' other hsame
  unfold PropertyTable.remove
  split
  · exact hsame
  · by_cases hother : other = member
    · simp [hother]
    · simpa [hother] using hsame

theorem local_assignBucket (bucket : ArrayKey × Zval) :
    Local fun table => table.assignBucket bucket := by
  obtain ⟨key, entry⟩ := bucket
  cases key with
  | string name => exact local_assign name entry
  | index number => exact local_id

theorem local_assignBuckets (ht : HashTable) :
    Local fun table => ht.foldl PropertyTable.assignBucket table := by
  induction ht with
  | nil => exact local_id
  | cons bucket rest ih =>
      intro table table' other hsame
      exact ih _ _ other (local_assignBucket bucket _ _ other hsame)

theorem local_construct (props : Option HashTable) :
    Local fun table => table.construct props := by
  intro table table' other hsame
  have hfn := local_assign (ascii "fn") .null table table' other hsame
  have hinverse := local_assign (ascii "inverse") .null _ _ other hfn
  cases props with
  | none => exact hinverse
  | some ht => exact local_assignBuckets ht _ _ other hinverse

theorem assign_eq (object : OptionsObject V) (member : Bytes) (value : Zval) :
    object.assign member value = { object with
      properties := PropertyTable.assign object.properties member value } := by
  unfold OptionsObject.assign PropertyTable.assign
  split <;> rfl

theorem remove_eq (object : OptionsObject V) (member : Bytes) :
    object.remove member = { object with
      properties := PropertyTable.remove object.properties member } := by
  unfold OptionsObject.remove PropertyTable.remove
  split <;> rfl

theorem assignBuckets_eq (ht : HashTable) (object : OptionsObject V) :
    ht.foldl OptionsObject.assignBucket object = { object with
      properties := ht.foldl PropertyTable.assignBucket
        object.properties } := by
  induction ht generalizing object with
  | nil => rfl
  | cons bucket rest ih =>
      obtain ⟨key, entry⟩ := bucket
      rw [List.foldl_cons, List.foldl_cons, ih]
      cases key with
      | string name =>
          simp only [OptionsObject.assignBucket, PropertyTable.assignBucket,
            assign_eq]
      | index number => rfl

theorem optionsConstruct_eq (object : OptionsObject V)
    (props : Option HashTable) :
    optionsConstruct object props = { object with
      properties := PropertyTable.construct object.properties props } := by
  unfold optionsConstruct PropertyTable.construct
  cases props with
  | none => simp only [assign_eq]
  | some ht => simp only [assignBuckets_eq, assign_eq]

/-! ## Reads -/

/-- What a read leaves alone.  An inverse program of the VM is written over
the property. -/
structure ReadLeaves (before after : OptionsObject V) : Prop where
  vm : after.vm = before.vm
  dtorCtx : after.dtorCtx = before.dtorCtx
  program : after.options.program = before.options.program
  inverse : after.options.inverse = before.options.inverse
  property : before.options.inverse < 0 →
    after.properties (ascii "inverse") = before.properties (ascii "inverse")

theorem clearedOptions_numbers (options : HandlebarsOptions V)
    (member : Bytes) :
    (clearedOptions toZval options member).program = options.program ∧
      (clearedOptions toZval options member).inverse = options.inverse := by
  unfold clearedOptions
  rcases findPropHandler_cases toZval member with hfind | ⟨_, hfind⟩ |
    ⟨_, hfind⟩ | ⟨_, hfind⟩ | ⟨_, hfind⟩ | ⟨_, hfind⟩ | ⟨_, hfind⟩ <;>
    rw [hfind] <;> exact ⟨rfl, rfl⟩

theorem readProperty_leaves (object : OptionsObject V) (member : Bytes) :
    ReadLeaves object (readProperty version toZval object member).object := by
  cases hheld : heldValue toZval object.options member with
  | none =>
      rw [readProperty_of_not_held version toZval hheld]
      exact ⟨rfl, rfl, rfl, rfl, fun _ => rfl⟩
  | some value =>
      have hnumbers := clearedOptions_numbers toZval object.options member
      have hinverse : object.options.inverse < 0 →
          writtenProperty member version ≠ ascii "inverse" := by
        intro hnegative hwritten
        obtain rfl := eq_of_writtenProperty version (by decide) hwritten
        rw [heldValue_inverse, if_neg (by omega)] at hheld
        simp at hheld
      have hread := readProperty_of_held version toZval hheld
      constructor
      · rw [hread]
        rfl
      · rw [hread]
        rfl
      · rw [hread]
        exact hnumbers.1
      · rw [hread]
        exact hnumbers.2
      · intro hnegative
        exact readProperty_properties_of_ne version toZval object
          (hinverse hnegative)

theorem writtenProperty_fn_iff (member : Bytes) :
    writtenProperty member version = ascii "fn" ↔
      member = ascii "fn" ∨
        version = .php7 ∧ member = ascii "program" := by
  cases version with
  | php8 => simp [writtenProperty]
  | php7 =>
      by_cases hprogram : member = ascii "program" <;>
        simp [writtenProperty, hprogram]

/-- What a read does to `fn`: under PHP 7, reading `program` may write it. -/
theorem readProperty_fn (object : OptionsObject V) (member : Bytes) :
    (readProperty version toZval object member).object.properties
        (ascii "fn") =
      if version = .php7 ∧ member = ascii "program" then
        (heldValue toZval object.options (ascii "program")).or
          (object.properties (ascii "fn"))
      else object.properties (ascii "fn") := by
  split
  next hprogram =>
    obtain ⟨rfl, rfl⟩ := hprogram
    cases hheld : heldValue toZval object.options (ascii "program") with
    | none => rw [readProperty_of_not_held .php7 toZval hheld]; rfl
    | some value =>
        rw [readProperty_of_held .php7 toZval hheld]
        rfl
  next hother =>
    by_cases hfn : member = ascii "fn"
    · subst hfn
      rfl
    · apply readProperty_properties_of_ne version toZval object
      rw [Ne, writtenProperty_fn_iff]
      exact fun hwritten => hwritten.elim hfn hother

/-! ## What the structure shows of the VM -/

/-- How the internal structure shows what has become of the VM.  After the
teardown both programs are zero. -/
def VmLife.Shows (object : OptionsObject V) (table : PropertyTable) :
    VmLife → Prop
  | .never => object.vm = none ∧ object.dtorCtx = none ∧
      object.options.program < 0 ∧ object.options.inverse < 0 ∧
      object.properties (ascii "inverse") = table (ascii "inverse")
  | .alive fn inverse => object.vm.isSome ∧ object.dtorCtx.isSome ∧
      reportedProgram object.options.program = fn ∧
      reportedProgram object.options.inverse = inverse
  | .gone => object.vm = none ∧ object.dtorCtx = none ∧
      object.options.program = 0 ∧ object.options.inverse = 0

def BlockHistory.Shows (history : BlockHistory V) : Prop :=
  history.blocks.vm.Shows history.object history.blocks.table

theorem shows_start (origin : OptionsOrigin V) :
    (BlockHistory.start origin).Shows := by
  cases origin with
  | vm number dtorCtx options => exact ⟨rfl, rfl, rfl, rfl⟩
  | user props =>
      have hobject : (OptionsOrigin.user props : OptionsOrigin V).object =
          _ := optionsConstruct_eq optionsObjCreate props
      have hnegative : (-1 : ℤ) < 0 := by decide
      change VmLife.Shows (OptionsOrigin.user props).object _ .never
      rw [hobject]
      exact ⟨rfl, rfl, hnegative, hnegative, by rw [← hobject]; rfl⟩

theorem VmLife.Shows.afterRead {before after : OptionsObject V}
    {table : PropertyTable} {life : VmLife} (hshows : life.Shows before table)
    (hleaves : ReadLeaves before after) : life.Shows after table := by
  cases life with
  | never =>
      obtain ⟨hvm, hctx, hprogram, hinverse, hproperty⟩ := hshows
      exact ⟨hleaves.vm.trans hvm, hleaves.dtorCtx.trans hctx,
        hleaves.program ▸ hprogram, hleaves.inverse ▸ hinverse,
        (hleaves.property hinverse).trans hproperty⟩
  | alive fn inverse =>
      obtain ⟨hvm, hctx, hprogram, hinverse⟩ := hshows
      exact ⟨hleaves.vm ▸ hvm, hleaves.dtorCtx ▸ hctx,
        hleaves.program ▸ hprogram, hleaves.inverse ▸ hinverse⟩
  | gone =>
      obtain ⟨hvm, hctx, hprogram, hinverse⟩ := hshows
      exact ⟨hleaves.vm.trans hvm, hleaves.dtorCtx.trans hctx,
        hleaves.program.trans hprogram, hleaves.inverse.trans hinverse⟩

theorem VmLife.Shows.afterChange {object : OptionsObject V}
    {table : PropertyTable} {life : VmLife} (hshows : life.Shows object table)
    {change : PropertyTable → PropertyTable} (hlocal : Local change) :
    life.Shows { object with properties := change object.properties }
      (change table) := by
  cases life with
  | never =>
      obtain ⟨hvm, hctx, hprogram, hinverse, hproperty⟩ := hshows
      exact ⟨hvm, hctx, hprogram, hinverse, hlocal _ _ _ hproperty⟩
  | alive fn inverse => exact hshows
  | gone => exact hshows

theorem heldValue_program_of_shows {object : OptionsObject V}
    {table : PropertyTable} {life : VmLife}
    (hshows : life.Shows object table) :
    heldValue toZval object.options (ascii "program") =
      life.programNumber.map .long := by
  rw [heldValue_program]
  cases life with
  | never =>
      obtain ⟨-, -, hprogram, -⟩ := hshows
      rw [if_neg (by omega)]
      rfl
  | alive fn inverse =>
      obtain ⟨-, -, rfl, -⟩ := hshows
      by_cases hnegative : object.options.program < 0
      · rw [if_neg (by omega)]
        simp [VmLife.programNumber, reportedProgram, hnegative]
      · rw [if_pos (by omega)]
        simp [VmLife.programNumber, reportedProgram, hnegative]
  | gone =>
      obtain ⟨-, -, hprogram, -⟩ := hshows
      rw [hprogram]
      rfl

/-! ## The steps -/

/-- One event keeps the structure and the VM in step, and the history faithful
exactly on the condition. -/
def StepOutcome (history : BlockHistory V) (event : BlockEvent) : Prop :=
  ∃ next, blockStep version toZval history event = some next ∧ next.Shows ∧
    (next.Faithful ↔ KeepsBlocks version history event)

theorem step_read {history : BlockHistory V} {event : AccessEvent}
    {member : Bytes} (hshows : history.Shows) (hfaithful : history.Faithful)
    (hmember : event.readMember = some member)
    (hobject : history.object.access version toZval event =
      (readProperty version toZval history.object member).object)
    (hblocks : history.blocks.access event = history.blocks) :
    StepOutcome version toZval history (.access event) := by
  refine ⟨_, rfl, ?_, ?_⟩
  · rw [BlockHistory.Shows, hobject, hblocks]
    exact hshows.afterRead (readProperty_leaves version toZval _ member)
  rw [hobject, hblocks]
  have hfn := readProperty_fn version toZval history.object member
  rw [heldValue_program_of_shows toZval hshows, hfaithful.fn] at hfn
  constructor
  · rintro ⟨-, hkept⟩ rfl hprogram number hnumber
    obtain rfl := Option.some.inj (hmember.symm.trans hprogram)
    rw [if_pos ⟨rfl, rfl⟩, Option.mem_def.mp hnumber] at hfn
    exact hkept.symm.trans hfn
  · intro hkeeps
    refine ⟨hfaithful.calls, hfn.trans ?_⟩
    split
    next hprogram =>
      obtain ⟨rfl, rfl⟩ := hprogram
      cases hnumber : history.blocks.vm.programNumber with
      | none => rfl
      | some number => exact (hkeeps rfl hmember number hnumber).symm
    next => rfl

theorem step_change {history : BlockHistory V} {event : AccessEvent}
    (hshows : history.Shows) (hfaithful : history.Faithful)
    (hmember : event.readMember = none)
    {change : PropertyTable → PropertyTable} (hlocal : Local change)
    (hobject : history.object.access version toZval event =
      { history.object with
        properties := change history.object.properties })
    (hblocks : history.blocks.access event =
      { history.blocks with table := change history.blocks.table }) :
    StepOutcome version toZval history (.access event) := by
  refine ⟨_, rfl, ?_, ?_⟩
  · rw [BlockHistory.Shows, hobject, hblocks]
    exact hshows.afterChange hlocal
  · rw [hobject, hblocks]
    apply iff_of_true
    · exact ⟨hfaithful.calls, hlocal _ _ _ hfaithful.fn⟩
    · intro _ hprogram
      rw [hmember] at hprogram
      simp at hprogram

theorem step_vmFreed {history : BlockHistory V} (hshows : history.Shows)
    (hfaithful : history.Faithful) :
    StepOutcome version toZval history (.access .vmFreed) := by
  refine ⟨_, rfl, ?_, ?_⟩
  · have hlife := hshows
    unfold BlockHistory.Shows at hlife ⊢
    cases hvm : history.blocks.vm with
    | never =>
        rw [hvm] at hlife
        simpa [OptionsObject.access, Blocks.access, hlife.2.1, hvm] using hlife
    | alive fn inverse =>
        rw [hvm] at hlife
        obtain ⟨dtorCtx, hctx⟩ := Option.isSome_iff_exists.mp hlife.2.1
        simp only [OptionsObject.access, Blocks.access, hctx, hvm]
        exact ⟨rfl, rfl, rfl, rfl⟩
    | gone =>
        rw [hvm] at hlife
        simp only [OptionsObject.access, Blocks.access, hlife.2.1, hvm]
        exact hlife
  · apply iff_of_true
    · refine ⟨hfaithful.calls, ?_⟩
      have hproperties : (history.object.access version toZval
          .vmFreed).properties = history.object.properties := by
        cases hctx : history.object.dtorCtx <;>
          simp [OptionsObject.access, hctx, accessStep, optionsDtorCtxDtor]
      have htable : (history.blocks.access .vmFreed).table =
          history.blocks.table := by
        cases hvm : history.blocks.vm <;> simp [Blocks.access, hvm]
      rw [hproperties, htable]
      exact hfaithful.fn
    · intro _ hprogram
      simp [AccessEvent.readMember] at hprogram

theorem step_access {history : BlockHistory V} (hshows : history.Shows)
    (hfaithful : history.Faithful) (event : AccessEvent) :
    StepOutcome version toZval history (.access event) := by
  cases event with
  | read member =>
      exact step_read version toZval hshows hfaithful rfl rfl rfl
  | isset member =>
      exact step_read version toZval hshows hfaithful rfl rfl rfl
  | offsetGet offset =>
      exact step_read version toZval hshows hfaithful rfl rfl rfl
  | offsetExists offset =>
      exact step_read version toZval hshows hfaithful rfl rfl rfl
  | offsetSet offset value =>
      exact step_change version toZval hshows hfaithful rfl local_id rfl rfl
  | offsetUnset offset =>
      exact step_change version toZval hshows hfaithful rfl local_id rfl rfl
  | write member value =>
      exact step_change version toZval hshows hfaithful rfl
        (local_assign member value) (assign_eq history.object member value) rfl
  | unset member =>
      exact step_change version toZval hshows hfaithful rfl
        (local_remove member) (remove_eq history.object member) rfl
  | construct props =>
      exact step_change version toZval hshows hfaithful rfl
        (local_construct props) (optionsConstruct_eq history.object props) rfl
  | vmFreed => exact step_vmFreed version toZval hshows hfaithful

/-! ## The calls -/

/-- The value in the property of a block, as `php_handlebars_options_call`
reads it. -/
theorem zendReadProperty_value (object : OptionsObject V) (member : Bytes) :
    (zendReadProperty version toZval object member).2 =
      some ((propertyValue version toZval object member).getD .null) := by
  simp only [zendReadProperty, readProperty_value]

theorem invokeBlock_getD (value : Option Zval) (arguments : List Zval) :
    invokeBlock (some (value.getD .null)) arguments =
      invokeBlock value arguments := by
  cases value <;> rfl

theorem call_without_vm {object : OptionsObject V} (hvm : object.vm = none)
    (block : Block) (arguments : List Zval) :
    (phpHandlebarsOptionsCall version toZval object block arguments).2 =
      invokeBlock (propertyValue version toZval object block.member)
        arguments := by
  simp only [phpHandlebarsOptionsCall, hvm, zendReadProperty_value,
    invokeBlock_getD]

theorem propertyValue_fn (object : OptionsObject V) :
    propertyValue version toZval object (ascii "fn") =
      object.properties (ascii "fn") := by
  rw [← readProperty_value]
  rfl

theorem propertyValue_inverse (object : OptionsObject V) :
    propertyValue version toZval object (ascii "inverse") =
      (heldValue toZval object.options (ascii "inverse")).or
        (object.properties (ascii "inverse")) := by
  apply propertyValue_of_own
  cases version with
  | php8 => rfl
  | php7 => rfl

/-- A program is executed unless its number is negative. -/
theorem call_with_vm {object : OptionsObject V} (hvm : object.vm.isSome)
    (block : Block) (arguments : List Zval) :
    (phpHandlebarsOptionsCall version toZval object block arguments).2 =
      executeBlock (reportedProgram (block.guid object.options))
        arguments := by
  obtain ⟨vm, hsome⟩ := Option.isSome_iff_exists.mp hvm
  unfold reportedProgram
  simp only [phpHandlebarsOptionsCall, hsome]
  split <;> rfl

theorem invokeBlock_eq_fnIsNotSet_iff (value : Option Zval)
    (arguments : List Zval) :
    fnIsNotSet = invokeBlock value arguments ↔
      ∀ handle, value ≠ some (.object handle) := by
  constructor
  · rintro hnot handle rfl
    simp [fnIsNotSet, invokeBlock] at hnot
  · intro hnone
    unfold invokeBlock
    split
    next handle => exact absurd rfl (hnone handle)
    next => rfl

theorem call_outcome_iff {history : BlockHistory V} (hshows : history.Shows)
    (hfaithful : history.Faithful) (block : Block) (arguments : List Zval) :
    (phpHandlebarsOptionsCall version toZval history.object block
        arguments).2 = history.blocks.call block arguments ↔
      KeepsBlocks version history (.call block arguments) := by
  have hlife := hshows
  unfold BlockHistory.Shows at hlife
  cases hvm : history.blocks.vm with
  | never =>
      rw [hvm] at hlife
      obtain ⟨hnone, -, -, hnegative, hproperty⟩ := hlife
      rw [call_without_vm version toZval hnone]
      simp only [Blocks.call, hvm]
      cases block with
      | fn =>
          rw [Block.member, propertyValue_fn, hfaithful.fn]
          exact iff_of_true rfl trivial
      | inverse =>
          rw [Block.member, propertyValue_inverse, heldValue_inverse,
            if_neg (by omega), Option.none_or, hproperty]
          simp [KeepsBlocks, hvm]
  | alive fn inverse =>
      rw [hvm] at hlife
      obtain ⟨hsome, -, hprogram, hinverse⟩ := hlife
      rw [call_with_vm version toZval hsome]
      simp only [Blocks.call, hvm]
      cases block with
      | fn => exact iff_of_true (by rw [← hprogram]; rfl) trivial
      | inverse =>
          simp [KeepsBlocks, hvm, Block.guid, hinverse]
  | gone =>
      rw [hvm] at hlife
      obtain ⟨hnone, -, -, hzero⟩ := hlife
      rw [call_without_vm version toZval hnone]
      simp only [Blocks.call, hvm]
      cases block with
      | fn =>
          rw [Block.member, propertyValue_fn, hfaithful.fn]
          exact iff_of_true rfl trivial
      | inverse =>
          -- the zero of the teardown is read over what PHP code has written
          rw [Block.member, propertyValue_inverse, heldValue_inverse,
            if_pos hzero.ge, Option.some_or]
          simp only [KeepsBlocks, hvm, true_implies]
          exact invokeBlock_eq_fnIsNotSet_iff _ arguments

theorem call_object (object : OptionsObject V) (block : Block)
    (arguments : List Zval) :
    ReadLeaves object
        (phpHandlebarsOptionsCall version toZval object block arguments).1 ∧
      (phpHandlebarsOptionsCall version toZval object block
        arguments).1.properties (ascii "fn") =
          object.properties (ascii "fn") := by
  unfold phpHandlebarsOptionsCall
  split
  next =>
    constructor
    · exact readProperty_leaves version toZval object block.member
    · have hfn := readProperty_fn version toZval object block.member
      have hmember : block.member ≠ ascii "program" := by
        cases block <;> decide
      rw [if_neg fun hprogram => hmember hprogram.2] at hfn
      exact hfn
  next =>
    dsimp only
    split <;> exact ⟨⟨rfl, rfl, rfl, rfl, fun _ => rfl⟩, rfl⟩

theorem step_call {history : BlockHistory V} (hshows : history.Shows)
    (hfaithful : history.Faithful) (block : Block) (arguments : List Zval) :
    StepOutcome version toZval history (.call block arguments) := by
  obtain ⟨hleaves, hfn⟩ := call_object version toZval history.object block
    arguments
  have houtcome := call_outcome_iff version toZval hshows hfaithful block
    arguments
  refine ⟨_, rfl, hshows.afterRead hleaves, ?_⟩
  rw [← houtcome]
  constructor
  · intro hnext
    exact hnext.calls _ (List.mem_append_right _ (List.mem_singleton_self _))
  · intro heq
    refine ⟨?_, hfn.trans hfaithful.fn⟩
    intro call hcall
    rcases List.mem_append.mp hcall with hold | hnew
    · exact hfaithful.calls call hold
    · obtain rfl := List.mem_singleton.mp hnew
      exact heq

theorem blockStep_faithful (history : BlockHistory V) (event : BlockEvent)
    (hshows : history.Shows) (hfaithful : history.Faithful) :
    StepOutcome version toZval history event := by
  cases event with
  | access event => exact step_access version toZval hshows hfaithful event
  | call block arguments =>
      exact step_call version toZval hshows hfaithful block arguments

/-- Through a whole history, made by the VM or by PHP code, the calls of the
blocks come to what the blocks are meant to be and `fn` stays as PHP code has
left it, exactly when no call of `inverse` after the end of the VM looks for an
object, and PHP 7 does not read a program number over `fn`. -/
theorem blocks_dispatched_iff (origin : OptionsOrigin V)
    (events : List BlockEvent) :
    EventRun.Throughout (blockStep version toZval) BlockHistory.Faithful
        (.start origin) events ↔
      EventRun.Allowed (blockStep version toZval) (KeepsBlocks version)
        (.start origin) events := by
  apply EventRun.throughout_iff_allowed_of_inv
    (blockStep_faithful version toZval) (shows_start origin)
  constructor
  · intro call hcall
    exact absurd hcall List.not_mem_nil
  · rfl

/-- An inverse which PHP code has set is lost with the VM. -/
example :
    ((EventRun.run (blockStep .php8 handlebarsValueToZval)
        (.start (.vm 0 0 withoutHash))
        [.access (.write (ascii "inverse") (.object 7)),
          .access .vmFreed, .call .inverse []]).map
      fun history => history.calls) =
      some [⟨fnIsNotSet, .invoked 7 []⟩] := rfl

end PhpHandlebars
