import PhpHandlebars.ValueConversion
import Mathlib.Data.Finset.Insert
import Mathlib.Data.List.ReduceOption
import Mathlib.Tactic

/-!
# Compiler options and known helpers

`php_handlebars_process_options_zval` turns an options array into compiler
flags, the list of known helpers and the data of the VM;
`php_handlebars_fetch_known_helpers` then appends the names registered on the
VM object.  The list of known helpers is a pointer, which may be NULL.
-/

namespace PhpHandlebars

/-- `enum handlebars_compiler_flag`, as far as options can set it. -/
inductive CompilerFlag where
  | alternateDecorators
  | compat
  | useData
  | explicitPartialContext
  | ignoreStandalone
  | knownHelpersOnly
  | preventIndent
  | stringParams
  | trackIds
  | strict
  | assumeObjects
  | mustacheStyleLambdas
  deriving DecidableEq

/-- A flag word; `∅` is `0` and `insert` is `|=`. -/
abbrev Flags := Finset CompilerFlag

def internedCacheId : Bytes := ascii "cacheId"
def internedAlternateDecorators : Bytes := ascii "alternateDecorators"
def internedCompat : Bytes := ascii "compat"
def internedData : Bytes := ascii "data"
def internedExplicitPartialContext : Bytes := ascii "explicitPartialContext"
def internedIgnoreStandalone : Bytes := ascii "ignoreStandalone"
def internedKnownHelpers : Bytes := ascii "knownHelpers"
def internedKnownHelpersOnly : Bytes := ascii "knownHelpersOnly"
def internedPreventIndent : Bytes := ascii "preventIndent"
def internedStringParams : Bytes := ascii "stringParams"
def internedTrackIds : Bytes := ascii "trackIds"
def internedStrict : Bytes := ascii "strict"
def internedAssumeObjects : Bytes := ascii "assumeObjects"
def internedMustacheStyleLambdas : Bytes := ascii "mustacheStyleLambdas"

structure Compiler where
  flags : Flags
  /-- a NULL-terminated list of names, or NULL -/
  knownHelpers : Option (List Bytes)

/-- The part of `struct handlebars_vm` which options reach; a new VM has
neither data nor flags. -/
structure VmConfig where
  data : Option Value
  flags : Flags

def VmConfig.fresh : VmConfig := ⟨none, ∅⟩

inductive Stop where
  | fault (fault : Fault)
  | raised (error : LibError)

def orFault {α : Type} : Except Fault α → Except Stop α :=
  Except.mapError .fault

def orRaise {α : Type} : Except LibError α → Except Stop α :=
  Except.mapError .raised

/-- `strndup`: a C string ends at its first NUL byte. -/
def strndup (bytes : Bytes) : Bytes :=
  bytes.takeWhile fun byte => byte ≠ 0

theorem strndup_eq_self_iff (bytes : Bytes) :
    strndup bytes = bytes ↔ 0 ∉ bytes :=
  cString_eq_self_iff bytes

/-- One bucket of `ZEND_HASH_FOREACH_KEY_VAL` over the known helpers: a
string gives itself, anything else its string key. -/
def knownHelperName : ArrayKey × Zval → Except Fault (Option Bytes)
  | (key, entry) =>
      if entry.zType = .isString then do
        return some (strndup (← entry.strval))
      else
        match key with
        | .string name => return some (strndup name)
        | .index _ => return none

def compilerKnownHelpersFromZval (arr : Zval) :
    Except Fault (Option (List Bytes)) :=
  if arr.zType ≠ .isArray then
    return none
  else do
    let dataHash ← arr.arrval
    if dataHash.length = 0 then
      return none
    else
      let names ← dataHash.mapM knownHelperName
      return some (names.filterMap id)

/-- The block which most options have: a flag is set by `true` alone. -/
def setIfTrue (table : HashTable) (name : Bytes) (flag : CompilerFlag)
    (flags : Flags) : Flags :=
  match zendHashFind table name with
  | some entry => if entry.isTrue then insert flag flags else flags
  | none => flags

/-- The block of the option `data`: a value which is no boolean and not null
becomes the data of the VM, when there is one. -/
def processData (table : HashTable) (vm : Option VmConfig) (flags : Flags) :
    Except LibError (Option VmConfig × Flags) :=
  match zendHashFind table internedData with
  | some entry =>
      if ¬ entry.isBool ∧ entry.zType ≠ .isNull then
        match vm with
        | some vm => do
            let tmp ← handlebarsValueFromZval entry .null
            return (some { vm with data := some tmp }, insert .useData flags)
        | none => return (none, insert .useData flags)
      else if entry.isTrue then
        return (vm, insert .useData flags)
      else
        return (vm, flags)
  | none => return (vm, flags)

def processOptionsZval (compiler : Compiler) (vm : Option VmConfig)
    (options : Option Zval) :
    Except Stop (Flags × Compiler × Option VmConfig) :=
  match options with
  | none => return (∅, { compiler with flags := ∅ }, vm)
  | some options =>
      if options.zType ≠ .isArray then
        return (∅, { compiler with flags := ∅ }, vm)
      else do
        let ht ← orFault options.arrval
        let flags := setIfTrue ht internedAlternateDecorators
          .alternateDecorators ∅
        let flags := setIfTrue ht internedCompat .compat flags
        let (vm, flags) ← orRaise (processData ht vm flags)
        let flags := setIfTrue ht internedExplicitPartialContext
          .explicitPartialContext flags
        let flags := setIfTrue ht internedIgnoreStandalone .ignoreStandalone
          flags
        let compiler ← match zendHashFind ht internedKnownHelpers with
          | some entry => do
              let list ← orFault (compilerKnownHelpersFromZval entry)
              pure { compiler with knownHelpers := list }
          | none => pure compiler
        let flags := setIfTrue ht internedKnownHelpersOnly .knownHelpersOnly
          flags
        let flags := setIfTrue ht internedPreventIndent .preventIndent flags
        let flags := setIfTrue ht internedStringParams .stringParams flags
        let flags := setIfTrue ht internedTrackIds .trackIds flags
        let flags := setIfTrue ht internedStrict .strict flags
        let flags := setIfTrue ht internedAssumeObjects .assumeObjects flags
        let flags := setIfTrue ht internedMustacheStyleLambdas
          .mustacheStyleLambdas flags
        return (flags, { compiler with flags := flags },
          vm.map fun vm => { vm with flags := flags })

/-! ## What the options amount to -/

@[simp] theorem orFault_ok {α : Type} (a : α) :
    orFault (.ok a : Except Fault α) = .ok a := rfl

@[simp] theorem orFault_error {α : Type} (fault : Fault) :
    orFault (.error fault : Except Fault α) = .error (.fault fault) := rfl

@[simp] theorem orRaise_ok {α : Type} (a : α) :
    orRaise (.ok a : Except LibError α) = .ok a := rfl

@[simp] theorem orRaise_error {α : Type} (error : LibError) :
    orRaise (.error error : Except LibError α) = .error (.raised error) := rfl

def optionTable : Option Zval → Option HashTable
  | some (.array table) => some table
  | _ => none

def bucketName : ArrayKey × Zval → Option Bytes
  | (_, .string value) => some (strndup value)
  | (.string name, _) => some (strndup name)
  | (.index _, _) => none

/-- The list made of the option `knownHelpers`; none is NULL. -/
def knownHelperList : Zval → Option (List Bytes)
  | .array [] => none
  | .array buckets => some (buckets.filterMap bucketName)
  | _ => none

theorem knownHelperName_eq (bucket : ArrayKey × Zval) :
    knownHelperName bucket = .ok (bucketName bucket) := by
  obtain ⟨key, entry⟩ := bucket
  cases entry <;> cases key <;> rfl

theorem compilerKnownHelpersFromZval_eq (arr : Zval) :
    compilerKnownHelpersFromZval arr = .ok (knownHelperList arr) := by
  cases arr with
  | array buckets =>
      have hnames : ∀ buckets : HashTable,
          buckets.mapM knownHelperName = .ok (buckets.map bucketName) := by
        intro buckets
        induction buckets with
        | nil => rfl
        | cons bucket rest ih =>
            rw [List.mapM_cons, knownHelperName_eq, ih]
            rfl
      cases buckets with
      | nil => rfl
      | cons bucket rest =>
          have hlist := hnames (bucket :: rest)
          simp only [compilerKnownHelpersFromZval, Zval.zType, ne_eq,
            not_true_eq_false, if_false, Zval.arrval]
          change (List.mapM knownHelperName (bucket :: rest) >>= _) = _
          rw [hlist]
          simp [knownHelperList, bind, Except.bind, List.filterMap_map,
            pure, Except.pure]
  | _ => rfl

theorem knownHelperList_eq_none_iff (arr : Zval) :
    knownHelperList arr = none ↔
      arr.zType ≠ .isArray ∨ arr = .array [] := by
  cases arr with
  | array buckets => cases buckets <;> simp [knownHelperList, Zval.zType]
  | _ => simp [knownHelperList, Zval.zType]

/-- The entry of the option `data` which is to become the data of the VM. -/
def dataEntry (table : HashTable) : Option Zval :=
  match zendHashFind table internedData with
  | some entry =>
      if ¬ entry.isBool ∧ entry.zType ≠ .isNull then some entry else none
  | none => none

def dataFlag (table : HashTable) (flags : Flags) : Flags :=
  if (dataEntry table).isSome then insert .useData flags
  else setIfTrue table internedData .useData flags

theorem processData_none (table : HashTable) (flags : Flags) :
    processData table none flags = .ok (none, dataFlag table flags) := by
  unfold processData dataFlag dataEntry setIfTrue
  cases zendHashFind table internedData with
  | none => rfl
  | some entry =>
      by_cases hvalue : ¬ entry.isBool ∧ entry.zType ≠ .isNull
      · simp only [if_pos hvalue]
        rfl
      · simp only [if_neg hvalue]
        by_cases htrue : entry.isTrue <;> simp [htrue, pure, Except.pure]

theorem processData_some
    (table : HashTable) (vm : VmConfig) (flags : Flags) :
    processData table (some vm) flags =
      match dataEntry table with
      | some entry =>
          (handlebarsValueFromZval entry .null).map fun value =>
            (some { vm with data := some value }, dataFlag table flags)
      | none => .ok (some vm, dataFlag table flags) := by
  unfold processData dataFlag dataEntry setIfTrue
  cases zendHashFind table internedData with
  | none => rfl
  | some entry =>
      by_cases hvalue : ¬ entry.isBool ∧ entry.zType ≠ .isNull
      · simp only [if_pos hvalue]
        cases handlebarsValueFromZval entry .null <;> rfl
      · simp only [if_neg hvalue]
        by_cases htrue : entry.isTrue <;> simp [htrue, pure, Except.pure]

def optionFlags (options : Option Zval) : Flags :=
  match optionTable options with
  | none => ∅
  | some ht =>
      setIfTrue ht internedMustacheStyleLambdas .mustacheStyleLambdas <|
      setIfTrue ht internedAssumeObjects .assumeObjects <|
      setIfTrue ht internedStrict .strict <|
      setIfTrue ht internedTrackIds .trackIds <|
      setIfTrue ht internedStringParams .stringParams <|
      setIfTrue ht internedPreventIndent .preventIndent <|
      setIfTrue ht internedKnownHelpersOnly .knownHelpersOnly <|
      setIfTrue ht internedIgnoreStandalone .ignoreStandalone <|
      setIfTrue ht internedExplicitPartialContext .explicitPartialContext <|
      dataFlag ht <|
      setIfTrue ht internedCompat .compat <|
      setIfTrue ht internedAlternateDecorators .alternateDecorators ∅

def optionKnownHelpers (options : Option Zval) (known : Option (List Bytes)) :
    Option (List Bytes) :=
  match optionTable options with
  | none => known
  | some ht =>
      match zendHashFind ht internedKnownHelpers with
      | some entry => knownHelperList entry
      | none => known

theorem optionKnownHelpers_ne_none_iff
    (options : Option Zval) (known : List Bytes) :
    optionKnownHelpers options (some known) ≠ none ↔
      ∀ table entry, options = some (.array table) →
        zendHashFind table internedKnownHelpers = some entry →
          entry.zType = .isArray ∧ entry ≠ .array [] := by
  unfold optionKnownHelpers
  cases htable : optionTable options with
  | none =>
      apply iff_of_true (by simp)
      rintro table entry rfl
      simp [optionTable] at htable
  | some table =>
      obtain rfl : options = some (.array table) := by
        unfold optionTable at htable
        split at htable
        next => rw [Option.some.inj htable]
        next => simp at htable
      simp only
      cases hfind : zendHashFind table internedKnownHelpers with
      | none =>
          apply iff_of_true (by simp)
          rintro table' entry ⟨rfl⟩ hentry
          simp [hfind] at hentry
      | some entry =>
          simp only [ne_eq, knownHelperList_eq_none_iff, not_or, not_not]
          constructor
          · rintro hlist table' entry' ⟨rfl⟩ hentry
            rw [hfind] at hentry
            obtain rfl := Option.some.inj hentry
            exact hlist
          · intro hall
            exact hall table entry rfl hfind

/-- The value an options argument has for the data of a VM, converted. -/
def optionData (options : Option Zval) : Option (Except LibError Value) :=
  match optionTable options with
  | none => none
  | some ht => (dataEntry ht).map fun entry =>
      handlebarsValueFromZval entry .null

def dataError (options : Option Zval) : Option LibError :=
  match optionData options with
  | some (.error error) => some error
  | _ => none

def optionVm (options : Option Zval) (vm : VmConfig) : VmConfig :=
  match optionTable options with
  | none => vm
  | some _ =>
      { data := match optionData options with
          | some (.ok value) => some value
          | _ => vm.data
        flags := optionFlags options }

theorem processOptionsZval_without_vm
    (compiler : Compiler) (options : Option Zval) :
    processOptionsZval compiler none options =
      .ok (optionFlags options,
        ⟨optionFlags options,
          optionKnownHelpers options compiler.knownHelpers⟩, none) := by
  cases options with
  | none => rfl
  | some options =>
      cases options with
      | array ht =>
          unfold processOptionsZval
          simp only [Zval.zType, ne_eq, not_true_eq_false, if_false,
            Zval.arrval, orFault_ok, processData_none, orRaise_ok, bind,
            Except.bind, compilerKnownHelpersFromZval_eq, optionFlags,
            optionKnownHelpers, optionTable]
          cases zendHashFind ht internedKnownHelpers <;> rfl
      | _ => rfl

theorem processOptionsZval_with_vm
    (compiler : Compiler) (vm : VmConfig) (options : Option Zval) :
    processOptionsZval compiler (some vm) options =
      match dataError options with
      | some error => .error (.raised error)
      | none => .ok (optionFlags options,
          ⟨optionFlags options,
            optionKnownHelpers options compiler.knownHelpers⟩,
          some (optionVm options vm)) := by
  cases options with
  | none => rfl
  | some options =>
      cases options with
      | array ht =>
          unfold processOptionsZval dataError optionVm optionData
          simp only [Zval.zType, ne_eq, not_true_eq_false, if_false,
            Zval.arrval, orFault_ok, processData_some, bind, Except.bind,
            compilerKnownHelpersFromZval_eq, optionFlags, optionKnownHelpers,
            optionTable]
          cases hentry : dataEntry ht with
          | none => cases zendHashFind ht internedKnownHelpers <;> rfl
          | some entry =>
              simp only [Option.map_some]
              cases hconvert : handlebarsValueFromZval entry .null with
              | error error => rfl
              | ok value =>
                  cases zendHashFind ht internedKnownHelpers <;> rfl
      | _ => rfl

theorem optionData_eq_none_of_flags
    {options : Option Zval} (hflags : optionFlags options = ∅) :
    optionData options = none := by
  unfold optionData
  cases htable : optionTable options with
  | none => rfl
  | some ht =>
      have hmono : ∀ name flag (flags : Flags),
          CompilerFlag.useData ∈ flags →
            CompilerFlag.useData ∈ setIfTrue ht name flag flags := by
        intro name flag flags hmem
        unfold setIfTrue
        split
        · split
          · exact Finset.mem_insert_of_mem hmem
          · exact hmem
        · exact hmem
      cases hentry : dataEntry ht with
      | none => simp [hentry]
      | some entry =>
          have hdata : ∀ flags : Flags,
              CompilerFlag.useData ∈ dataFlag ht flags := by
            intro flags
            simp [dataFlag, hentry]
          have hmem : CompilerFlag.useData ∈ optionFlags options := by
            unfold optionFlags
            rw [htable]
            iterate 9 apply hmono
            exact hdata _
          simp [hflags] at hmem

theorem optionVm_of_flags
    {options : Option Zval} (hflags : optionFlags options = ∅) :
    optionVm options .fresh = .fresh := by
  unfold optionVm
  rw [optionData_eq_none_of_flags hflags, hflags]
  cases optionTable options <;> rfl

theorem optionVm_flags (options : Option Zval) :
    (optionVm options .fresh).flags = optionFlags options := by
  unfold optionVm optionFlags
  cases optionTable options <;> rfl

/-! ## Iterating over the registered helpers -/

/-- What one pass of `HANDLEBARS_VALUE_FOREACH` delivers: the keys as the
iterator left them, whether it ended at an element whose conversion raises an
error, and the exception user code threw during it. -/
structure Pass where
  keys : List (Option Bytes)
  failed : Bool
  thrown : Option Exception

def Pass.empty : Pass := ⟨[], false, none⟩

/-- `handlebars_std_zval_iterator_array` leaves no key for an integer. -/
def iteratorKey : ArrayKey → Option Bytes
  | .string name => some name
  | .index _ => none

def arrayPass : HashTable → Pass
  | [] => .empty
  | (key, entry) :: rest =>
      if entry.zType.Convertible then
        { arrayPass rest with
          keys := iteratorKey key :: (arrayPass rest).keys }
      else
        ⟨[], true, none⟩

/-- `intern->helpers` or `intern->partials` of a VM object.  An object runs
code of its own when it is iterated, so what its two passes deliver is kept
with it; that code is taken not to call the extension. -/
structure Registry where
  value : Value
  objectPass : Pass
  objectPass' : Pass

def Registry.pass (registry : Registry) (objectPass : Pass) : Pass :=
  match registry.value with
  | .user (.array buckets) => arrayPass buckets
  | .user (.object _) => objectPass
  | .array elements => ⟨elements.map fun _ => none, false, none⟩
  | .map entries => ⟨entries.map fun entry => some entry.1, false, none⟩
  | _ => .empty

def Registry.firstPass (registry : Registry) : Pass :=
  registry.pass registry.objectPass

def Registry.secondPass (registry : Registry) : Pass :=
  registry.pass registry.objectPass'

/-- `HBS_STR_STRL(key)`. -/
def derefKey : Option Bytes → Except Fault Bytes
  | some key => return key
  | none => .error .nullKey

/-- A conversion error in an iterator is raised on the context of the wrapped
cell, which is NULL. -/
def Pass.finish (pass : Pass) : Except Fault Unit :=
  if pass.failed then .error .nullContext else return ()

/-- The array `php_handlebars_fetch_known_helpers` allocates, and what it
stores from index 0 on. -/
structure KnownHelperArray where
  slots : ℕ
  stored : List (Option Bytes)

def fetchKnownHelpers (compiler : Compiler) (helpers : Registry) :
    Except Fault (Compiler × KnownHelperArray) := do
  let orig ← match compiler.knownHelpers with
    | some orig => pure orig
    | none => .error .nullKnownHelpers
  helpers.firstPass.finish
  let num := orig.length + helpers.firstPass.keys.length
  let names ← helpers.secondPass.keys.mapM derefKey
  helpers.secondPass.finish
  let knownHelpers := orig ++ names.map strndup
  return ({ compiler with knownHelpers := some knownHelpers },
    ⟨num + 1, knownHelpers.map some ++ [none]⟩)

theorem mapM_derefKey (keys : List (Option Bytes)) :
    keys.mapM derefKey =
      if none ∈ keys then .error .nullKey else .ok keys.reduceOption := by
  induction keys with
  | nil => rfl
  | cons key rest ih =>
      rw [List.mapM_cons, ih]
      cases key with
      | none => simp [derefKey, bind, Except.bind]
      | some key =>
          by_cases hmem : none ∈ rest <;>
            simp [hmem, derefKey, bind, Except.bind, pure, Except.pure,
              List.reduceOption_cons_of_some]

/-- The ways the two passes can go wrong, in the order in which they show. -/
theorem fetchKnownHelpers_eq (compiler : Compiler) (helpers : Registry) :
    fetchKnownHelpers compiler helpers =
      match compiler.knownHelpers with
      | none => .error .nullKnownHelpers
      | some orig =>
          if helpers.firstPass.failed then .error .nullContext
          else if none ∈ helpers.secondPass.keys then .error .nullKey
          else if helpers.secondPass.failed then .error .nullContext
          else
            let known :=
              orig ++ helpers.secondPass.keys.reduceOption.map strndup
            .ok ({ compiler with knownHelpers := some known },
              ⟨orig.length + helpers.firstPass.keys.length + 1,
                known.map some ++ [none]⟩) := by
  unfold fetchKnownHelpers Pass.finish
  rw [mapM_derefKey]
  cases compiler.knownHelpers with
  | none => rfl
  | some orig =>
      by_cases hfirst : helpers.firstPass.failed
      · simp [hfirst, bind, Except.bind, pure, Except.pure]
      · by_cases hkey : none ∈ helpers.secondPass.keys
        · simp [hfirst, hkey, bind, Except.bind, pure, Except.pure]
        · by_cases hsecond : helpers.secondPass.failed <;>
            simp [hfirst, hkey, hsecond, bind, Except.bind, pure, Except.pure]

theorem fetchKnownHelpers_unchanged_iff
    (compiler : Compiler) (helpers : Registry) :
    (∃ stored, fetchKnownHelpers compiler helpers =
        .ok (compiler, stored)) ↔
      compiler.knownHelpers ≠ none ∧ helpers.firstPass.failed = false ∧
        helpers.secondPass.failed = false ∧ helpers.secondPass.keys = [] := by
  rw [fetchKnownHelpers_eq]
  obtain ⟨flags, known⟩ := compiler
  cases known with
  | none => simp
  | some orig =>
      cases hfirst : helpers.firstPass.failed with
      | true => simp
      | false =>
          by_cases hkey : none ∈ helpers.secondPass.keys
          · have hne : helpers.secondPass.keys ≠ [] := List.ne_nil_of_mem hkey
            simp [hkey, hne]
          · have hempty : helpers.secondPass.keys.reduceOption = [] ↔
                helpers.secondPass.keys = [] := by
              constructor
              · intro hnil
                obtain ⟨count, hcount⟩ :=
                  (List.reduceOption_eq_nil_iff _).mp hnil
                cases count with
                | zero => simpa using hcount
                | succ count => simp [hcount] at hkey
              · intro hnil
                simp [hnil]
            cases hsecond : helpers.secondPass.failed with
            | true => simp [hkey]
            | false => simpa [hkey] using hempty

theorem fetchKnownHelpers_flags
    {compiler compiler' : Compiler} {helpers : Registry}
    {stored : KnownHelperArray}
    (hfetch : fetchKnownHelpers compiler helpers =
      .ok (compiler', stored)) :
    compiler'.flags = compiler.flags := by
  rw [fetchKnownHelpers_eq] at hfetch
  split at hfetch
  next => simp at hfetch
  next =>
    split_ifs at hfetch
    obtain ⟨rfl, _⟩ := Prod.mk.inj (Except.ok.inj hfetch)
    rfl

/-- The exception left pending by the two passes: user code does not run
again once one is pending. -/
def Registry.thrown (registry : Registry) : Option Exception :=
  registry.firstPass.thrown <|> registry.secondPass.thrown

end PhpHandlebars
