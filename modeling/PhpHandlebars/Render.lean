import PhpHandlebars.BinaryTemplate
import PhpHandlebars.CallTree
import PhpHandlebars.CompilerOptions
import PhpHandlebars.Ledger
import Mathlib.Logic.Function.Basic
import Mathlib.Tactic

/-!
# Rendering

`compile` and `render` of the VM class, with the template cache, the file
system and the clock they use.  Execution belongs to libhandlebars; it is a
tree of what PHP helpers do on the way: further calls of the render methods
and writes of files.

Two ledgers are kept beside the results: the leases a call takes on modules
in the cache, and the references it takes on strings which outlive it.
-/

namespace PhpHandlebars

/-- What a module was made from.  No code reads it. -/
inductive ModuleSource where
  | compiled (template : Bytes) (flags : Flags)
      (knownHelpers : Option (List Bytes))
  | loaded (data : Bytes)
  deriving DecidableEq

/-- A module: the image an execution reads, and the second in which it was
made. -/
structure Module where
  image : Bytes
  ts : ℕ
  source : ModuleSource
  deriving DecidableEq

structure File where
  content : Bytes
  mtime : ℕ

/-- The state all render calls of a process share.  The cache may have lost
an entry: `drops` says which lookups come back empty all the same. -/
structure Process where
  /-- `HANDLEBARS_G(cache)`, or NULL -/
  cache : Option (Bytes → Option Module)
  /-- `HANDLEBARS_G(cache_stat)` -/
  cacheStat : Bool
  /-- the file `php_stat` has found last, with its modification time then -/
  statCache : Option (Bytes × ℕ)
  files : Bytes → Option File
  clock : ℕ
  finds : ℕ
  drops : ℕ → Bool

inductive InputType where
  | string
  | filename
  | binary
  deriving DecidableEq

/-- A call of `render`, `renderFile` or `renderFromBinaryString`.  An absent
argument is NULL; an explicit null is a `zval`. -/
structure Call where
  type : InputType
  input : Bytes
  context : Option Zval
  options : Option Zval
  helpers : Registry
  partials : Value

/-- The return value, and `EG(exception)` on return. -/
structure CallResult where
  output : Option Bytes
  pending : Option Exception
  deriving DecidableEq

/-- What PHP code run by an execution does. -/
inductive Action where
  | render (call : Call)
  | sleep (seconds : ℕ)
  | write (name content : Bytes)

/-- How `handlebars_vm_execute` ends: with a buffer, which may be NULL, or
with an error. -/
structure ExecutionEnd where
  outcome : Except LibError (Option Bytes)
  pending : Option Exception

abbrev Execution := CallTree Action CallResult ExecutionEnd

structure ExecutionInput where
  image : Bytes
  context : Value
  helpers : Value
  partials : Value
  data : Option Value
  flags : Flags
  pending : Option Exception

/-- The functions of libhandlebars which the VM class calls.  The cache which
`handlebars_vm_set_cache` hands over is left out: an execution is taken to
look up and to store no partials in it. -/
structure Library where
  format : ModuleFormat
  Ast : Type
  Program : Type
  builtinHelpers : List Bytes
  preprocessDelimiters : Bytes → Except LibError Bytes
  parseEx : Bytes → Flags → Except LibError Ast
  compileEx : Ast → Flags → Option (List Bytes) → Except LibError Program
  serialize : Program → Except LibError Bytes
  execute : ExecutionInput → Execution
  normalizePointers : Bytes → ℕ → WellFormedModule format
  patchPointers : Bytes → Bytes
  moduleTs : Bytes → ℕ
  /-- Patching the pointers undoes normalizing them. -/
  patch_normalize : ∀ program image ts, serialize program = .ok image →
    patchPointers (normalizePointers image ts).bytes = image
  /-- memory behind a string of the caller -/
  pastEnd : ℕ → UInt8

/-- Strings with references: the input string, a `cacheId` string, the
contents of a file, and the output of the delimiter preprocessor, which is
taken to be a string of its own, never the one given to it. -/
inductive StringRef where
  | input
  | cacheId
  | contents
  | preprocessed
  deriving DecidableEq

/-! ## Compiling -/

/-- The compiler before parsing: `compile` up to the preprocessor. -/
def Library.configure (lib : Library) (vm : Option VmConfig)
    (helpers : Option Registry) (options : Option Zval) :
    Except Stop (Flags × Compiler × Option VmConfig × Option Exception) := do
  let (flags, compiler, vm) ←
    processOptionsZval ⟨∅, some lib.builtinHelpers⟩ vm options
  match vm, helpers with
  | some _, some helpers => do
      let (compiler, _) ← orFault (fetchKnownHelpers compiler helpers)
      return (flags, compiler, vm, helpers.thrown)
  | _, _ => return (flags, compiler, vm, none)

/-- The stages of `compile`, each with the exception class which
`php_handlebars_try` has set for it. -/
def Library.pipeline (lib : Library) (tmpl : Bytes) (flags : Flags)
    (compiler : Compiler) : Except (ExceptionClass × LibError) Bytes := do
  let tmpl ← Except.mapError (Prod.mk .runtimeException) <|
    if .compat ∈ flags then lib.preprocessDelimiters tmpl else return tmpl
  let ast ← Except.mapError (Prod.mk .compileException) <|
    lib.parseEx tmpl compiler.flags
  let program ← Except.mapError (Prod.mk .compileException) <|
    lib.compileEx ast compiler.flags compiler.knownHelpers
  Except.mapError (Prod.mk .compileException) <| lib.serialize program

structure CompileResult where
  module : Option Module
  vm : Option VmConfig
  pending : Option Exception
  refs : Ledger StringRef

/-- `compile`; the module is NULL after an error. -/
def compile (lib : Library) (now : ℕ) (vm : Option VmConfig)
    (tmplRef : StringRef) (tmpl : Bytes) (helpers : Option Registry)
    (options : Option Zval) : Except Fault CompileResult :=
  match lib.configure vm helpers options with
  | .error (.fault fault) => .error fault
  | .error (.raised error) =>
      return ⟨none, vm, phpHandlebarsThrow .runtimeException error none, []⟩
  | .ok (flags, compiler, vm, pending) =>
      match lib.pipeline tmpl flags compiler with
      | .error (cls, error) =>
          -- the longjmp skips the release of the template
          return ⟨none, vm, phpHandlebarsThrow cls error pending,
            [.acquire tmplRef]⟩
      | .ok image =>
          let module : Module :=
            ⟨image, now, .compiled tmpl flags compiler.knownHelpers⟩
          -- `tmpl` may have been assigned the preprocessed string
          let tmplRef' := if .compat ∈ flags then .preprocessed else tmplRef
          return ⟨some module, vm, pending,
            [.acquire tmplRef, .release tmplRef']⟩

/-- `HandlebarsVM::compile`. -/
def vmCompile (lib : Library) (now : ℕ) (tmpl : Bytes)
    (options : Option Zval) : Except Fault CallResult := do
  let result ← compile lib now none .input tmpl none options
  match result.module with
  | none => return ⟨none, result.pending⟩
  | some module =>
      let bytes := (lib.normalizePointers module.image module.ts).bytes
      return ⟨some (enc lib.format bytes), result.pending⟩

/-! ## The stages of `render` -/

/-- The default cache id: none for a binary string, else the input itself. -/
def Call.defaultCacheId (call : Call) : Option (StringRef × Bytes) :=
  if call.type = .binary then none else some (.input, call.input)

def selectCacheId (call : Call) : Except Fault (Option (StringRef × Bytes)) :=
  match call.options with
  | none => return call.defaultCacheId
  | some options => do
      let table ← options.arrval
      match zendHashFind table internedCacheId with
      | some (.string id) => return some (.cacheId, id)
      | _ => return call.defaultCacheId

/-- `handlebars_cache_find`: the module last added under the id, or nothing. -/
def Process.cacheFind (process : Process) (id : Bytes) : Option Module :=
  if process.drops process.finds then none
  else process.cache.bind fun store => store id

def Process.cacheAdd (process : Process) (id : Bytes) (module : Module) :
    Process :=
  { process with
    cache := process.cache.map fun store =>
      Function.update store id (some module) }

/-- `php_stat` with `FS_MTIME`.  PHP asks for another file only: a write does
not clear its stat cache. -/
def Process.phpStat (process : Process) (name : Bytes) : Option ℕ :=
  match process.statCache.filter fun cached => cached.1 = name with
  | some (_, mtime) => some mtime
  | none => (process.files name).map File.mtime

/-- The modification time which `php_stat` leaves in `zstat`. -/
def Process.mtime (process : Process) (name : Bytes) : ℕ :=
  (process.phpStat name).getD 0

/-- A file which is not found is not remembered. -/
def Process.statCacheAfter (process : Process) (name : Bytes) :
    Option (Bytes × ℕ) :=
  match process.phpStat name with
  | some mtime => some (name, mtime)
  | none => process.statCache

def Process.looksAtFile (process : Process) (call : Call) : Bool :=
  call.type = .filename ∧ process.cacheStat

def Process.isStale (process : Process) (call : Call) (module : Module) :
    Bool :=
  process.looksAtFile call ∧ module.ts < process.mtime call.input

def Process.stat (process : Process) (call : Call) : Process :=
  { process with
    statCache :=
      if process.looksAtFile call then process.statCacheAfter call.input
      else process.statCache }

/-- The process after a module was found for the call. -/
def Process.found (process : Process) (call : Call) : Process :=
  { process.stat call with finds := process.finds + 1 }

/-- Key of a lease: the arguments of `handlebars_cache_release`. -/
abbrev LeaseKey := Option Bytes × Option Module

structure Lookup where
  process : Process
  module : Option Module
  fromCache : Bool
  leases : Ledger LeaseKey

def lookupCache (process : Process) (call : Call) (cacheId : Option Bytes) :
    Lookup :=
  match process.cache, cacheId with
  | some _, some id =>
      match process.cacheFind id with
      | none => ⟨{ process with finds := process.finds + 1 }, none, false, []⟩
      | some module =>
          let key : LeaseKey := (some id, some module)
          if process.isStale call module then
            -- `from_cache = false` is overwritten by the assignment below it
            ⟨process.found call, none, true, [.acquire key, .release key]⟩
          else
            ⟨process.found call, some module, true, [.acquire key]⟩
  | _, _ => ⟨process, none, false, []⟩

structure Obtained where
  process : Process
  module : Option Module
  vm : VmConfig
  pending : Option Exception
  refs : Ledger StringRef

/-- The cache entry is saved behind both ways of making a module. -/
def saveCacheEntry (process : Process) (cacheId : Option Bytes)
    (module : Module) : Process :=
  match cacheId with
  | some id => process.cacheAdd id module
  | none => process

def failedToRead : LibError where
  num := .other 0
  message := "Failed to read input template file"

def compileTemplate (lib : Library) (process : Process) (call : Call)
    (cacheId : Option Bytes) (tmplRef : StringRef) (tmpl : Bytes) :
    Except Fault Obtained := do
  let result ← compile lib process.clock (some .fresh) tmplRef tmpl
    (some call.helpers) call.options
  let process := match result.module with
    | some module => saveCacheEntry process cacheId module
    | none => process
  return ⟨process, result.module, result.vm.getD .fresh, result.pending,
    result.refs⟩

def obtainModule (lib : Library) (process : Process) (call : Call)
    (cacheId : Option Bytes) (found : Option Module) :
    Except Fault Obtained :=
  match found with
  | some module => return ⟨process, some module, .fresh, none, []⟩
  | none =>
      match call.type with
      | .string => compileTemplate lib process call cacheId .input call.input
      | .filename =>
          match process.files call.input with
          | none =>
              return ⟨process, none, .fresh,
                zendThrowException .runtimeException failedToRead.message
                  failedToRead.num none, []⟩
          | some file =>
              compileTemplate lib process call cacheId .contents file.content
      | .binary =>
          match (verifyAndLoadModule lib.format lib.pastEnd call.input).2 with
          | .error error =>
              return ⟨process, none, .fresh,
                zendThrowException .invalidBinaryStringException error.message
                  (.other 0) none, []⟩
          | .ok data =>
              let module : Module :=
                ⟨lib.patchPointers data, lib.moduleTs data, .loaded data⟩
              return ⟨saveCacheEntry process cacheId module, some module,
                .fresh, none, []⟩

/-! ## Whole calls -/

inductive Halt where
  | outOfFuel
  | fault (fault : Fault)
  deriving DecidableEq

/-- Calls in the order in which they are entered and left, with the state
each one found. -/
inductive CallEvent where
  | enter (call : Call) (before : Process)
  | leave (call : Call) (before : Process) (leases : Ledger LeaseKey)
      (refs : Ledger StringRef) (result : CallResult)

structure World where
  process : Process
  leases : Ledger LeaseKey
  events : List CallEvent

def World.start (process : Process) : World := ⟨process, [], []⟩

abbrev Callee := World → Call → World × Except Halt CallResult

def World.sleep (world : World) (seconds : ℕ) : World :=
  { world with
    process := { world.process with clock := world.process.clock + seconds } }

/-- A write sets the modification time to the current second. -/
def Process.write (process : Process) (name content : Bytes) : Process :=
  { process with
    files := Function.update process.files name
      (some ⟨content, process.clock⟩) }

def World.write (world : World) (name content : Bytes) : World :=
  { world with process := world.process.write name content }

def handleAction (callee : Callee) :
    CallTree.Handler Action CallResult World Halt
  | world, .render call => callee world call
  | world, .sleep seconds => (world.sleep seconds, .ok ⟨none, none⟩)
  | world, .write name content =>
      (world.write name content, .ok ⟨none, none⟩)

def ExecutionEnd.result (finish : ExecutionEnd) : CallResult :=
  match finish.outcome with
  | .error error =>
      ⟨none, phpHandlebarsThrow .runtimeException error finish.pending⟩
  | .ok buffer =>
      ⟨if finish.pending.isNone then buffer else none, finish.pending⟩

def Call.contextValue (call : Call) : Except LibError Value :=
  match call.context with
  | some context => handlebarsValueFromZval context.deref .null
  | none => .ok .null

def Obtained.executionInput (obtained : Obtained) (call : Call)
    (module : Module) (context : Value) : ExecutionInput where
  image := module.image
  context := context
  helpers := call.helpers.value
  partials := call.partials
  data := obtained.vm.data
  flags := obtained.vm.flags
  pending := obtained.pending

/-- The context conversion and the execution, under the handler of `render`. -/
def executeModule (lib : Library) (callee : Callee) (world : World)
    (call : Call) (obtained : Obtained) : World × Except Halt CallResult :=
  match obtained.module with
  | none => (world, .ok ⟨none, obtained.pending⟩)
  | some module =>
      match call.contextValue with
      | .error error =>
          (world, .ok ⟨none,
            phpHandlebarsThrow .runtimeException error obtained.pending⟩)
      | .ok context =>
          let input := obtained.executionInput call module context
          match (lib.execute input).run (handleAction callee) world with
          | (world, .error halt) => (world, .error halt)
          | (world, .ok finish) => (world, .ok finish.result)

/-- What the label `done` releases in the cache. -/
def releaseLease (fromCache : Bool) (cacheId : Option Bytes)
    (module : Option Module) : Ledger LeaseKey :=
  if fromCache then [.release (cacheId, module)] else []

def stringRefs (cacheId : Option (StringRef × Bytes))
    (inner : Ledger StringRef) : Ledger StringRef :=
  let held := .input :: (cacheId.map Prod.fst).toList
  held.map .acquire ++ inner ++ held.map .release

def World.enter (world : World) (call : Call) : World :=
  { world with events := world.events ++ [.enter call world.process] }

def World.look (world : World) (lookup : Lookup) : World :=
  { world with
    process := lookup.process
    leases := world.leases ++ lookup.leases }

def World.obtain (world : World) (obtained : Obtained) : World :=
  { world with process := obtained.process }

/-- The end of a call which found `before` and made `lookup` of it. -/
def World.leave (world : World) (call : Call) (before : Process)
    (cacheId : Option (StringRef × Bytes)) (lookup : Lookup)
    (obtained : Obtained) (result : CallResult) : World :=
  let released := releaseLease lookup.fromCache (cacheId.map Prod.snd)
    obtained.module
  { world with
    leases := world.leases ++ released
    events := world.events ++
      [.leave call before (lookup.leases ++ released)
        (stringRefs cacheId obtained.refs) result] }

/-- `render`, when nested calls are answered by `callee`. -/
def renderWith (lib : Library) (callee : Callee) (world : World)
    (call : Call) : World × Except Halt CallResult :=
  match selectCacheId call with
  | .error fault => (world.enter call, .error (.fault fault))
  | .ok cacheId =>
      let id := cacheId.map Prod.snd
      let lookup := lookupCache world.process call id
      let looked := (world.enter call).look lookup
      match obtainModule lib lookup.process call id lookup.module with
      | .error fault => (looked, .error (.fault fault))
      | .ok obtained =>
          match executeModule lib callee (looked.obtain obtained) call
              obtained with
          | (executed, .error halt) => (executed, .error halt)
          | (executed, .ok result) =>
              (executed.leave call world.process cacheId lookup obtained
                result, .ok result)

/-- `render`, with a bound on the nesting of calls. -/
def render (lib : Library) : ℕ → Callee
  | 0 => fun world _ => (world, .error .outOfFuel)
  | fuel + 1 => renderWith lib (render lib fuel)

/-- PHP code which calls the extension and writes files. -/
abbrev Script := CallTree Action CallResult Unit

def runScript (lib : Library) (fuel : ℕ) (script : Script)
    (world : World) : World × Except Halt Unit :=
  script.run (handleAction (render lib fuel)) world

/-! ## A sample library -/

/-- Templates compile to their first byte, which is what they render. -/
def sampleLibrary : Library where
  format := sampleFormat
  Ast := Bytes
  Program := UInt8
  builtinHelpers := [ascii "if"]
  preprocessDelimiters := .ok
  parseEx := fun tmpl _ => .ok tmpl
  compileEx := fun ast _ _ => .ok (ast.headD 0)
  serialize := fun program => .ok [program]
  execute := fun input => .done ⟨.ok (some input.image), input.pending⟩
  normalizePointers := fun image _ => sampleModule (image.headD 0)
  patchPointers := fun bytes => bytes.drop sampleFormat.headerSize
  moduleTs := fun _ => 0
  patch_normalize := by
    rintro program image ts ⟨rfl⟩
    rfl
  pastEnd := fun _ => 0

theorem sampleLibrary_pipeline
    (tmpl : Bytes) (flags : Flags) (compiler : Compiler) :
    sampleLibrary.pipeline tmpl flags compiler = .ok [tmpl.headD 0] := by
  unfold Library.pipeline
  split <;> rfl

def sampleProcess : Process where
  cache := some fun _ => none
  cacheStat := true
  statCache := none
  files := fun name => if name = ascii "f" then some ⟨ascii "b", 5⟩ else none
  clock := 5
  finds := 0
  drops := fun _ => false

def sampleCall (type : InputType) (input : Bytes) : Call where
  type := type
  input := input
  context := none
  options := none
  helpers := ⟨.null, .empty, .empty⟩
  partials := .null

end PhpHandlebars
