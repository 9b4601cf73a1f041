import PhpHandlebars.RenderRun
import Mathlib.Tactic

/-!
# Precompiled and direct rendering

`VM::compile` configures the compiler without a VM and without registered
helpers, and `VM::renderFromBinaryString` jumps over the compiler, which is
where the VM gets its data and its flags.  The two routes from a template to
its output agree for every library exactly when neither omission shows.
-/

namespace PhpHandlebars

variable {lib : Library} {callee : Callee}

/-! ## The two routes -/

def Call.direct (call : Call) : Call := { call with type := .string }

def Call.precompiled (call : Call) (binary : Bytes) : Call :=
  { call with type := .binary, input := binary }

theorem pipeline_serialized
    {tmpl : Bytes} {flags : Flags} {compiler : Compiler} {image : Bytes}
    (hpipeline : lib.pipeline tmpl flags compiler = .ok image) :
    ∃ program, lib.serialize program = .ok image := by
  unfold Library.pipeline at hpipeline
  have hmap : ∀ {α : Type} {cls : ExceptionClass} {x : Except LibError α}
      {a : α}, Except.mapError (Prod.mk cls) x = .ok a → x = .ok a := by
    intro α cls x a hx
    cases x <;> simp [Except.mapError] at hx ⊢
    exact hx
  have hbind : ∀ {α β : Type} {x : Except (ExceptionClass × LibError) α}
      {f : α → Except (ExceptionClass × LibError) β} {b : β},
      x >>= f = .ok b → ∃ a, x = .ok a ∧ f a = .ok b := by
    intro α β x f b hx
    cases x with
    | error error => simp [bind, Except.bind] at hx
    | ok a => exact ⟨a, rfl, hx⟩
  obtain ⟨_, _, hparse⟩ := hbind hpipeline
  obtain ⟨_, _, hcompile⟩ := hbind hparse
  obtain ⟨program, _, hserialize⟩ := hbind hcompile
  exact ⟨program, hmap hserialize⟩

/-- `VM::compile` runs the compiler as the options leave it. -/
theorem vmCompile_eq (lib : Library) (now : ℕ) (tmpl : Bytes)
    (options : Option Zval) :
    vmCompile lib now tmpl options =
      match lib.pipeline tmpl (optionFlags options)
          (lib.optionCompiler options) with
      | .error (cls, error) => .ok ⟨none, phpHandlebarsThrow cls error none⟩
      | .ok image =>
          .ok ⟨some (enc lib.format (lib.normalizePointers image now).bytes),
            none⟩ := by
  unfold vmCompile compile
  rw [configure_without_vm]
  simp only
  cases lib.pipeline tmpl (optionFlags options)
    (lib.optionCompiler options) <;>
    simp [bind, Except.bind, pure, Except.pure]

theorem compileTemplate_eq (lib : Library) (process : Process) (call : Call)
    (id : Option Bytes) (tmplRef : StringRef) (tmpl : Bytes) :
    compileTemplate lib process call id tmplRef tmpl =
      match dataError call.options with
      | some error => .ok ⟨process, none, .fresh,
          phpHandlebarsThrow .runtimeException error none, []⟩
      | none =>
          match fetchKnownHelpers (lib.optionCompiler call.options)
              call.helpers with
          | .error fault => .error fault
          | .ok (compiler, _) =>
              match lib.pipeline tmpl (optionFlags call.options)
                  compiler with
              | .error (cls, error) => .ok ⟨process, none,
                  optionVm call.options .fresh,
                  phpHandlebarsThrow cls error call.helpers.thrown,
                  [.acquire tmplRef]⟩
              | .ok image =>
                  let module : Module := ⟨image, process.clock, .compiled
                    tmpl (optionFlags call.options) compiler.knownHelpers⟩
                  .ok ⟨saveCacheEntry process id module, some module,
                    optionVm call.options .fresh, call.helpers.thrown,
                    [.acquire tmplRef, .release
                      (if .compat ∈ optionFlags call.options
                        then .preprocessed else tmplRef)]⟩ := by
  unfold compileTemplate compile
  rw [configure_with_vm]
  cases dataError call.options with
  | some error => rfl
  | none =>
      simp only
      cases fetchKnownHelpers (lib.optionCompiler call.options)
          call.helpers with
      | error fault => rfl
      | ok fetched =>
          simp only
          cases lib.pipeline tmpl (optionFlags call.options) fetched.1 <;>
            rfl

def loadedModule (lib : Library) (process : Process) (image : Bytes)
    (data : Bytes) : Obtained :=
  ⟨process, some ⟨image, lib.moduleTs data, .loaded data⟩, .fresh, none, []⟩

theorem obtainModule_precompiled
    {process : Process} {call : Call} {tmpl image : Bytes} {flags : Flags}
    {compiler : Compiler} {now : ℕ}
    (hpipeline : lib.pipeline tmpl flags compiler = .ok image) :
    obtainModule lib process (call.precompiled
        (enc lib.format (lib.normalizePointers image now).bytes)) none none =
      .ok (loadedModule lib process image
        (lib.normalizePointers image now).bytes) := by
  obtain ⟨program, hprogram⟩ := pipeline_serialized hpipeline
  have hload := loads_enc (lib.normalizePointers image now) lib.pastEnd
  unfold Loads at hload
  simp only [obtainModule, Call.precompiled, hload,
    lib.patch_normalize program image now hprogram]
  rfl

theorem lookupCache_of_noCache
    {process : Process} (hcache : process.cache = none) (call : Call)
    (id : Option Bytes) :
    lookupCache process call id = ⟨process, none, false, []⟩ := by
  simp [lookupCache, hcache]

theorem precompiled_outcome (lib : Library) (callee : Callee)
    {world : World} {call : Call} {tmpl image : Bytes} {flags : Flags}
    {compiler : Compiler} (hcache : world.process.cache = none)
    (hoptions : HasNoCacheId call.options)
    (hpipeline : lib.pipeline tmpl flags compiler = .ok image) (now : ℕ) :
    ∃ world', world'.process = world.process ∧
      (renderWith lib callee world (call.precompiled
        (enc lib.format (lib.normalizePointers image now).bytes))).2 =
      (executeModule lib callee world' (call.precompiled
        (enc lib.format (lib.normalizePointers image now).bytes))
        (loadedModule lib world.process image
          (lib.normalizePointers image now).bytes)).2 := by
  have hid : selectCacheId (call.precompiled
      (enc lib.format (lib.normalizePointers image now).bytes)) = .ok none :=
    selectCacheId_of_hasNoCacheId hoptions
  refine ⟨_, ?_, renderWith_outcome hid
    (lookupCache_of_noCache hcache _ _).symm
    (obtainModule_precompiled hpipeline)⟩
  rfl

theorem direct_outcome (lib : Library) (callee : Callee)
    {world : World} {call : Call} (hcache : world.process.cache = none)
    (hoptions : HasNoCacheId call.options) {obtained : Obtained}
    (hcompile : compileTemplate lib world.process call.direct
      (some call.input) .input call.input = .ok obtained) :
    ∃ world', world'.process = obtained.process ∧
      (renderWith lib callee world call.direct).2 =
        (executeModule lib callee world' call.direct obtained).2 := by
  have hid : selectCacheId call.direct = .ok (some (.input, call.input)) :=
    selectCacheId_of_hasNoCacheId hoptions
  refine ⟨_, ?_, renderWith_outcome hid
    (lookupCache_of_noCache hcache _ _).symm hcompile⟩
  rfl

/-- Nested calls see the process only. -/
def SameProcess (world world' : World) : Prop :=
  world.process = world'.process

theorem sameProcess_worldSimulation :
    WorldSimulation SameProcess fun _ => True where
  sleep := by
    intro world world' seconds hsame
    simp only [SameProcess, World.sleep] at hsame ⊢
    rw [hsame]
  write := by
    intro world world' name content hsame
    simp only [SameProcess, World.write] at hsame ⊢
    rw [hsame]
  grows := fun _ _ _ _ => trivial

theorem renderWith_sameProcess
    {callee' : Callee}
    (hgrows : ∀ world call, LogGrows world (callee world call).1)
    (hcallee : CalleesAgree SameProcess (fun _ => True) callee callee') :
    CalleesAgree SameProcess (fun _ => True) (renderWith lib callee)
      (renderWith lib callee') := by
  intro world world' call hsame _
  have hprocess : world.process = world'.process := hsame
  cases hid : selectCacheId call with
  | error fault =>
      simp only [renderWith, hid]
      exact ⟨hsame, rfl⟩
  | ok cacheId =>
      have hlookup : lookupCache world.process call
          (cacheId.map Prod.snd) =
            lookupCache world'.process call (cacheId.map Prod.snd) := by
        rw [hprocess]
      cases hobtain : obtainModule lib
          (lookupCache world.process call (cacheId.map Prod.snd)).process
          call (cacheId.map Prod.snd)
          (lookupCache world.process call (cacheId.map Prod.snd)).module with
      | error fault =>
          have hobtain' := hobtain
          rw [hlookup] at hobtain'
          rw [renderWith_of_fault hid hobtain,
            renderWith_of_fault hid hobtain']
          exact ⟨congrArg Lookup.process hlookup, rfl⟩
      | ok obtained =>
          have hobtain' := hobtain
          rw [hlookup] at hobtain'
          have hstart : SameProcess
              (((world.enter call).look (lookupCache world.process call
                (cacheId.map Prod.snd))).obtain obtained)
              (((world'.enter call).look (lookupCache world'.process call
                (cacheId.map Prod.snd))).obtain obtained) := rfl
          exact sameProcess_worldSimulation.renderWith_together hid rfl rfl
            hobtain hobtain' (fun _ _ _ hstate => hstate)
            (sameProcess_worldSimulation.executeModule_together hcallee
              hgrows lib hstart call call rfl rfl rfl rfl rfl rfl)
            trivial

theorem render_sameProcess (fuel : ℕ) :
    CalleesAgree SameProcess (fun _ => True) (render lib fuel)
      (render lib fuel) := by
  induction fuel with
  | zero => exact fun _ _ _ hsame _ => ⟨hsame, rfl⟩
  | succ fuel ih => exact renderWith_sameProcess (render_logGrows fuel) ih

/-! ## The condition -/

def contextError (call : Call) : Option LibError :=
  match call.contextValue with
  | .error error => some error
  | .ok _ => none

/-- Reading the registered helpers adds nothing to the list of known helpers,
and throws nothing. -/
structure AddsNoHelpers (call : Call) : Prop where
  list : ∀ table entry, call.options = some (.array table) →
    zendHashFind table internedKnownHelpers = some entry →
      entry.zType = .isArray ∧ entry ≠ .array []
  first : call.helpers.firstPass.failed = false
  second : call.helpers.secondPass.failed = false
  keys : call.helpers.secondPass.keys = []
  thrown : call.helpers.thrown = none

/-- The options and the helpers change nothing which a precompiled template
lacks, or the context cannot be converted with the same error. -/
def NothingLost (call : Call) : Prop :=
  (dataError call.options = none ∧ AddsNoHelpers call ∧
    (optionFlags call.options = ∅ ∨ contextError call ≠ none)) ∨
  (dataError call.options ≠ none ∧
    contextError call = dataError call.options)

/-- For every library, what `VM::compile` returns renders as the template
does. -/
def PrecompiledAgrees (call : Call) : Prop :=
  ∀ (lib : Library) (fuel : ℕ) (process : Process) (binary : Bytes)
    (pending : Option Exception), process.cache = none →
    vmCompile lib process.clock call.input call.options =
      .ok ⟨some binary, pending⟩ →
    (render lib fuel (.start process) (call.precompiled binary)).2 =
      (render lib fuel (.start process) call.direct).2

theorem AddsNoHelpers.fetchKnownHelpers
    {call : Call} (hadds : AddsNoHelpers call) (lib : Library) :
    ∃ stored, fetchKnownHelpers (lib.optionCompiler call.options)
      call.helpers = .ok (lib.optionCompiler call.options, stored) :=
  (fetchKnownHelpers_unchanged_iff _ _).mpr
    ⟨(optionKnownHelpers_ne_none_iff _ _).mpr hadds.list, hadds.first,
      hadds.second, hadds.keys⟩

theorem saveCacheEntry_of_noCache
    {process : Process} (hcache : process.cache = none)
    (id : Option Bytes) (module : Module) :
    saveCacheEntry process id module = process := by
  cases id with
  | none => rfl
  | some id =>
      obtain ⟨cache, stat, statCache, files, clock, finds, drops⟩ := process
      simp only at hcache
      subst cache
      rfl

theorem executeModule_of_contextError
    {call : Call} {error : LibError} {obtained : Obtained}
    (herror : contextError call = some error)
    (hmodule : obtained.module ≠ none) (world : World) :
    executeModule lib callee world call obtained =
      (world, .ok ⟨none,
        phpHandlebarsThrow .runtimeException error obtained.pending⟩) := by
  obtain ⟨module, hmodule⟩ := Option.ne_none_iff_exists'.mp hmodule
  unfold contextError at herror
  cases hcontext : call.contextValue with
  | ok context => simp [hcontext] at herror
  | error other =>
      obtain rfl : other = error := by simpa [hcontext] using herror
      simp only [executeModule, hmodule, hcontext]

theorem compileTemplate_of_addsNoHelpers
    {process : Process} {call : Call} {image : Bytes}
    (hcache : process.cache = none) (hdata : dataError call.options = none)
    (hadds : AddsNoHelpers call)
    (hpipeline : lib.pipeline call.input (optionFlags call.options)
      (lib.optionCompiler call.options) = .ok image) :
    ∃ obtained module, compileTemplate lib process call.direct
        (some call.input) .input call.input = .ok obtained ∧
      obtained.process = process ∧ obtained.module = some module ∧
      module.image = image ∧
      obtained.vm = optionVm call.options .fresh ∧
      obtained.pending = none := by
  obtain ⟨stored, hfetch⟩ := hadds.fetchKnownHelpers lib
  have hcompile := compileTemplate_eq lib process call.direct
    (some call.input) .input call.input
  simp only [Call.direct, hdata, hfetch, hpipeline, hadds.thrown,
    saveCacheEntry_of_noCache hcache] at hcompile
  exact ⟨_, _, hcompile, rfl, rfl, rfl, rfl, rfl⟩

theorem routes_agree_of_addsNoHelpers
    {process : Process} {call : Call} {image : Bytes}
    (hcache : process.cache = none) (hoptions : HasNoCacheId call.options)
    (hpipeline : lib.pipeline call.input (optionFlags call.options)
      (lib.optionCompiler call.options) = .ok image)
    (hdata : dataError call.options = none) (hadds : AddsNoHelpers call)
    (hshown : optionFlags call.options = ∅ ∨ contextError call ≠ none)
    (fuel : ℕ) :
    (renderWith lib (render lib fuel) (.start process) (call.precompiled
      (enc lib.format (lib.normalizePointers image process.clock).bytes))).2 =
      (renderWith lib (render lib fuel) (.start process) call.direct).2 := by
  have hcache' : (World.start process).process.cache = none := hcache
  obtain ⟨world, hworld, hbinary⟩ := precompiled_outcome lib
    (render lib fuel) hcache' hoptions hpipeline process.clock
  obtain ⟨obtained, module, hobtained, hprocess, hmodule, himage, hvm,
      hpending⟩ := compileTemplate_of_addsNoHelpers hcache hdata hadds
    hpipeline
  obtain ⟨world', hworld', hdirect⟩ := direct_outcome lib (render lib fuel)
    hcache' hoptions hobtained
  rw [hbinary, hdirect]
  by_cases hcontext : contextError call = none
  · have hflags : optionFlags call.options = ∅ :=
      hshown.resolve_right (not_not.mpr hcontext)
    have hstart : SameProcess world world' := by
      rw [SameProcess, hworld, hworld', hprocess]
      rfl
    refine (sameProcess_worldSimulation.executeModule_together
      (render_sameProcess fuel) (render_logGrows fuel) lib hstart
      _ _ rfl rfl rfl ?_ ?_ ?_ trivial).2
    · simp [loadedModule, hmodule, himage]
    · rw [hvm, optionVm_of_flags hflags]
      rfl
    · rw [hpending]
      rfl
  · -- neither route gets as far as the execution
    obtain ⟨error, herror⟩ := Option.ne_none_iff_exists'.mp hcontext
    have hbinaryError : contextError (call.precompiled (enc lib.format
        (lib.normalizePointers image process.clock).bytes)) = some error :=
      herror
    have hdirectError : contextError call.direct = some error := herror
    rw [executeModule_of_contextError hbinaryError (by simp [loadedModule]),
      executeModule_of_contextError hdirectError (by simp [hmodule]),
      hpending]
    rfl

theorem routes_agree_of_dataError
    {process : Process} {call : Call} {image : Bytes} {error : LibError}
    (hcache : process.cache = none) (hoptions : HasNoCacheId call.options)
    (hpipeline : lib.pipeline call.input (optionFlags call.options)
      (lib.optionCompiler call.options) = .ok image)
    (hdata : dataError call.options = some error)
    (hcontext : contextError call = some error) (fuel : ℕ) :
    (renderWith lib (render lib fuel) (.start process) (call.precompiled
      (enc lib.format (lib.normalizePointers image process.clock).bytes))).2 =
      (renderWith lib (render lib fuel) (.start process) call.direct).2 := by
  have hcache' : (World.start process).process.cache = none := hcache
  obtain ⟨world, _, hbinary⟩ := precompiled_outcome lib (render lib fuel)
    hcache' hoptions hpipeline process.clock
  have hobtained := compileTemplate_eq lib process call.direct
    (some call.input) .input call.input
  simp only [Call.direct, hdata] at hobtained
  obtain ⟨world', _, hdirect⟩ := direct_outcome lib (render lib fuel) hcache'
    hoptions hobtained
  have herror : contextError (call.precompiled (enc lib.format
      (lib.normalizePointers image process.clock).bytes)) = some error :=
    hcontext
  rw [hbinary, hdirect, executeModule_of_contextError herror
    (by simp [loadedModule])]
  rfl

theorem precompiledAgrees_of_nothingLost
    {call : Call} (hoptions : HasNoCacheId call.options)
    (hnothing : NothingLost call) :
    PrecompiledAgrees call := by
  intro lib fuel process binary pending hcache hcompile
  rw [vmCompile_eq] at hcompile
  split at hcompile
  next => simp at hcompile
  next image hpipeline =>
    obtain ⟨rfl, _⟩ : enc lib.format
        (lib.normalizePointers image process.clock).bytes = binary ∧
          none = pending := by
      simpa using hcompile
    cases fuel with
    | zero => rfl
    | succ fuel =>
        rcases hnothing with ⟨hdata, hadds, hshown⟩ | ⟨hdata, hsame⟩
        · exact routes_agree_of_addsNoHelpers hcache hoptions hpipeline hdata
            hadds hshown fuel
        · obtain ⟨error, herror⟩ := Option.ne_none_iff_exists'.mp hdata
          exact routes_agree_of_dataError hcache hoptions hpipeline herror
            (hsame.trans herror) fuel

/-! ## Libraries which tell the routes apart -/

def probeError : LibError where
  num := .other 1
  message := "probe"

/-- A library which compiles for some lists of known helpers only, and whose
output is any function of what the VM was set up with. -/
def probeLibrary (compiles : Option (List Bytes) → Bool)
    (observe : ExecutionInput → ExecutionEnd) : Library :=
  { sampleLibrary with
    compileEx := fun ast _ known =>
      if compiles known then .ok (ast.headD 0) else .error probeError
    execute := fun input => .done (observe input) }

variable {compiles : Option (List Bytes) → Bool}
variable {observe : ExecutionInput → ExecutionEnd}

theorem probeLibrary_pipeline
    (tmpl : Bytes) (flags : Flags) (compiler : Compiler) :
    (probeLibrary compiles observe).pipeline tmpl flags compiler =
      if compiles compiler.knownHelpers then .ok [tmpl.headD 0]
      else .error (.compileException, probeError) := by
  unfold Library.pipeline probeLibrary
  by_cases hflag : CompilerFlag.compat ∈ flags <;>
    by_cases hcompiles : compiles compiler.knownHelpers <;>
    simp [hflag, hcompiles, sampleLibrary, bind, Except.bind,
      Except.mapError, pure, Except.pure]

def probeProcess : Process := { sampleProcess with cache := none }

def probeOutcome (observe : ExecutionInput → ExecutionEnd) (call : Call)
    (vm : VmConfig) (pending : Option Exception) : Except Halt CallResult :=
  match call.contextValue with
  | .error error =>
      .ok ⟨none, phpHandlebarsThrow .runtimeException error pending⟩
  | .ok context =>
      .ok (observe
        { image := [call.input.headD 0]
          context := context
          helpers := call.helpers.value
          partials := call.partials
          data := vm.data
          flags := vm.flags
          pending := pending }).result

def probeDirect (compiles : Option (List Bytes) → Bool)
    (observe : ExecutionInput → ExecutionEnd) (call : Call) :
    Except Halt CallResult :=
  match dataError call.options with
  | some error =>
      .ok ⟨none, phpHandlebarsThrow .runtimeException error none⟩
  | none =>
      match fetchKnownHelpers (sampleLibrary.optionCompiler call.options)
          call.helpers with
      | .error fault => .error (.fault fault)
      | .ok (compiler, _) =>
          if compiles compiler.knownHelpers then
            probeOutcome observe call (optionVm call.options .fresh)
              call.helpers.thrown
          else
            .ok ⟨none, phpHandlebarsThrow .compileException probeError
              call.helpers.thrown⟩

theorem probeLibrary_executeModule
    {call call' : Call} {obtained : Obtained} {module : Module}
    (hmodule : obtained.module = some module)
    (himage : module.image = [call.input.headD 0])
    (hcontext : call'.contextValue = call.contextValue)
    (hhelpers : call'.helpers = call.helpers)
    (hpartials : call'.partials = call.partials) (world : World) :
    (executeModule (probeLibrary compiles observe) callee world call'
      obtained).2 =
        probeOutcome observe call obtained.vm obtained.pending := by
  simp only [executeModule, hmodule, hcontext, probeOutcome]
  cases call.contextValue with
  | error error => rfl
  | ok context =>
      simp only [Obtained.executionInput, himage, hhelpers, hpartials]
      rfl

theorem probeLibrary_precompiled
    (observe : ExecutionInput → ExecutionEnd) {call : Call}
    (hoptions : HasNoCacheId call.options)
    (hcompiles : compiles (sampleLibrary.optionCompiler
      call.options).knownHelpers = true) :
    ∃ binary, vmCompile (probeLibrary compiles observe) probeProcess.clock
        call.input call.options = .ok ⟨some binary, none⟩ ∧
      (render (probeLibrary compiles observe) 1 (.start probeProcess)
        (call.precompiled binary)).2 =
          probeOutcome observe call .fresh none := by
  have hpipeline : (probeLibrary compiles observe).pipeline call.input
      (optionFlags call.options)
      ((probeLibrary compiles observe).optionCompiler call.options) =
        .ok [call.input.headD 0] := by
    rw [probeLibrary_pipeline]
    exact if_pos hcompiles
  have hcache : (World.start probeProcess).process.cache = none := rfl
  obtain ⟨world, _, hbinary⟩ := precompiled_outcome
    (probeLibrary compiles observe) (render (probeLibrary compiles observe) 0)
    hcache hoptions hpipeline probeProcess.clock
  refine ⟨_, ?_, hbinary.trans ?_⟩
  · rw [vmCompile_eq, hpipeline]
  · apply probeLibrary_executeModule <;> rfl

theorem probeLibrary_direct
    {call : Call} (hoptions : HasNoCacheId call.options) :
    (render (probeLibrary compiles observe) 1 (.start probeProcess)
      call.direct).2 = probeDirect compiles observe call := by
  have hcache : (World.start probeProcess).process.cache = none := rfl
  have hid : selectCacheId call.direct = .ok (some (.input, call.input)) :=
    selectCacheId_of_hasNoCacheId hoptions
  have hcompile := compileTemplate_eq (probeLibrary compiles observe)
    probeProcess call.direct (some call.input) .input call.input
  have hoptionCompiler :
      (probeLibrary compiles observe).optionCompiler call.options =
        sampleLibrary.optionCompiler call.options := rfl
  have hoptions' : call.direct.options = call.options := rfl
  have hhelpers : call.direct.helpers = call.helpers := rfl
  rw [hoptions', hhelpers, hoptionCompiler] at hcompile
  simp only [probeLibrary_pipeline] at hcompile
  have hreturns : ∀ obtained,
      compileTemplate (probeLibrary compiles observe) probeProcess
        call.direct (some call.input) .input call.input = .ok obtained →
      ∃ world, (render (probeLibrary compiles observe) 1
        (.start probeProcess) call.direct).2 =
          (executeModule (probeLibrary compiles observe)
            (render (probeLibrary compiles observe) 0) world call.direct
            obtained).2 := by
    intro obtained hobtained
    obtain ⟨world, _, hdirect⟩ := direct_outcome
      (probeLibrary compiles observe)
      (render (probeLibrary compiles observe) 0) hcache hoptions hobtained
    exact ⟨world, hdirect⟩
  unfold probeDirect
  cases hdata : dataError call.options with
  | some error =>
      simp only [hdata] at hcompile
      obtain ⟨world, hdirect⟩ := hreturns _ hcompile
      rw [hdirect]
      rfl
  | none =>
      cases hfetch : fetchKnownHelpers
          (sampleLibrary.optionCompiler call.options) call.helpers with
      | error fault =>
          simp only [hdata, hfetch] at hcompile
          have hfault : render (probeLibrary compiles observe) 1
              (.start probeProcess) call.direct = _ :=
            renderWith_of_fault hid hcompile
          rw [hfault]
      | ok fetched =>
          simp only [hdata, hfetch] at hcompile
          by_cases hcompiles : compiles fetched.1.knownHelpers
          · simp only [hcompiles, if_true] at hcompile
            obtain ⟨world, hdirect⟩ := hreturns _ hcompile
            simp only [hcompiles, if_true]
            rw [hdirect]
            exact probeLibrary_executeModule rfl rfl rfl rfl rfl world
          · simp only [hcompiles] at hcompile
            obtain ⟨world, hdirect⟩ := hreturns _ hcompile
            simp only [hcompiles]
            rw [hdirect]
            rfl

/-! ## Nothing may be lost -/

theorem PrecompiledAgrees.probe
    {call : Call} (hagrees : PrecompiledAgrees call)
    (hoptions : HasNoCacheId call.options)
    (compiles : Option (List Bytes) → Bool)
    (observe : ExecutionInput → ExecutionEnd)
    (hcompiles : compiles (sampleLibrary.optionCompiler
      call.options).knownHelpers = true) :
    probeOutcome observe call .fresh none =
      probeDirect compiles observe call := by
  obtain ⟨binary, hvm, hbinary⟩ :=
    probeLibrary_precompiled observe hoptions hcompiles
  rw [← hbinary, ← probeLibrary_direct hoptions]
  exact hagrees (probeLibrary compiles observe) 1 probeProcess binary none
    rfl hvm

theorem contextError_num
    {call : Call} {error : LibError}
    (herror : contextError call = some error) : error.num = .error := by
  unfold contextError Call.contextValue at herror
  cases hcontext : call.context with
  | none => simp [hcontext] at herror
  | some context =>
      simp only [hcontext] at herror
      split at herror
      next other hconvert =>
        obtain rfl := Option.some.inj herror
        exact handlebarsValueFromZval_num hconvert
      next => simp at herror

theorem dataError_num
    {options : Option Zval} {error : LibError}
    (herror : dataError options = some error) : error.num = .error := by
  unfold dataError optionData at herror
  cases htable : optionTable options with
  | none => simp [htable] at herror
  | some table =>
      cases hentry : dataEntry table with
      | none => simp [htable, hentry] at herror
      | some entry =>
          simp only [htable, hentry, Option.map_some] at herror
          split at herror
          next other hconvert =>
            obtain rfl := Option.some.inj herror
            exact handlebarsValueFromZval_num (Option.some.inj hconvert)
          next => simp at herror

theorem phpHandlebarsThrow_inj
    {first second : LibError} (hfirst : first.num = .error)
    (hsecond : second.num = .error)
    (hsame : phpHandlebarsThrow .runtimeException first none =
      phpHandlebarsThrow .runtimeException second none) :
    first = second := by
  obtain ⟨num, message⟩ := first
  obtain ⟨num', message'⟩ := second
  simp only at hfirst hsecond
  subst num num'
  simpa [phpHandlebarsThrow, zendThrowException] using hsame

theorem probeOutcome_of_contextError
    {call : Call} {error : LibError}
    (herror : contextError call = some error)
    (observe : ExecutionInput → ExecutionEnd) (vm : VmConfig)
    (pending : Option Exception) :
    probeOutcome observe call vm pending =
      .ok ⟨none, phpHandlebarsThrow .runtimeException error pending⟩ := by
  unfold contextError at herror
  unfold probeOutcome
  cases hcontext : call.contextValue with
  | ok context => simp [hcontext] at herror
  | error other =>
      obtain rfl : other = error := by simpa [hcontext] using herror
      rfl

theorem probeOutcome_of_noContextError
    {call : Call} (herror : contextError call = none) :
    ∃ context, ∀ observe vm pending,
      probeOutcome observe call vm pending =
        .ok (observe
          { image := [call.input.headD 0]
            context := context
            helpers := call.helpers.value
            partials := call.partials
            data := vm.data
            flags := vm.flags
            pending := pending }).result := by
  unfold contextError at herror
  unfold probeOutcome
  cases hcontext : call.contextValue with
  | error error => simp [hcontext] at herror
  | ok context => exact ⟨context, fun _ _ _ => rfl⟩

/-- The compiler of `render` has no more known helpers than that of
`VM::compile`. -/
theorem fetchKnownHelpers_of_precompiledAgrees
    {call : Call} (hoptions : HasNoCacheId call.options)
    (hagrees : PrecompiledAgrees call)
    (hdata : dataError call.options = none) :
    ∃ stored, fetchKnownHelpers (sampleLibrary.optionCompiler call.options)
      call.helpers =
        .ok (sampleLibrary.optionCompiler call.options, stored) := by
  -- the probe refuses to compile with any other list
  have hsame := hagrees.probe hoptions
    (fun known => decide (known =
      (sampleLibrary.optionCompiler call.options).knownHelpers))
    (fun _ => ⟨.ok (some []), none⟩) (decide_eq_true rfl)
  simp only [probeDirect, hdata] at hsame
  cases hfetch : fetchKnownHelpers
      (sampleLibrary.optionCompiler call.options) call.helpers with
  | error fault =>
      simp only [hfetch] at hsame
      cases hcontext : contextError call with
      | none =>
          obtain ⟨context, houtcome⟩ := probeOutcome_of_noContextError hcontext
          simp [houtcome] at hsame
      | some error =>
          simp [probeOutcome_of_contextError hcontext] at hsame
  | ok fetched =>
      obtain ⟨⟨flags, known⟩, stored⟩ := fetched
      have hflags : flags =
          (sampleLibrary.optionCompiler call.options).flags :=
        fetchKnownHelpers_flags hfetch
      by_cases hknown : known =
          (sampleLibrary.optionCompiler call.options).knownHelpers
      · subst flags known
        exact ⟨stored, rfl⟩
      · simp only [hfetch, hknown, decide_false, Bool.false_eq_true,
          if_false] at hsame
        cases hcontext : contextError call with
        | none =>
            obtain ⟨context, houtcome⟩ :=
              probeOutcome_of_noContextError hcontext
            simp [houtcome, ExecutionEnd.result] at hsame
        | some error =>
            rw [probeOutcome_of_contextError hcontext] at hsame
            have hnum := contextError_num hcontext
            cases hthrown : call.helpers.thrown <;>
              simp [phpHandlebarsThrow, zendThrowException, probeError, hnum,
                hthrown] at hsame

theorem nothingLost_of_precompiledAgrees
    {call : Call} (hoptions : HasNoCacheId call.options)
    (hagrees : PrecompiledAgrees call) :
    NothingLost call := by
  have hprobe := hagrees.probe hoptions
  cases hdata : dataError call.options with
  | some error =>
      refine .inr ⟨by simp [hdata], ?_⟩
      -- an output shows that the context has been converted
      have hsame := hprobe (fun _ => true)
        (fun _ => ⟨.ok (some []), none⟩) rfl
      simp only [probeDirect, hdata] at hsame
      cases hcontext : contextError call with
      | none =>
          obtain ⟨context, houtcome⟩ := probeOutcome_of_noContextError hcontext
          simp [houtcome, ExecutionEnd.result] at hsame
      | some error' =>
          rw [probeOutcome_of_contextError hcontext] at hsame
          have hthrown := congrArg CallResult.pending (Except.ok.inj hsame)
          rw [hdata, phpHandlebarsThrow_inj (contextError_num hcontext)
            (dataError_num hdata) hthrown]
  | none =>
      obtain ⟨stored, hfetch⟩ :=
        fetchKnownHelpers_of_precompiledAgrees hoptions hagrees hdata
      obtain ⟨hlist, hfirst, hsecond, hkeys⟩ :=
        (fetchKnownHelpers_unchanged_iff _ _).mp ⟨stored, hfetch⟩
      refine .inl ⟨hdata, ⟨(optionKnownHelpers_ne_none_iff _ _).mp hlist,
        hfirst, hsecond, hkeys, ?_⟩, ?_⟩
      · -- an output shows that no exception is pending
        have hsame := hprobe (fun _ => true)
          (fun input => ⟨.ok (some []), input.pending⟩) rfl
        simp only [probeDirect, hdata, hfetch, if_true] at hsame
        cases hthrown : call.helpers.thrown with
        | none => rfl
        | some thrown =>
            cases hcontext : contextError call with
            | none =>
                obtain ⟨context, houtcome⟩ :=
                  probeOutcome_of_noContextError hcontext
                simp [houtcome, hthrown, ExecutionEnd.result] at hsame
            | some error =>
                have hnum := contextError_num hcontext
                simp [probeOutcome_of_contextError hcontext, hthrown,
                  phpHandlebarsThrow, zendThrowException, hnum] at hsame
      · -- an output shows that there are no flags
        by_contra hshown
        obtain ⟨hflags, hcontext⟩ := not_or.mp hshown
        obtain ⟨context, houtcome⟩ :=
          probeOutcome_of_noContextError (not_not.mp hcontext)
        have hsame := hprobe (fun _ => true)
          (fun input =>
            ⟨.ok (if input.flags = ∅ then some [] else none), none⟩) rfl
        simp only [probeDirect, hdata, hfetch, if_true, houtcome,
          optionVm_flags] at hsame
        simp [ExecutionEnd.result, VmConfig.fresh, hflags] at hsame

/-- The calls for which precompiling makes no difference. -/
theorem precompiledAgrees_iff
    (call : Call) (hoptions : HasNoCacheId call.options) :
    PrecompiledAgrees call ↔ NothingLost call :=
  ⟨nothingLost_of_precompiledAgrees hoptions,
    precompiledAgrees_of_nothingLost hoptions⟩

/-- `['knownHelpers' => ['list' => true], 'strict' => false]` with the names a
registry object delivers. -/
def listCall (names : List (Option Bytes)) : Call :=
  { sampleCall .string (ascii "f") with
    context := some (.array [(.string (ascii "a"), .long 1)])
    options := some (.array
      [(.string internedKnownHelpers, .array [(.string (ascii "list"), .true)]),
        (.string internedStrict, .false)])
    helpers :=
      ⟨.user (.object 0), ⟨names, false, none⟩, ⟨names, false, none⟩⟩ }

/-- A registered helper is what precompiling loses, even when the option names
it. -/
theorem registered_helper_lost :
    PrecompiledAgrees (listCall []) ∧
      ¬ PrecompiledAgrees (listCall [some (ascii "list")]) := by
  have hcacheId : ∀ names, HasNoCacheId (listCall names).options :=
    fun _ => .inr ⟨_, rfl, by decide⟩
  refine ⟨(precompiledAgrees_iff (listCall []) (hcacheId _)).mpr ?_, ?_⟩
  · refine .inl ⟨rfl, ⟨?_, rfl, rfl, rfl, rfl⟩, .inl (by decide)⟩
    rintro table entry ⟨rfl⟩ ⟨rfl⟩
    exact ⟨rfl, nofun⟩
  · intro hagrees
    have hlost := (precompiledAgrees_iff _ (hcacheId _)).mp hagrees
    rcases hlost with ⟨_, hadds, _⟩ | ⟨hdata, _⟩
    · exact absurd hadds.keys (by decide)
    · exact hdata rfl

def strictCall : Call :=
  { sampleCall .string (ascii "f") with
    options := some (.array [(.string internedStrict, .true)]) }

def strictLibrary : Library :=
  probeLibrary (fun _ => true) fun input =>
    ⟨.ok (if input.flags = ∅ then some [] else none), none⟩

theorem strict_option_lost :
    HasNoCacheId strictCall.options ∧
      ∃ binary,
        vmCompile strictLibrary probeProcess.clock strictCall.input
          strictCall.options = .ok ⟨some binary, none⟩ ∧
        (render strictLibrary 1 (.start probeProcess)
          (strictCall.precompiled binary)).2 = .ok ⟨some [], none⟩ ∧
        (render strictLibrary 1 (.start probeProcess)
          strictCall.direct).2 = .ok ⟨none, none⟩ := by
  refine ⟨.inr ⟨_, rfl, by decide⟩, _, rfl, ?_, ?_⟩
  · decide
  · decide

end PhpHandlebars
