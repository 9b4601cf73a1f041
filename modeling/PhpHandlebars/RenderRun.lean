import PhpHandlebars.Render
import Mathlib.Tactic

/-!
# Rules for runs of `render`

A call of `render` ends in one of four ways.  What holds of each of them
holds of calls nested to any depth, and of every script: the rules below do
the two inductions, over the nesting and over the requests of an execution.
-/

namespace PhpHandlebars

variable {lib : Library} {callee : Callee}

/-! ## Configuring the compiler -/

def Library.optionCompiler (lib : Library) (options : Option Zval) :
    Compiler where
  flags := optionFlags options
  knownHelpers := optionKnownHelpers options (some lib.builtinHelpers)

theorem configure_without_vm (lib : Library) (options : Option Zval) :
    lib.configure none none options =
      .ok (optionFlags options, lib.optionCompiler options, none, none) := by
  simp [Library.configure, Library.optionCompiler,
    processOptionsZval_without_vm, bind, Except.bind, pure, Except.pure]

theorem configure_with_vm (lib : Library) (helpers : Registry)
    (options : Option Zval) :
    lib.configure (some .fresh) (some helpers) options =
      match dataError options with
      | some error => .error (.raised error)
      | none =>
          match fetchKnownHelpers (lib.optionCompiler options) helpers with
          | .error fault => .error (.fault fault)
          | .ok (compiler, _) =>
              .ok (optionFlags options, compiler,
                some (optionVm options .fresh), helpers.thrown) := by
  unfold Library.configure
  rw [processOptionsZval_with_vm]
  cases dataError options with
  | some error => rfl
  | none =>
      simp only [bind, Except.bind]
      change Except.bind (orFault (fetchKnownHelpers
        (lib.optionCompiler options) helpers)) _ = _
      cases fetchKnownHelpers (lib.optionCompiler options) helpers <;> rfl

theorem configure_flags
    {helpers : Registry} {options : Option Zval} {flags : Flags}
    {compiler : Compiler} {vm : Option VmConfig} {pending : Option Exception}
    (hconfigure : lib.configure (some .fresh) (some helpers) options =
      .ok (flags, compiler, vm, pending)) :
    flags = optionFlags options ∧ compiler.flags = flags := by
  rw [configure_with_vm] at hconfigure
  split at hconfigure
  next => simp at hconfigure
  next =>
    split at hconfigure
    next => simp at hconfigure
    next hfetch =>
      simp only [Except.ok.injEq, Prod.mk.injEq] at hconfigure
      obtain ⟨rfl, rfl, _⟩ := hconfigure
      exact ⟨rfl, fetchKnownHelpers_flags hfetch⟩

theorem configure_fault_iff (lib : Library) (helpers : Registry)
    (options : Option Zval) (fault : Fault) :
    lib.configure (some .fresh) (some helpers) options =
        .error (.fault fault) ↔
      dataError options = none ∧
        fetchKnownHelpers (lib.optionCompiler options) helpers =
          .error fault := by
  rw [configure_with_vm]
  cases dataError options with
  | some error => simp
  | none =>
      simp only [true_and]
      cases fetchKnownHelpers (lib.optionCompiler options) helpers <;> simp

theorem compile_fault_iff (lib : Library) (now : ℕ) (vm : Option VmConfig)
    (tmplRef : StringRef) (tmpl : Bytes) (helpers : Option Registry)
    (options : Option Zval) (fault : Fault) :
    compile lib now vm tmplRef tmpl helpers options = .error fault ↔
      lib.configure vm helpers options = .error (.fault fault) := by
  unfold compile
  split
  next hconfigure => simp [hconfigure]
  next hconfigure => simp [hconfigure, pure, Except.pure]
  next hconfigure =>
    simp only [hconfigure]
    split <;> simp [pure, Except.pure]

theorem compile_module
    {now : ℕ} {vm : Option VmConfig} {tmplRef : StringRef} {tmpl : Bytes}
    {helpers : Option Registry} {options : Option Zval}
    {result : CompileResult} {module : Module}
    (hcompile : compile lib now vm tmplRef tmpl helpers options = .ok result)
    (hmodule : result.module = some module) :
    ∃ flags compiler, lib.configure vm helpers options =
        .ok (flags, compiler, result.vm, result.pending) ∧
      lib.pipeline tmpl flags compiler = .ok module.image ∧
      module.ts = now ∧
      module.source = .compiled tmpl flags compiler.knownHelpers := by
  unfold compile at hcompile
  split at hcompile
  next => simp at hcompile
  next =>
    obtain rfl := Except.ok.inj hcompile
    simp at hmodule
  next flags compiler vm' pending hconfigure =>
    split at hcompile
    next =>
      obtain rfl := Except.ok.inj hcompile
      simp at hmodule
    next image hpipeline =>
      obtain rfl := Except.ok.inj hcompile
      obtain rfl := Option.some.inj hmodule
      exact ⟨flags, compiler, hconfigure, hpipeline, rfl, rfl⟩

/-- The template text of a call: the input, or the contents of a file. -/
def Process.templateText (process : Process) (call : Call) : Option Bytes :=
  match call.type with
  | .string => some call.input
  | .filename => (process.files call.input).map File.content
  | .binary => none

theorem obtainModule_fault_iff (lib : Library) (process : Process)
    (call : Call) (id : Option Bytes) (found : Option Module)
    (fault : Fault) :
    obtainModule lib process call id found = .error fault ↔
      found = none ∧ process.templateText call ≠ none ∧
        lib.configure (some .fresh) (some call.helpers) call.options =
          .error (.fault fault) := by
  have hcompile : ∀ tmplRef tmpl,
      compileTemplate lib process call id tmplRef tmpl = .error fault ↔
        lib.configure (some .fresh) (some call.helpers) call.options =
          .error (.fault fault) := by
    intro tmplRef tmpl
    rw [← compile_fault_iff lib process.clock (some .fresh) tmplRef tmpl]
    unfold compileTemplate
    cases compile lib process.clock (some .fresh) tmplRef tmpl
      (some call.helpers) call.options <;>
      simp [bind, Except.bind, pure, Except.pure]
  cases found with
  | some module => simp [obtainModule, pure, Except.pure]
  | none =>
      unfold obtainModule Process.templateText
      cases call.type with
      | string => simpa using hcompile .input call.input
      | filename =>
          cases process.files call.input with
          | none => simp [pure, Except.pure]
          | some file => simpa using hcompile .contents file.content
      | binary =>
          simp only [ne_eq, not_true_eq_false, false_and, and_false, iff_false]
          split <;> simp [pure, Except.pure]

def HasNoCacheId (options : Option Zval) : Prop :=
  options = none ∨ ∃ table, options = some (.array table) ∧
    zendHashFind table internedCacheId = none

theorem selectCacheId_of_hasNoCacheId
    {call : Call} (hoptions : HasNoCacheId call.options) :
    selectCacheId call = .ok call.defaultCacheId := by
  rcases hoptions with hnone | ⟨table, htable, hfind⟩
  · simp [selectCacheId, hnone, pure, Except.pure]
  · simp [selectCacheId, htable, Zval.arrval, hfind, bind, Except.bind, pure,
      Except.pure]

/-! ## The ends of a call -/

inductive RenderStep (lib : Library) (callee : Callee) (world : World)
    (call : Call) : World × Except Halt CallResult → Prop where
  | badOptions (fault : Fault) (hid : selectCacheId call = .error fault) :
      RenderStep lib callee world call
        (world.enter call, .error (.fault fault))
  | badCompile (cacheId : Option (StringRef × Bytes)) (lookup : Lookup)
      (fault : Fault) (hid : selectCacheId call = .ok cacheId)
      (hlookup : lookup =
        lookupCache world.process call (cacheId.map Prod.snd))
      (hobtain : obtainModule lib lookup.process call
        (cacheId.map Prod.snd) lookup.module = .error fault) :
      RenderStep lib callee world call
        ((world.enter call).look lookup, .error (.fault fault))
  | halted (cacheId : Option (StringRef × Bytes)) (lookup : Lookup)
      (obtained : Obtained) (executed : World) (halt : Halt)
      (hid : selectCacheId call = .ok cacheId)
      (hlookup : lookup =
        lookupCache world.process call (cacheId.map Prod.snd))
      (hobtain : obtainModule lib lookup.process call
        (cacheId.map Prod.snd) lookup.module = .ok obtained)
      (hexecute : executeModule lib callee
        (((world.enter call).look lookup).obtain obtained) call obtained =
          (executed, .error halt)) :
      RenderStep lib callee world call (executed, .error halt)
  | returned (cacheId : Option (StringRef × Bytes)) (lookup : Lookup)
      (obtained : Obtained) (executed : World) (result : CallResult)
      (hid : selectCacheId call = .ok cacheId)
      (hlookup : lookup =
        lookupCache world.process call (cacheId.map Prod.snd))
      (hobtain : obtainModule lib lookup.process call
        (cacheId.map Prod.snd) lookup.module = .ok obtained)
      (hexecute : executeModule lib callee
        (((world.enter call).look lookup).obtain obtained) call obtained =
          (executed, .ok result)) :
      RenderStep lib callee world call
        (executed.leave call world.process cacheId lookup obtained result,
          .ok result)

theorem renderWith_step (lib : Library) (callee : Callee) (world : World)
    (call : Call) :
    RenderStep lib callee world call (renderWith lib callee world call) := by
  unfold renderWith
  cases hid : selectCacheId call with
  | error fault => exact .badOptions fault hid
  | ok cacheId =>
      simp only
      cases hobtain : obtainModule lib
          (lookupCache world.process call (cacheId.map Prod.snd)).process call
          (cacheId.map Prod.snd)
          (lookupCache world.process call (cacheId.map Prod.snd)).module with
      | error fault => exact .badCompile cacheId _ fault hid rfl hobtain
      | ok obtained =>
          simp only
          split
          next executed halt hexecute =>
            exact .halted cacheId _ obtained executed halt hid rfl hobtain
              hexecute
          next executed result hexecute =>
            exact .returned cacheId _ obtained executed result hid rfl hobtain
              hexecute

theorem renderWith_of_fault
    {world : World} {call : Call} {cacheId : Option (StringRef × Bytes)}
    {fault : Fault} (hid : selectCacheId call = .ok cacheId)
    (hobtain : obtainModule lib
      (lookupCache world.process call (cacheId.map Prod.snd)).process call
      (cacheId.map Prod.snd)
      (lookupCache world.process call (cacheId.map Prod.snd)).module =
        .error fault) :
    renderWith lib callee world call =
      ((world.enter call).look
        (lookupCache world.process call (cacheId.map Prod.snd)),
        .error (.fault fault)) := by
  simp only [renderWith, hid, hobtain]

/-- An execution which came to its end leaves the call. -/
def World.leaveExecuted (world : World) (call : Call)
    (cacheId : Option (StringRef × Bytes)) (lookup : Lookup)
    (obtained : Obtained) :
    World × Except Halt CallResult → World × Except Halt CallResult
  | (executed, .error halt) => (executed, .error halt)
  | (executed, .ok result) =>
      (executed.leave call world.process cacheId lookup obtained result,
        .ok result)

theorem renderWith_of_obtained
    {world : World} {call : Call} {cacheId : Option (StringRef × Bytes)}
    {lookup : Lookup} {obtained : Obtained}
    (hid : selectCacheId call = .ok cacheId)
    (hlookup : lookup =
      lookupCache world.process call (cacheId.map Prod.snd))
    (hobtain : obtainModule lib lookup.process call (cacheId.map Prod.snd)
      lookup.module = .ok obtained) :
    renderWith lib callee world call =
      world.leaveExecuted call cacheId lookup obtained
        (executeModule lib callee
          (((world.enter call).look lookup).obtain obtained) call
            obtained) := by
  subst lookup
  simp only [renderWith, hid, hobtain]
  rcases executeModule lib callee _ call obtained with
    ⟨executed, halt | result⟩
  · rfl
  · rfl

theorem renderWith_outcome
    {world : World} {call : Call} {cacheId : Option (StringRef × Bytes)}
    {lookup : Lookup} {obtained : Obtained}
    (hid : selectCacheId call = .ok cacheId)
    (hlookup : lookup =
      lookupCache world.process call (cacheId.map Prod.snd))
    (hobtain : obtainModule lib lookup.process call (cacheId.map Prod.snd)
      lookup.module = .ok obtained) :
    (renderWith lib callee world call).2 =
      (executeModule lib callee
        (((world.enter call).look lookup).obtain obtained) call
          obtained).2 := by
  rw [renderWith_of_obtained hid hlookup hobtain]
  rcases executeModule lib callee _ call obtained with
    ⟨executed, halt | result⟩
  · rfl
  · rfl

theorem executeModule_of_context
    {call : Call} {obtained : Obtained} {module : Module} {context : Value}
    (hmodule : obtained.module = some module)
    (hcontext : call.contextValue = .ok context)
    (lib : Library) (callee : Callee) (world : World) :
    let ending := (lib.execute
      (obtained.executionInput call module context)).run
        (handleAction callee) world
    executeModule lib callee world call obtained =
      (ending.1, ending.2.map ExecutionEnd.result) := by
  simp only [executeModule, hmodule, hcontext]
  split
  next hrun => simp [hrun, Except.map]
  next hrun => simp [hrun, Except.map]

theorem executeModule_cases (lib : Library) (callee : Callee) (world : World)
    (call : Call) (obtained : Obtained) :
    (∃ result, executeModule lib callee world call obtained =
      (world, .ok result)) ∨
    ∃ input, executeModule lib callee world call obtained =
      (((lib.execute input).run (handleAction callee) world).1,
        ((lib.execute input).run (handleAction callee) world).2.map
          ExecutionEnd.result) := by
  cases hmodule : obtained.module with
  | none =>
      refine .inl ⟨⟨none, obtained.pending⟩, ?_⟩
      simp only [executeModule, hmodule]
  | some module =>
      cases hcontext : call.contextValue with
      | error error =>
          refine .inl ⟨⟨none, phpHandlebarsThrow .runtimeException error
            obtained.pending⟩, ?_⟩
          simp only [executeModule, hmodule, hcontext]
      | ok context =>
          exact .inr ⟨_, executeModule_of_context hmodule hcontext lib callee
            world⟩

theorem cacheFind_mem
    {process : Process} {id : Bytes} {module : Module}
    (hfind : process.cacheFind id = some module) :
    ∃ store, process.cache = some store ∧ store id = some module := by
  unfold Process.cacheFind at hfind
  split at hfind
  next => simp at hfind
  next => exact Option.bind_eq_some_iff.mp hfind

/-- The ways a cache lookup can end.  Only the number of lookups and the stat
cache of PHP change in the process. -/
inductive LookupStep (process : Process) (call : Call) (id : Option Bytes) :
    Lookup → Prop where
  | miss (finds : ℕ)
      (hmiss : ∀ key, id = some key → process.cacheFind key = none) :
      LookupStep process call id
        ⟨{ process with finds := finds }, none, false, []⟩
  | stale (key : Bytes) (module : Module) (hid : id = some key)
      (hfind : process.cacheFind key = some module)
      (hstale : process.isStale call module) :
      LookupStep process call id
        ⟨process.found call, none, true,
          [.acquire (some key, some module), .release (some key, some module)]⟩
  | hit (key : Bytes) (module : Module) (hid : id = some key)
      (hfind : process.cacheFind key = some module)
      (hfresh : ¬ process.isStale call module) :
      LookupStep process call id
        ⟨process.found call, some module, true,
          [.acquire (some key, some module)]⟩

theorem lookupCache_step (process : Process) (call : Call)
    (id : Option Bytes) :
    LookupStep process call id (lookupCache process call id) := by
  unfold lookupCache
  split
  next store key hcache =>
    cases hfind : process.cacheFind key with
    | none =>
        apply LookupStep.miss (process.finds + 1)
        rintro _ ⟨rfl⟩
        exact hfind
    | some module =>
        by_cases hstale : process.isStale call module
        · simpa [hstale] using
            LookupStep.stale key module rfl hfind hstale
        · simpa [hstale] using LookupStep.hit key module rfl hfind hstale
  next hnone =>
    refine .miss process.finds fun key hid => ?_
    cases hcache : process.cache with
    | none => simp [Process.cacheFind, hcache]
    | some store => exact absurd hid (hnone store key hcache)

theorem lookupCache_of_cache
    {process : Process} (hcache : process.cache.isSome) (call : Call)
    (key : Bytes) :
    lookupCache process call (some key) =
      match process.cacheFind key with
      | none => ⟨{ process with finds := process.finds + 1 }, none, false, []⟩
      | some module =>
          if process.isStale call module then
            ⟨process.found call, none, true,
              [.acquire (some key, some module),
                .release (some key, some module)]⟩
          else
            ⟨process.found call, some module, true,
              [.acquire (some key, some module)]⟩ := by
  obtain ⟨store, hstore⟩ := Option.isSome_iff_exists.mp hcache
  unfold lookupCache
  split
  next hsome hkey =>
    obtain rfl := Option.some.inj hkey
    rfl
  next hnone => exact absurd rfl (hnone store key hstore)

/-! ## Relations between the two ends of a call -/

/-- A relation which notices neither time nor files, and composes. -/
structure WorldRelation (R : World → World → Prop) : Prop where
  refl : ∀ world, R world world
  trans : ∀ first second third, R first second → R second third →
    R first third
  outside : ∀ world clock files, R world { world with
    process := { world.process with clock := clock, files := files } }

namespace WorldRelation

variable {R : World → World → Prop}

theorem sleep (hR : WorldRelation R) (world : World) (seconds : ℕ) :
    R world (world.sleep seconds) :=
  hR.outside world _ world.process.files

theorem write (hR : WorldRelation R) (world : World) (name content : Bytes) :
    R world (world.write name content) :=
  hR.outside world world.process.clock _

theorem handleAction_relates
    (hR : WorldRelation R)
    (hcallee : ∀ world call, R world (callee world call).1)
    (world : World) (action : Action) :
    R world (handleAction callee world action).1 := by
  cases action with
  | render call => exact hcallee world call
  | sleep seconds => exact hR.sleep world seconds
  | write name content => exact hR.write world name content

theorem executeModule_relates
    (hR : WorldRelation R)
    (hcallee : ∀ world call, R world (callee world call).1)
    (world : World) (call : Call) (obtained : Obtained) :
    R world (executeModule lib callee world call obtained).1 := by
  rcases executeModule_cases lib callee world call obtained with
    ⟨result, hend⟩ | ⟨input, hend⟩
  · rw [hend]
    exact hR.refl world
  · rw [hend]
    exact CallTree.run_relates hR.refl hR.trans
      (hR.handleAction_relates hcallee) (lib.execute input) world

/-- What every call does when the calls nested in it do, every call does. -/
theorem render_relates
    (hR : WorldRelation R)
    (hstep : ∀ callee : Callee,
      (∀ world call, R world (callee world call).1) →
      ∀ world call, R world (renderWith lib callee world call).1)
    (fuel : ℕ) (world : World) (call : Call) :
    R world (render lib fuel world call).1 := by
  induction fuel generalizing world call with
  | zero => exact hR.refl world
  | succ fuel ih => exact hstep (render lib fuel) ih world call

theorem runScript_relates
    (hR : WorldRelation R)
    (hstep : ∀ callee : Callee,
      (∀ world call, R world (callee world call).1) →
      ∀ world call, R world (renderWith lib callee world call).1)
    (fuel : ℕ) (script : Script) (world : World) :
    R world (runScript lib fuel script world).1 :=
  CallTree.run_relates hR.refl hR.trans
    (hR.handleAction_relates (hR.render_relates hstep fuel)) script world

/-! ### Calls which return -/

theorem handleAction_ok_relates
    (hR : WorldRelation R)
    (hcallee : ∀ world call world' result,
      callee world call = (world', .ok result) → R world world')
    (world : World) (action : Action) (world' : World) (answer : CallResult)
    (hserve : handleAction callee world action = (world', .ok answer)) :
    R world world' := by
  cases action with
  | render call => exact hcallee world call world' answer hserve
  | sleep seconds =>
      obtain ⟨rfl, _⟩ := Prod.mk.inj hserve
      exact hR.sleep world seconds
  | write name content =>
      obtain ⟨rfl, _⟩ := Prod.mk.inj hserve
      exact hR.write world name content

theorem executeModule_ok_relates
    (hR : WorldRelation R)
    (hcallee : ∀ world call world' result,
      callee world call = (world', .ok result) → R world world')
    {world world' : World} {call : Call} {obtained : Obtained}
    {result : CallResult}
    (hexecute : executeModule lib callee world call obtained =
      (world', .ok result)) :
    R world world' := by
  rcases executeModule_cases lib callee world call obtained with
    ⟨other, hend⟩ | ⟨input, hend⟩
  · rw [hend] at hexecute
    obtain ⟨rfl, _⟩ := Prod.mk.inj hexecute
    exact hR.refl world
  · rw [hend] at hexecute
    rcases hrun : (lib.execute input).run (handleAction callee) world with
      ⟨world'', halt | finish⟩
    · simp [hrun, Except.map] at hexecute
    · simp only [hrun, Prod.mk.injEq] at hexecute
      obtain ⟨rfl, _⟩ := hexecute
      exact CallTree.run_ok_relates hR.refl hR.trans
        (hR.handleAction_ok_relates hcallee) (lib.execute input) hrun

theorem render_ok_relates
    (hstep : ∀ callee : Callee,
      (∀ world call world' result,
        callee world call = (world', .ok result) → R world world') →
      ∀ world call world' result,
        renderWith lib callee world call = (world', .ok result) →
          R world world')
    (fuel : ℕ) (world : World) (call : Call) (world' : World)
    (result : CallResult)
    (hrender : render lib fuel world call = (world', .ok result)) :
    R world world' := by
  induction fuel generalizing world call world' result with
  | zero => simp [render] at hrender
  | succ fuel ih =>
      exact hstep (render lib fuel) ih world call world' result hrender

theorem runScript_ok_relates
    (hR : WorldRelation R)
    (hstep : ∀ callee : Callee,
      (∀ world call world' result,
        callee world call = (world', .ok result) → R world world') →
      ∀ world call world' result,
        renderWith lib callee world call = (world', .ok result) →
          R world world')
    {fuel : ℕ} {script : Script} {world world' : World}
    (hrun : runScript lib fuel script world = (world', .ok ())) :
    R world world' :=
  CallTree.run_ok_relates hR.refl hR.trans
    (hR.handleAction_ok_relates (render_ok_relates hstep fuel)) script hrun

end WorldRelation

/-! ## Events -/

def LogGrows (before after : World) : Prop :=
  before.events <+: after.events

theorem logGrows_worldRelation : WorldRelation LogGrows where
  refl := fun _ => List.prefix_rfl
  trans := fun _ _ _ hfirst hsecond => hfirst.trans hsecond
  outside := fun _ _ _ => List.prefix_rfl

theorem enter_logGrows (world : World) (call : Call) :
    LogGrows world (world.enter call) :=
  List.prefix_append _ _

theorem leave_logGrows
    (world : World) (call : Call) (before : Process)
    (cacheId : Option (StringRef × Bytes)) (lookup : Lookup)
    (obtained : Obtained) (result : CallResult) :
    LogGrows world
      (world.leave call before cacheId lookup obtained result) :=
  List.prefix_append _ _

theorem renderWith_logGrows
    (hcallee : ∀ world call, LogGrows world (callee world call).1)
    (world : World) (call : Call) :
    LogGrows (world.enter call) (renderWith lib callee world call).1 := by
  have hexecute : ∀ (lookup : Lookup) (obtained : Obtained),
      LogGrows (world.enter call) (executeModule lib callee
        (((world.enter call).look lookup).obtain obtained) call obtained).1 :=
    fun lookup obtained =>
      logGrows_worldRelation.executeModule_relates hcallee
        (((world.enter call).look lookup).obtain obtained) call obtained
  have hstep := renderWith_step lib callee world call
  generalize renderWith lib callee world call = ending at hstep ⊢
  cases hstep with
  | badOptions fault hid => exact List.prefix_rfl
  | badCompile cacheId lookup fault hid hlookup hobtain =>
      exact List.prefix_rfl
  | halted cacheId lookup obtained executed halt hid hlookup hobtain hend =>
      have hgrow := hexecute lookup obtained
      rwa [hend] at hgrow
  | returned cacheId lookup obtained executed result hid hlookup hobtain
      hend =>
      have hgrow := hexecute lookup obtained
      rw [hend] at hgrow
      exact hgrow.trans (leave_logGrows _ _ _ _ _ _ _)

theorem render_logGrows (fuel : ℕ) (world : World) (call : Call) :
    LogGrows world (render lib fuel world call).1 :=
  logGrows_worldRelation.render_relates
    (fun _ hcallee world call =>
      (enter_logGrows world call).trans
        (renderWith_logGrows hcallee world call))
    fuel world call

def World.results (world : World) : List (Call × CallResult) :=
  world.events.filterMap fun
    | .leave call _ _ _ result => some (call, result)
    | .enter _ _ => none

@[simp] theorem results_enter (world : World) (call : Call) :
    (world.enter call).results = world.results := by
  simp [World.results, World.enter]

@[simp] theorem results_look (world : World) (lookup : Lookup) :
    (world.look lookup).results = world.results := rfl

@[simp] theorem results_leave
    (world : World) (call : Call) (before : Process)
    (cacheId : Option (StringRef × Bytes)) (lookup : Lookup)
    (obtained : Obtained) (result : CallResult) :
    (world.leave call before cacheId lookup obtained result).results =
      world.results ++ [(call, result)] := by
  simp [World.results, World.leave]

/-! ### What holds when a call is left -/

abbrev LeaveProperty :=
  Call → Process → Ledger LeaseKey → Ledger StringRef → Prop

def EveryLeave (P : LeaveProperty) (world : World) : Prop :=
  ∀ call before leases refs result,
    .leave call before leases refs result ∈ world.events →
      P call before leases refs

/-- A property of what a single call takes and gives back. -/
def LeaveRule (lib : Library) (P : LeaveProperty) : Prop :=
  ∀ {process : Process} {call : Call} {cacheId : Option (StringRef × Bytes)}
    {lookup : Lookup} {obtained : Obtained},
    selectCacheId call = .ok cacheId →
    lookup = lookupCache process call (cacheId.map Prod.snd) →
    obtainModule lib lookup.process call (cacheId.map Prod.snd)
      lookup.module = .ok obtained →
    P call process
      (lookup.leases ++ releaseLease lookup.fromCache
        (cacheId.map Prod.snd) obtained.module)
      (stringRefs cacheId obtained.refs)

theorem everyLeave_worldRelation (P : LeaveProperty) :
    WorldRelation fun before after =>
      EveryLeave P before → EveryLeave P after where
  refl := fun _ h => h
  trans := fun _ _ _ hfirst hsecond h => hsecond (hfirst h)
  outside := fun _ _ _ h => h

theorem EveryLeave.enter {P : LeaveProperty} {world : World}
    (hevery : EveryLeave P world) (call : Call) :
    EveryLeave P (world.enter call) := by
  intro other before leases refs result hmem
  apply hevery other before leases refs result
  simpa [World.enter] using hmem

theorem renderWith_everyLeave {P : LeaveProperty} (hrule : LeaveRule lib P)
    (hcallee : ∀ world call, EveryLeave P world →
      EveryLeave P (callee world call).1)
    (world : World) (call : Call) (hevery : EveryLeave P world) :
    EveryLeave P (renderWith lib callee world call).1 := by
  have hexecute : ∀ (lookup : Lookup) (obtained : Obtained),
      EveryLeave P (executeModule lib callee
        (((world.enter call).look lookup).obtain obtained) call
          obtained).1 :=
    fun lookup obtained =>
      (everyLeave_worldRelation P).executeModule_relates hcallee
        (((world.enter call).look lookup).obtain obtained) call obtained
        (hevery.enter call)
  have hstep := renderWith_step lib callee world call
  generalize renderWith lib callee world call = ending at hstep ⊢
  cases hstep with
  | badOptions fault hid => exact hevery.enter call
  | badCompile cacheId lookup fault hid hlookup hobtain =>
      exact hevery.enter call
  | halted cacheId lookup obtained executed halt hid hlookup hobtain hend =>
      simpa [hend] using hexecute lookup obtained
  | returned cacheId lookup obtained executed result hid hlookup hobtain
      hend =>
      have hinner : EveryLeave P executed := by
        simpa [hend] using hexecute lookup obtained
      intro other before leases refs result' hmem
      rcases List.mem_append.mp hmem with hold | hlast
      · exact hinner other before leases refs result' hold
      · obtain ⟨rfl, rfl, rfl, rfl, _⟩ := CallEvent.leave.inj
          (List.mem_singleton.mp hlast)
        exact hrule hid hlookup hobtain

/-- What holds of each call by itself holds of all calls of a script, nested
ones included. -/
theorem runScript_everyLeave {P : LeaveProperty} (hrule : LeaveRule lib P)
    (fuel : ℕ) (script : Script) (process : Process) :
    EveryLeave P (runScript lib fuel script (.start process)).1 := by
  apply (everyLeave_worldRelation P).runScript_relates
    (fun _ hcallee => renderWith_everyLeave hrule hcallee) fuel script
  intro call before leases refs result hmem
  simp [World.start] at hmem

/-! ## Two runs side by side -/

/-- A relation between the states of two runs, and a property of the log of
the first one while which it is kept. -/
structure WorldSimulation (R : World → World → Prop) (Good : World → Prop) :
    Prop where
  sleep : ∀ world world' seconds, R world world' →
    R (world.sleep seconds) (world'.sleep seconds)
  write : ∀ world world' name content, R world world' →
    R (world.write name content) (world'.write name content)
  grows : ∀ before after, LogGrows before after → Good after → Good before

def Together (R : World → World → Prop) {Out : Type}
    (first second : World × Except Halt Out) : Prop :=
  R first.1 second.1 ∧ first.2 = second.2

def CalleesAgree (R : World → World → Prop) (Good : World → Prop)
    (callee callee' : Callee) : Prop :=
  ∀ world world' call, R world world' → Good (callee world call).1 →
    Together R (callee world call) (callee' world' call)

namespace WorldSimulation

variable {R : World → World → Prop} {Good : World → Prop}
variable {callee' : Callee}

theorem handleAction_together
    (hR : WorldSimulation R Good) (hcallee : CalleesAgree R Good callee callee')
    (world world' : World) (action : Action) (hrel : R world world')
    (hgood : Good (handleAction callee world action).1) :
    Together R (handleAction callee world action)
      (handleAction callee' world' action) := by
  cases action with
  | render call => exact hcallee world world' call hrel hgood
  | sleep seconds => exact ⟨hR.sleep world world' seconds hrel, rfl⟩
  | write name content =>
      exact ⟨hR.write world world' name content hrel, rfl⟩

theorem tree_together
    (hR : WorldSimulation R Good) (hcallee : CalleesAgree R Good callee callee')
    (hgrows : ∀ world call, LogGrows world (callee world call).1)
    {Out : Type} (tree : CallTree Action CallResult Out)
    {world world' : World} (hrel : R world world')
    (hgood : Good (tree.run (handleAction callee) world).1) :
    Together R (tree.run (handleAction callee) world)
      (tree.run (handleAction callee') world') :=
  CallTree.run_simulates
    (fun world action => hR.grows _ _
      (logGrows_worldRelation.handleAction_relates hgrows world action))
    (hR.handleAction_together hcallee) tree hrel hgood

theorem executeModule_together
    (hR : WorldSimulation R Good) (hcallee : CalleesAgree R Good callee callee')
    (hgrows : ∀ world call, LogGrows world (callee world call).1)
    (lib : Library) {world world' : World} (hrel : R world world')
    (call call' : Call) (hcontext : call.context = call'.context)
    (hhelpers : call.helpers = call'.helpers)
    (hpartials : call.partials = call'.partials)
    {obtained obtained' : Obtained}
    (hmodule : obtained.module.map Module.image =
      obtained'.module.map Module.image)
    (hvm : obtained.vm = obtained'.vm)
    (hpending : obtained.pending = obtained'.pending)
    (hgood : Good (executeModule lib callee world call obtained).1) :
    Together R (executeModule lib callee world call obtained)
      (executeModule lib callee' world' call' obtained') := by
  have hvalue : call.contextValue = call'.contextValue := by
    simp only [Call.contextValue, hcontext]
  cases hfound : obtained.module with
  | none =>
      have hfound' : obtained'.module = none := by
        simpa [hfound] using hmodule.symm
      simp only [executeModule, hfound, hfound', hpending]
      exact ⟨hrel, rfl⟩
  | some module =>
      obtain ⟨module', hfound', himage⟩ :
          ∃ module', obtained'.module = some module' ∧
            module'.image = module.image := by
        rw [hfound, Option.map_some] at hmodule
        exact Option.map_eq_some_iff.mp hmodule.symm
      cases hconverted : call.contextValue with
      | error error =>
          rw [hconverted] at hvalue
          simp only [executeModule, hfound, hfound', hconverted, ← hvalue,
            hpending]
          exact ⟨hrel, rfl⟩
      | ok context =>
          have hinput : obtained'.executionInput call' module' context =
              obtained.executionInput call module context := by
            simp [Obtained.executionInput, himage, hvm, hpending, hhelpers,
              hpartials]
          rw [executeModule_of_context hfound hconverted] at hgood ⊢
          rw [executeModule_of_context hfound' (hvalue ▸ hconverted), hinput]
          obtain ⟨hstate, hanswer⟩ := hR.tree_together hcallee hgrows
            (lib.execute (obtained.executionInput call module context))
            hrel hgood
          exact ⟨hstate, by simp only [hanswer]⟩

/-- Calls agree when their executions do, and the relation outlasts the
return. -/
theorem renderWith_together
    (hR : WorldSimulation R Good) {world world' : World} {call : Call}
    {cacheId : Option (StringRef × Bytes)} {lookup lookup' : Lookup}
    {obtained obtained' : Obtained}
    (hid : selectCacheId call = .ok cacheId)
    (hlookup : lookup =
      lookupCache world.process call (cacheId.map Prod.snd))
    (hlookup' : lookup' =
      lookupCache world'.process call (cacheId.map Prod.snd))
    (hobtain : obtainModule lib lookup.process call (cacheId.map Prod.snd)
      lookup.module = .ok obtained)
    (hobtain' : obtainModule lib lookup'.process call (cacheId.map Prod.snd)
      lookup'.module = .ok obtained')
    (hleave : ∀ executed executed' result, R executed executed' →
      R (executed.leave call world.process cacheId lookup obtained result)
        (executed'.leave call world'.process cacheId lookup' obtained'
          result))
    (hexecute : Good (executeModule lib callee
        (((world.enter call).look lookup).obtain obtained) call
          obtained).1 →
      Together R (executeModule lib callee
          (((world.enter call).look lookup).obtain obtained) call obtained)
        (executeModule lib callee'
          (((world'.enter call).look lookup').obtain obtained') call
            obtained'))
    (hgood : Good (renderWith lib callee world call).1) :
    Together R (renderWith lib callee world call)
      (renderWith lib callee' world' call) := by
  rw [renderWith_of_obtained hid hlookup hobtain] at hgood ⊢
  rw [renderWith_of_obtained hid hlookup' hobtain']
  rcases hend : executeModule lib callee
      (((world.enter call).look lookup).obtain obtained) call obtained with
    ⟨executed, halt | result⟩
  all_goals
    rcases hend' : executeModule lib callee'
        (((world'.enter call).look lookup').obtain obtained') call
          obtained' with ⟨executed', outcome'⟩
    simp only [hend, hend', World.leaveExecuted] at hexecute hgood ⊢
  · obtain ⟨hstate, rfl⟩ := hexecute hgood
    exact ⟨hstate, rfl⟩
  · obtain ⟨hstate, rfl⟩ := hexecute
      (hR.grows _ _ (leave_logGrows _ _ _ _ _ _ _) hgood)
    exact ⟨hleave executed executed' result hstate, rfl⟩

theorem runScript_together
    (hR : WorldSimulation R Good)
    (hrender : ∀ fuel, CalleesAgree R Good (render lib fuel)
      (render lib fuel))
    (fuel : ℕ) (script : Script) {world world' : World}
    (hrel : R world world')
    (hgood : Good (runScript lib fuel script world).1) :
    Together R (runScript lib fuel script world)
      (runScript lib fuel script world') :=
  hR.tree_together (hrender fuel) (render_logGrows fuel) script hrel hgood

end WorldSimulation

end PhpHandlebars
