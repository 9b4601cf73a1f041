import PhpHandlebars.RenderRun
import Mathlib.Logic.Function.Basic
import Mathlib.Tactic

/-!
# Rendering with and without a cache

A run with a cache is compared with the run of the same script without one.
The two stay together as long as every module served from the cache is the
module the call would have compiled, and the compilation would have left the
VM as it was.
-/

namespace PhpHandlebars

variable {lib : Library}

structure UsesInputAsId (call : Call) : Prop where
  type : call.type ≠ .binary
  options : HasNoCacheId call.options

theorem UsesInputAsId.selectCacheId
    {call : Call} (huses : UsesInputAsId call) :
    selectCacheId call = .ok (some (.input, call.input)) := by
  rw [selectCacheId_of_hasNoCacheId huses.options, Call.defaultCacheId,
    if_neg huses.type]

def ServedHit (before : Process) (call : Call) (module : Module) : Prop :=
  before.cacheFind call.input = some module ∧
    before.isStale call module = false

/-- The module was compiled from the text of the call without any flags, with
the known helpers which the call has, and the options of the call set no flag
either. -/
structure MatchesEntry (lib : Library) (before : Process) (call : Call)
    (module : Module) : Prop where
  flags : optionFlags call.options = ∅
  thrown : call.helpers.thrown = none
  source : ∃ text known stored, before.templateText call = some text ∧
    module.source = .compiled text ∅ (some known) ∧
    fetchKnownHelpers (lib.optionCompiler call.options) call.helpers =
      .ok (⟨∅, some known⟩, stored)

/-- Every call entered is in scope, and what it is served from the cache is
a match. -/
def HitsMatch (lib : Library) (world : World) : Prop :=
  ∀ call before, .enter call before ∈ world.events →
    UsesInputAsId call ∧
      ∀ module, ServedHit before call module →
        MatchesEntry lib before call module

/-! ## Processes which differ in the cache only -/

/-- What is stored was compiled from what it says it was. -/
def SoundStore (lib : Library) (store : Bytes → Option Module) : Prop :=
  ∀ id module, store id = some module → ∀ text flags known,
    module.source = .compiled text flags known →
      lib.pipeline text flags ⟨flags, known⟩ = .ok module.image

structure SameButCache (lib : Library) (cached plain : Process) : Prop where
  store : ∃ store, cached.cache = some store ∧ SoundStore lib store
  noCache : plain.cache = none
  files : cached.files = plain.files
  clock : cached.clock = plain.clock

theorem SameButCache.find
    {cached plain : Process} (hsame : SameButCache lib cached plain)
    (finds : ℕ) (statCache : Option (Bytes × ℕ)) :
    SameButCache lib
      { cached with finds := finds, statCache := statCache } plain :=
  ⟨hsame.store, hsame.noCache, hsame.files, hsame.clock⟩

theorem SameButCache.add
    {cached plain : Process} (hsame : SameButCache lib cached plain)
    (id : Bytes) {module : Module}
    (hsound : ∀ text flags known,
      module.source = .compiled text flags known →
        lib.pipeline text flags ⟨flags, known⟩ = .ok module.image) :
    SameButCache lib (cached.cacheAdd id module)
      (plain.cacheAdd id module) := by
  obtain ⟨store, hstore, hsoundStore⟩ := hsame.store
  refine ⟨⟨Function.update store id (some module), ?_, ?_⟩, ?_, hsame.files,
    hsame.clock⟩
  · simp [Process.cacheAdd, hstore]
  · intro other found hfound
    by_cases heq : other = id
    · subst other
      rw [Function.update_self] at hfound
      obtain rfl := Option.some.inj hfound
      exact hsound
    · rw [Function.update_of_ne heq] at hfound
      exact hsoundStore other found hfound
  · simp [Process.cacheAdd, hsame.noCache]

/-- Both calls go wrong alike, or what they have obtained executes alike. -/
inductive ObtainedAlike (lib : Library) :
    Except Fault Obtained → Except Fault Obtained → Prop where
  | fault (fault : Fault) : ObtainedAlike lib (.error fault) (.error fault)
  | obtained (obtained obtained' : Obtained)
      (process : SameButCache lib obtained.process obtained'.process)
      (image : obtained.module.map Module.image =
        obtained'.module.map Module.image)
      (vm : obtained.vm = obtained'.vm)
      (pending : obtained.pending = obtained'.pending) :
      ObtainedAlike lib (.ok obtained) (.ok obtained')

theorem compileTemplate_alike
    {cached plain : Process} (hsame : SameButCache lib cached plain)
    (call : Call) (id : Bytes) (tmplRef : StringRef) (tmpl : Bytes) :
    ObtainedAlike lib
      (compileTemplate lib cached call (some id) tmplRef tmpl)
      (compileTemplate lib plain call (some id) tmplRef tmpl) := by
  unfold compileTemplate
  rw [← hsame.clock]
  cases hresult : compile lib cached.clock (some .fresh) tmplRef tmpl
      (some call.helpers) call.options with
  | error fault => exact .fault fault
  | ok result =>
      refine .obtained _ _ ?_ rfl rfl rfl
      cases hmodule : result.module with
      | none => simpa using hsame
      | some module =>
          obtain ⟨flags, compiler, hconfigure, hpipeline, _, hsource⟩ :=
            compile_module hresult hmodule
          have hflags := (configure_flags hconfigure).2
          apply hsame.add id
          intro text flags' known hsource'
          rw [hsource] at hsource'
          obtain ⟨rfl, rfl, rfl⟩ := ModuleSource.compiled.inj hsource'
          rw [← hpipeline, ← hflags]

theorem obtainModule_alike
    {cached plain : Process} {call : Call}
    (hsame : SameButCache lib cached plain) (htype : call.type ≠ .binary)
    (id : Bytes) :
    ObtainedAlike lib (obtainModule lib cached call (some id) none)
      (obtainModule lib plain call (some id) none) := by
  unfold obtainModule
  cases hcall : call.type with
  | string => exact compileTemplate_alike hsame call id .input call.input
  | binary => exact absurd hcall htype
  | filename =>
      simp only
      rw [← hsame.files]
      cases cached.files call.input with
      | none => exact .obtained _ _ hsame rfl rfl rfl
      | some file =>
          exact compileTemplate_alike hsame call id .contents file.content

theorem obtainModule_of_matchesEntry
    {cached plain : Process} {call : Call} {module : Module}
    (hsame : SameButCache lib cached plain)
    (hserved : ServedHit cached call module)
    (hmatches : MatchesEntry lib cached call module) :
    ∃ obtained module',
      obtainModule lib plain call (some call.input) none = .ok obtained ∧
      obtained.process = plain ∧ obtained.module = some module' ∧
      module'.image = module.image ∧ obtained.vm = .fresh ∧
      obtained.pending = none := by
  obtain ⟨text, known, stored, htext, hsource, hfetch⟩ := hmatches.source
  obtain ⟨store, hstore, hsound⟩ := hsame.store
  have hfound : store call.input = some module := by
    obtain ⟨store', hstore', hfound⟩ := cacheFind_mem hserved.1
    rw [hstore] at hstore'
    rwa [Option.some.inj hstore']
  have hpipeline := hsound call.input module hfound text ∅ (some known) hsource
  have hconfigure : lib.configure (some .fresh) (some call.helpers)
      call.options = .ok (∅, ⟨∅, some known⟩, some .fresh, none) := by
    have hdata : dataError call.options = none := by
      simp [dataError, optionData_eq_none_of_flags hmatches.flags]
    rw [configure_with_vm, hdata]
    simp [hfetch, hmatches.flags, hmatches.thrown,
      optionVm_of_flags hmatches.flags]
  have hadd : ∀ other, plain.cacheAdd call.input other = plain := by
    intro other
    have hcache := hsame.noCache
    unfold Process.cacheAdd
    rw [hcache]
    cases plain
    simp_all
  have hcompile : ∀ tmplRef, compileTemplate lib plain call
      (some call.input) tmplRef text =
        .ok ⟨plain, some ⟨module.image, plain.clock,
          .compiled text ∅ (some known)⟩, .fresh, none,
            [.acquire tmplRef, .release tmplRef]⟩ := by
    intro tmplRef
    simp [compileTemplate, compile, hconfigure, hpipeline, saveCacheEntry,
      hadd, bind, Except.bind, pure, Except.pure]
  have hobtain : ∃ tmplRef, obtainModule lib plain call (some call.input)
      none = compileTemplate lib plain call (some call.input) tmplRef
        text := by
    unfold Process.templateText at htext
    unfold obtainModule
    cases htype : call.type with
    | string =>
        simp only [htype, Option.some.injEq] at htext
        exact ⟨.input, by rw [htext]⟩
    | filename =>
        simp only [htype] at htext
        obtain ⟨file, hfile, rfl⟩ := Option.map_eq_some_iff.mp htext
        rw [hsame.files] at hfile
        exact ⟨.contents, by simp only [hfile]⟩
    | binary => simp [htype] at htext
  obtain ⟨tmplRef, hobtain⟩ := hobtain
  exact ⟨_, _, hobtain.trans (hcompile tmplRef), rfl, rfl, rfl, rfl, rfl⟩

/-! ## The two runs -/

structure SameResults (lib : Library) (cached plain : World) : Prop where
  process : SameButCache lib cached.process plain.process
  results : cached.results = plain.results

theorem HitsMatch.of_logGrows
    {before after : World} (hgrows : LogGrows before after)
    (hhits : HitsMatch lib after) : HitsMatch lib before :=
  fun call process hmem => hhits call process (hgrows.subset hmem)

theorem sameResults_worldSimulation :
    WorldSimulation (SameResults lib) (HitsMatch lib) where
  sleep := by
    intro cached plain seconds hsame
    refine ⟨⟨hsame.process.store, hsame.process.noCache,
      hsame.process.files, ?_⟩, hsame.results⟩
    change cached.process.clock + seconds = plain.process.clock + seconds
    rw [hsame.process.clock]
  write := by
    intro cached plain name content hsame
    refine ⟨⟨hsame.process.store, hsame.process.noCache, ?_,
      hsame.process.clock⟩, hsame.results⟩
    change Function.update cached.process.files name
        (some ⟨content, cached.process.clock⟩) =
      Function.update plain.process.files name
        (some ⟨content, plain.process.clock⟩)
    rw [hsame.process.files, hsame.process.clock]
  grows := fun _ _ hgrows hhits => hhits.of_logGrows hgrows

theorem SameResults.enter
    {cached plain : World} (hsame : SameResults lib cached plain)
    (call : Call) :
    SameResults lib (cached.enter call) (plain.enter call) :=
  ⟨hsame.process, by simpa using hsame.results⟩

theorem SameResults.obtain
    {cached plain : World} (hsame : SameResults lib cached plain)
    (lookup lookup' : Lookup) {obtained obtained' : Obtained}
    (hprocess : SameButCache lib obtained.process obtained'.process) :
    SameResults lib ((cached.look lookup).obtain obtained)
      ((plain.look lookup').obtain obtained') :=
  ⟨hprocess, hsame.results⟩

theorem lookupCache_plain
    {cached plain : Process} (hsame : SameButCache lib cached plain)
    (call : Call) (cacheId : Option Bytes) :
    lookupCache plain call cacheId = ⟨plain, none, false, []⟩ := by
  cases cacheId <;> simp [lookupCache, hsame.noCache]

theorem SameButCache.lookup
    {cached plain : Process} (hsame : SameButCache lib cached plain)
    (call : Call) (cacheId : Option Bytes) :
    SameButCache lib (lookupCache cached call cacheId).process
      (lookupCache plain call cacheId).process := by
  rw [lookupCache_plain hsame]
  have hstep := lookupCache_step cached call cacheId
  generalize lookupCache cached call cacheId = lookup at hstep ⊢
  cases hstep with
  | miss finds hmiss => exact hsame.find finds cached.statCache
  | stale key module hkey hfind hstale => exact hsame.find _ _
  | hit key module hkey hfind hfresh => exact hsame.find _ _

theorem obtainModule_together
    {cached plain : Process} {call : Call}
    (hsame : SameButCache lib cached plain) (huses : UsesInputAsId call)
    (hmatches : ∀ module, ServedHit cached call module →
      MatchesEntry lib cached call module) :
    ObtainedAlike lib
      (obtainModule lib (lookupCache cached call (some call.input)).process
        call (some call.input)
        (lookupCache cached call (some call.input)).module)
      (obtainModule lib (lookupCache plain call (some call.input)).process
        call (some call.input)
        (lookupCache plain call (some call.input)).module) := by
  rw [lookupCache_plain hsame]
  have hstep := lookupCache_step cached call (some call.input)
  generalize lookupCache cached call (some call.input) = lookup at hstep ⊢
  cases hstep with
  | miss finds hmiss =>
      exact obtainModule_alike (hsame.find finds cached.statCache) huses.type
        call.input
  | stale key module hkey hfind hstale =>
      exact obtainModule_alike (hsame.find _ _) huses.type call.input
  | hit key module hkey hfind hfresh =>
      obtain rfl := Option.some.inj hkey
      have hserved : ServedHit cached call module :=
        ⟨hfind, by simpa using hfresh⟩
      obtain ⟨obtained', module', hobtain', hprocess, hmodule, himage, hvm,
          hpending⟩ :=
        obtainModule_of_matchesEntry hsame hserved (hmatches module hserved)
      simp only [hobtain']
      refine .obtained ⟨_, some module, .fresh, none, []⟩ obtained' ?_ ?_
        hvm.symm hpending.symm
      · rw [hprocess]
        exact hsame.find _ _
      · simp [hmodule, himage]

theorem renderWith_together
    {callee callee' : Callee}
    (hgrows : ∀ world call, LogGrows world (callee world call).1)
    (hcallee : CalleesAgree (SameResults lib) (HitsMatch lib) callee callee') :
    CalleesAgree (SameResults lib) (HitsMatch lib) (renderWith lib callee)
      (renderWith lib callee') := by
  intro cached plain call hsame hhits
  obtain ⟨huses, hmatches⟩ := hhits call cached.process
    ((renderWith_logGrows hgrows cached call).subset
      (by simp [World.enter]))
  have hid := huses.selectCacheId
  have halike := obtainModule_together hsame.process huses hmatches
  generalize hobtain : obtainModule lib
    (lookupCache cached.process call (some call.input)).process call
    (some call.input)
    (lookupCache cached.process call (some call.input)).module = ending
    at halike
  generalize hobtain' : obtainModule lib
    (lookupCache plain.process call (some call.input)).process call
    (some call.input)
    (lookupCache plain.process call (some call.input)).module = ending'
    at halike
  cases halike with
  | fault fault =>
      rw [renderWith_of_fault hid hobtain, renderWith_of_fault hid hobtain']
      exact ⟨⟨hsame.process.lookup call (some call.input),
        by simpa using hsame.results⟩, rfl⟩
  | obtained obtained obtained' hprocess himage hvm hpending =>
      have hstart := (hsame.enter call).obtain
        (lookupCache cached.process call (some call.input))
        (lookupCache plain.process call (some call.input)) hprocess
      exact sameResults_worldSimulation.renderWith_together hid rfl rfl
        hobtain hobtain'
        (fun _ _ _ hstate =>
          ⟨hstate.process, by simpa using hstate.results⟩)
        (sameResults_worldSimulation.executeModule_together hcallee hgrows
          lib hstart call call rfl rfl rfl himage hvm hpending)
        hhits

theorem render_together (fuel : ℕ) :
    CalleesAgree (SameResults lib) (HitsMatch lib) (render lib fuel)
      (render lib fuel) := by
  induction fuel with
  | zero => exact fun _ _ _ hsame _ => ⟨hsame, rfl⟩
  | succ fuel ih => exact renderWith_together (render_logGrows fuel) ih

def cachedRun (lib : Library) (fuel : ℕ) (script : Script)
    (process : Process) : World × Except Halt Unit :=
  runScript lib fuel script
    (.start { process with cache := some fun _ => none })

def plainRun (lib : Library) (fuel : ℕ) (script : Script)
    (process : Process) : World × Except Halt Unit :=
  runScript lib fuel script (.start { process with cache := none })

/-- When every hit is a match, each call, nested or not, gives the result it
gives without a cache. -/
theorem cache_transparent
    (lib : Library) (fuel : ℕ) (script : Script) (process : Process)
    (hhits : HitsMatch lib (cachedRun lib fuel script process).1) :
    (cachedRun lib fuel script process).1.results =
        (plainRun lib fuel script process).1.results ∧
      (cachedRun lib fuel script process).2 =
        (plainRun lib fuel script process).2 := by
  have hstart : SameResults lib
      (.start { process with cache := some fun _ => none })
      (.start { process with cache := none }) :=
    ⟨⟨⟨_, rfl, fun _ _ hfound => by simp at hfound⟩, rfl, rfl, rfl⟩, rfl⟩
  obtain ⟨hstate, houtcome⟩ :=
    sameResults_worldSimulation.runScript_together render_together fuel script
      hstart hhits
  exact ⟨hstate.results, houtcome⟩

/-! ## Two scripts -/

theorem sampleCall_usesInputAsId
    {type : InputType} (htype : type ≠ .binary) (input : Bytes) :
    UsesInputAsId (sampleCall type input) :=
  ⟨htype, .inl rfl⟩

def repeatedTemplate : Script :=
  .sequence [.render (sampleCall .string (ascii "f")),
    .render (sampleCall .string (ascii "f"))]

theorem repeatedTemplate_hitsMatch :
    HitsMatch sampleLibrary
      (cachedRun sampleLibrary 1 repeatedTemplate sampleProcess).1 := by
  intro call before hmem
  -- the first call finds nothing, the second what the first has left
  rcases hmem with _ | ⟨_, _ | ⟨_, _ | ⟨_, _ | ⟨_, hnone⟩⟩⟩⟩
  · refine ⟨sampleCall_usesInputAsId (by decide) _, ?_⟩
    rintro module ⟨hfind, _⟩
    simp [Process.cacheFind, World.start, sampleProcess] at hfind
  · refine ⟨sampleCall_usesInputAsId (by decide) _, ?_⟩
    rintro module ⟨hfind, _⟩
    obtain rfl := Option.some.inj hfind
    exact ⟨rfl, rfl, ascii "f", [ascii "if"], _, rfl, rfl, rfl⟩
  · exact absurd hnone (List.not_mem_nil)

theorem cache_transparent_of_repeatedTemplate :
    (cachedRun sampleLibrary 1 repeatedTemplate sampleProcess).1.results =
        (plainRun sampleLibrary 1 repeatedTemplate sampleProcess).1.results ∧
      (cachedRun sampleLibrary 1 repeatedTemplate sampleProcess).2 =
        (plainRun sampleLibrary 1 repeatedTemplate sampleProcess).2 :=
  cache_transparent sampleLibrary 1 repeatedTemplate sampleProcess
    repeatedTemplate_hitsMatch

def fileThenTemplate : Script :=
  .sequence [.render (sampleCall .filename (ascii "f")),
    .render (sampleCall .string (ascii "f"))]

/-- The template renders as the contents of the file. -/
theorem template_text_hits_file_entry :
    (∀ call before, .enter call before ∈
        (cachedRun sampleLibrary 1 fileThenTemplate sampleProcess).1.events →
          UsesInputAsId call) ∧
      (cachedRun sampleLibrary 1 fileThenTemplate sampleProcess).1.results ≠
        (plainRun sampleLibrary 1 fileThenTemplate sampleProcess).1.results :=
    by
  constructor
  · intro call before hmem
    rcases hmem with _ | ⟨_, _ | ⟨_, _ | ⟨_, _ | ⟨_, hnone⟩⟩⟩⟩
    · exact sampleCall_usesInputAsId (by decide) _
    · exact sampleCall_usesInputAsId (by decide) _
    · exact absurd hnone (List.not_mem_nil)
  · intro heq
    have houtputs := congrArg (List.map Prod.snd) heq
    revert houtputs
    decide

end PhpHandlebars
