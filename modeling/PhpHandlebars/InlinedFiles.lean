import PhpHandlebars.CallOutcomes
import Mathlib.Tactic

/-!
# Files in the place of templates

Without a cache, `renderFile` does what `render` does with the contents which
the file has at that moment, also in the calls which helpers make.  Two runs are
compared, one of which puts the contents in the place of every readable file.
-/

namespace PhpHandlebars

variable {lib : Library}

/-- The call of `render` which stands for a call of `renderFile`. -/
def Call.inlined (process : Process) (call : Call) : Call :=
  match call.type, process.files call.input with
  | .filename, some file =>
      { call with type := .string, input := file.content }
  | _, _ => call

/-- `render`, with the contents of files in the place of their names. -/
def renderInlined (lib : Library) : ℕ → Callee
  | 0 => fun world _ => (world, .error .outOfFuel)
  | fuel + 1 => fun world call =>
      renderWith lib (renderInlined lib fuel) world
        (call.inlined world.process)

def runScriptInlined (lib : Library) (fuel : ℕ) (script : Script)
    (world : World) : World × Except Halt Unit :=
  script.run (handleAction (renderInlined lib fuel)) world

theorem Call.inlined_cases (process : Process) (call : Call) :
    call.inlined process = call ∨
      ∃ file, call.type = .filename ∧ process.files call.input = some file ∧
        call.inlined process =
          { call with type := .string, input := file.content } := by
  unfold Call.inlined
  split
  next file htype hfile => exact .inr ⟨file, htype, hfile, rfl⟩
  next => exact .inl rfl

/-- Inlining changes what is read and where the default cache id comes
from. -/
structure Reads (call call' : Call) : Prop where
  context : call'.context = call.context
  options : call'.options = call.options
  helpers : call'.helpers = call.helpers
  partials : call'.partials = call.partials

theorem Call.inlined_reads (process : Process) (call : Call) :
    Reads call (call.inlined process) := by
  rcases call.inlined_cases process with heq | ⟨file, _, _, heq⟩ <;>
    rw [heq] <;> exact ⟨rfl, rfl, rfl, rfl⟩

/-- A cache id, or the fault of looking for one, depends on the options
only. -/
theorem selectCacheId_of_options {call call' : Call}
    (hoptions : call'.options = call.options) :
    (∃ fault, selectCacheId call = .error fault ∧
      selectCacheId call' = .error fault) ∨
    ∃ id id', selectCacheId call = .ok id ∧ selectCacheId call' = .ok id' := by
  unfold selectCacheId
  rw [hoptions]
  cases call.options with
  | none => exact .inr ⟨_, _, rfl, rfl⟩
  | some options =>
      cases harray : options.arrval with
      | error fault => exact .inl ⟨fault, by simp [harray, bind, Except.bind]⟩
      | ok table =>
          right
          simp only [harray, bind, Except.bind]
          split <;> exact ⟨_, _, rfl, rfl⟩

/-- Where the template comes from is seen by the references only. -/
theorem compile_of_tmplRef (lib : Library) (now : ℕ) (vm : Option VmConfig)
    (tmplRef tmplRef' : StringRef) (tmpl : Bytes) (helpers : Option Registry)
    (options : Option Zval) :
    (compile lib now vm tmplRef' tmpl helpers options).map
        (fun result => { result with refs := [] }) =
      (compile lib now vm tmplRef tmpl helpers options).map
        fun result => { result with refs := [] } := by
  unfold compile
  split
  next => rfl
  next => rfl
  next => split <;> rfl

/-- What two calls have obtained executes alike, in the process they both
found. -/
structure ObtainedInPlace (process : Process)
    (obtained obtained' : Obtained) : Prop where
  state : obtained.process = process
  state' : obtained'.process = process
  module : obtained'.module = obtained.module
  vm : obtained'.vm = obtained.vm
  pending : obtained'.pending = obtained.pending

/-- Two ways of obtaining a module go wrong alike or execute alike. -/
inductive ObtainTogether (process : Process) :
    Except Fault Obtained → Except Fault Obtained → Prop where
  | fault (fault : Fault) :
      ObtainTogether process (.error fault) (.error fault)
  | obtained (obtained obtained' : Obtained)
      (hplace : ObtainedInPlace process obtained obtained') :
      ObtainTogether process (.ok obtained) (.ok obtained')

theorem saveCacheEntry_without_cache {process : Process}
    (hcache : process.cache = none) (id : Option Bytes) (module : Module) :
    saveCacheEntry process id module = process := by
  cases id with
  | none => rfl
  | some key =>
      cases process
      simp only at hcache
      simp [saveCacheEntry, Process.cacheAdd, hcache]

theorem compileTemplate_together {process : Process}
    (hcache : process.cache = none) {call call' : Call}
    (hreads : Reads call call') (id id' : Option Bytes)
    (tmplRef tmplRef' : StringRef) (tmpl : Bytes) :
    ObtainTogether process
      (compileTemplate lib process call id tmplRef tmpl)
      (compileTemplate lib process call' id' tmplRef' tmpl) := by
  have hcompile := compile_of_tmplRef lib process.clock (some .fresh) tmplRef
    tmplRef' tmpl (some call.helpers) call.options
  unfold compileTemplate
  rw [hreads.helpers, hreads.options]
  cases hresult : compile lib process.clock (some .fresh) tmplRef tmpl
      (some call.helpers) call.options with
  | error fault =>
      cases hresult' : compile lib process.clock (some .fresh) tmplRef' tmpl
          (some call.helpers) call.options with
      | error fault' =>
          rw [hresult, hresult'] at hcompile
          obtain rfl := Except.error.inj hcompile
          exact .fault fault'
      | ok result' => simp [hresult, hresult', Except.map] at hcompile
  | ok result =>
      cases hresult' : compile lib process.clock (some .fresh) tmplRef' tmpl
          (some call.helpers) call.options with
      | error fault' => simp [hresult, hresult', Except.map] at hcompile
      | ok result' =>
          simp only [hresult, hresult', Except.map, Except.ok.injEq,
            CompileResult.mk.injEq, and_true] at hcompile
          obtain ⟨hmodule, hvm, hpending⟩ := hcompile
          refine .obtained _ _ ⟨?_, ?_, hmodule, ?_, hpending⟩
          · cases hmade : result.module <;>
              simp [saveCacheEntry_without_cache hcache]
          · cases hmade : result'.module <;>
              simp [saveCacheEntry_without_cache hcache]
          · simp only [hvm]

theorem obtainModule_inlined {process : Process}
    (hcache : process.cache = none) (call : Call) (id id' : Option Bytes) :
    ObtainTogether process (obtainModule lib process call id none)
      (obtainModule lib process (call.inlined process) id' none) := by
  have hreads := call.inlined_reads process
  rcases call.inlined_cases process with heq | ⟨file, htype, hfile, heq⟩
  · rw [heq]
    unfold obtainModule
    cases htype : call.type with
    | string =>
        exact compileTemplate_together hcache ⟨rfl, rfl, rfl, rfl⟩ id id'
          .input .input call.input
    | filename =>
        cases hfile : process.files call.input with
        | none => exact .obtained _ _ ⟨rfl, rfl, rfl, rfl, rfl⟩
        | some file =>
            exact compileTemplate_together hcache ⟨rfl, rfl, rfl, rfl⟩ id id'
              .contents .contents file.content
    | binary =>
        simp only
        split
        next => exact .obtained _ _ ⟨rfl, rfl, rfl, rfl, rfl⟩
        next =>
          exact .obtained _ _ ⟨saveCacheEntry_without_cache hcache _ _,
            saveCacheEntry_without_cache hcache _ _, rfl, rfl, rfl⟩
  · have htogether := @compileTemplate_together lib process hcache _ _
      hreads id id' .contents .input file.content
    rw [heq] at htogether ⊢
    simpa only [obtainModule, htype, hfile] using htogether

/-! ## The two runs -/

structure SameAnswers (plain inlined : World) : Prop where
  cache : plain.process.cache = none
  process : inlined.process = plain.process
  answers : inlined.answers = plain.answers

theorem sameAnswers_worldSimulation :
    WorldSimulation SameAnswers fun _ => True where
  sleep := by
    intro plain inlined seconds hsame
    refine ⟨hsame.cache, ?_, hsame.answers⟩
    simp only [World.sleep, hsame.process]
  write := by
    intro plain inlined name content hsame
    refine ⟨hsame.cache, ?_, hsame.answers⟩
    simp only [World.write, hsame.process]
  grows := fun _ _ _ _ => trivial

theorem SameAnswers.enter {plain inlined : World}
    (hsame : SameAnswers plain inlined) (call call' : Call) :
    SameAnswers (plain.enter call) (inlined.enter call') :=
  ⟨hsame.cache, hsame.process, by simpa [World.answers] using hsame.answers⟩

theorem SameAnswers.obtain {plain inlined : World}
    (hsame : SameAnswers plain inlined) (lookup lookup' : Lookup)
    {obtained obtained' : Obtained}
    (hplace : ObtainedInPlace plain.process obtained obtained') :
    SameAnswers ((plain.look lookup).obtain obtained)
      ((inlined.look lookup').obtain obtained') := by
  refine ⟨?_, hplace.state'.trans hplace.state.symm, hsame.answers⟩
  exact (congrArg Process.cache hplace.state).trans hsame.cache

theorem SameAnswers.leave {plain inlined : World}
    (hsame : SameAnswers plain inlined) (call call' : Call)
    (before before' : Process) (id id' : Option (StringRef × Bytes))
    (lookup lookup' : Lookup) (obtained obtained' : Obtained)
    (result : CallResult) :
    SameAnswers (plain.leave call before id lookup obtained result)
      (inlined.leave call' before' id' lookup' obtained' result) := by
  refine ⟨hsame.cache, hsame.process, ?_⟩
  have hanswers := hsame.answers
  simp only [World.answers] at hanswers
  simp [World.answers, hanswers]

theorem lookupCache_without_cache {process : Process}
    (hcache : process.cache = none) (call : Call) (id : Option Bytes) :
    lookupCache process call id = ⟨process, none, false, []⟩ := by
  cases id <;> simp [lookupCache, hcache]

theorem leaveExecuted_together {plain inlined : World} {call call' : Call}
    {id id' : Option (StringRef × Bytes)} {lookup lookup' : Lookup}
    {obtained obtained' : Obtained}
    {ending ending' : World × Except Halt CallResult}
    (hstate : SameAnswers ending.1 ending'.1) (houtcome : ending.2 = ending'.2) :
    Together SameAnswers
      (plain.leaveExecuted call id lookup obtained ending)
      (inlined.leaveExecuted call' id' lookup' obtained' ending') := by
  rcases ending with ⟨executed, halt | result⟩
  · obtain ⟨executed', _⟩ := ending'
    subst houtcome
    exact ⟨hstate, rfl⟩
  · obtain ⟨executed', _⟩ := ending'
    subst houtcome
    exact ⟨hstate.leave _ _ _ _ _ _ _ _ _ _ result, rfl⟩

theorem renderWith_inlined {callee callee' : Callee}
    (hgrows : ∀ world call, LogGrows world (callee world call).1)
    (hcallee : CalleesAgree SameAnswers (fun _ => True) callee callee')
    {plain inlined : World} (hsame : SameAnswers plain inlined)
    (call : Call) :
    Together SameAnswers (renderWith lib callee plain call)
      (renderWith lib callee' inlined (call.inlined inlined.process)) := by
  have hreads := call.inlined_reads plain.process
  rw [hsame.process]
  rcases selectCacheId_of_options hreads.options with
    ⟨fault, hid, hid'⟩ | ⟨id, id', hid, hid'⟩
  · simp only [renderWith, hid, hid']
    exact ⟨hsame.enter call _, rfl⟩
  · have hcache' : inlined.process.cache = none := by
      rw [hsame.process, hsame.cache]
    -- nothing is found in either run, whatever the two ids are
    have hlookup := lookupCache_without_cache hsame.cache call
      (id.map Prod.snd)
    have hlookup' := lookupCache_without_cache hcache'
      (call.inlined plain.process) (id'.map Prod.snd)
    have htogether := @obtainModule_inlined lib _ hsame.cache call
      (id.map Prod.snd) (id'.map Prod.snd)
    generalize hobtain : obtainModule lib plain.process call
      (id.map Prod.snd) none = ending at htogether
    generalize hobtain' : obtainModule lib plain.process
      (call.inlined plain.process) (id'.map Prod.snd) none = ending'
        at htogether
    cases htogether with
    | fault fault =>
        rw [renderWith_of_fault hid (by rw [hlookup]; exact hobtain),
          renderWith_of_fault hid'
            (by rw [hlookup', hsame.process]; exact hobtain'),
          hlookup, hlookup']
        exact ⟨⟨hsame.cache, hsame.process,
          by simpa [World.answers] using hsame.answers⟩, rfl⟩
    | obtained obtained obtained' hplace =>
        rw [renderWith_of_obtained hid hlookup.symm hobtain,
          renderWith_of_obtained hid' hlookup'.symm
            (by rw [hsame.process]; exact hobtain')]
        have hobtained := (hsame.enter call (call.inlined plain.process)).obtain
          ⟨plain.process, none, false, []⟩ ⟨inlined.process, none, false, []⟩
          hplace
        obtain ⟨hstate, houtcome⟩ :=
          sameAnswers_worldSimulation.executeModule_together hcallee hgrows
            lib hobtained call (call.inlined plain.process)
            hreads.context.symm hreads.helpers.symm hreads.partials.symm
            (congrArg _ hplace.module.symm) hplace.vm.symm
            hplace.pending.symm trivial
        exact leaveExecuted_together hstate houtcome

theorem render_inlined (fuel : ℕ) :
    CalleesAgree SameAnswers (fun _ => True) (render lib fuel)
      (renderInlined lib fuel) := by
  induction fuel with
  | zero => exact fun _ _ _ hsame _ => ⟨hsame, rfl⟩
  | succ fuel ih =>
      intro plain inlined call hsame _
      exact renderWith_inlined (render_logGrows fuel) ih hsame call

/-- Without a cache, every script of calls and writes, nested ones included,
gets the same answers when the contents which readable files have at a call are
rendered in the place of the files. -/
theorem files_inlined (lib : Library) {process : Process}
    (hcache : process.cache = none) (fuel : ℕ) (script : Script) :
    (runScript lib fuel script (.start process)).1.answers =
        (runScriptInlined lib fuel script (.start process)).1.answers ∧
      (runScript lib fuel script (.start process)).2 =
        (runScriptInlined lib fuel script (.start process)).2 := by
  have hstart : SameAnswers (.start process) (.start process) :=
    ⟨hcache, rfl, rfl⟩
  obtain ⟨hstate, houtcome⟩ := sameAnswers_worldSimulation.tree_together
    (render_inlined fuel) (render_logGrows fuel) script hstart trivial
  exact ⟨hstate.answers.symm, houtcome⟩

def uncachedProcess : Process := { sampleProcess with cache := none }

/-- A file which is there, and gets other contents, and one which is not. -/
def rendersFiles : Script :=
  .sequence [.render (sampleCall .filename (ascii "f")),
    .write (ascii "f") (ascii "c"),
    .render (sampleCall .filename (ascii "f")),
    .render (sampleCall .filename (ascii "g"))]

theorem files_inlined_of_rendersFiles :
    (runScript sampleLibrary 1 rendersFiles (.start uncachedProcess)).1.answers =
        (runScriptInlined sampleLibrary 1 rendersFiles
          (.start uncachedProcess)).1.answers ∧
      (runScript sampleLibrary 1 rendersFiles (.start uncachedProcess)).2 =
        (runScriptInlined sampleLibrary 1 rendersFiles
          (.start uncachedProcess)).2 :=
  files_inlined sampleLibrary rfl 1 rendersFiles

end PhpHandlebars
