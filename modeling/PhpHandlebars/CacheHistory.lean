import PhpHandlebars.RenderRun
import Mathlib.Tactic

/-!
# What calls find in the cache

All calls of a process share one cache, under ids which they choose
themselves.  The log of a run says which calls came before which, so that what
a call finds can be traced to a call before it.  Entries are made by these calls
alone: executions store no partials, and compiling runs no further calls.
-/

namespace PhpHandlebars

variable {lib : Library}

/-- `handlebars_cache_reset`.  `cache_enable` is off only where there is no
cache. -/
def Process.cacheReset (process : Process) : Process × Bool :=
  match process.cache with
  | some _ => ({ process with cache := some fun _ => none }, true)
  | none => (process, false)

/-- The module which a call executes when it finds the state `before`. -/
def Call.module (lib : Library) (call : Call) (before : Process) :
    Option Module :=
  match selectCacheId call with
  | .error _ => none
  | .ok cacheId =>
      let id := cacheId.map Prod.snd
      let lookup := lookupCache before call id
      match obtainModule lib lookup.process call id lookup.module with
      | .error _ => none
      | .ok obtained => obtained.module

def Call.HasCacheId (call : Call) (id : Bytes) : Prop :=
  ∃ ref, selectCacheId call = .ok (some (ref, id))

/-! ## The past of a call -/

/-- A property of the calls so far and of the state they have left. -/
abbrev PastProperty := List CallEvent → Process → Prop

/-- A property of the past which holds now and held of every call when it was
entered. -/
structure HoldsOfPast (Past : PastProperty) (world : World) : Prop where
  now : Past world.events world.process
  entered : ∀ earlier call before later,
    world.events = earlier ++ .enter call before :: later →
      Past earlier before

/-- What has to be shown of a single call: a call which fails makes no module,
and every other one obtains its module right after it was entered. -/
structure PastRule (lib : Library) (Past : PastProperty) : Prop where
  outside : ∀ {events process} (clock : ℕ) (files : Bytes → Option File),
    Past events process →
      Past events { process with clock := clock, files := files }
  left : ∀ {events process} (call : Call) (before : Process)
    (leases : Ledger LeaseKey) (refs : Ledger StringRef)
    (result : CallResult), Past events process →
      Past (events ++ [.leave call before leases refs result]) process
  failed : ∀ {events process} (call : Call) (finds : ℕ)
    (statCache : Option (Bytes × ℕ)),
    call.module lib process = none → Past events process →
      Past (events ++ [.enter call process])
        { process with finds := finds, statCache := statCache }
  obtained : ∀ {events process call cacheId lookup obtained},
    selectCacheId call = .ok cacheId →
    lookup = lookupCache process call (cacheId.map Prod.snd) →
    obtainModule lib lookup.process call (cacheId.map Prod.snd)
      lookup.module = .ok obtained →
    Past events process →
      Past (events ++ [.enter call process]) obtained.process

variable {Past : PastProperty}

theorem lookupCache_process (process : Process) (call : Call)
    (id : Option Bytes) :
    ∃ finds statCache, (lookupCache process call id).process =
      { process with finds := finds, statCache := statCache } := by
  have hstep := lookupCache_step process call id
  generalize lookupCache process call id = lookup at hstep ⊢
  cases hstep with
  | miss finds hmiss => exact ⟨finds, process.statCache, rfl⟩
  | stale key module hid hfind hstale => exact ⟨_, _, rfl⟩
  | hit key module hid hfind hfresh => exact ⟨_, _, rfl⟩

theorem Call.module_of_obtained {call : Call} {before : Process}
    {cacheId : Option (StringRef × Bytes)} {lookup : Lookup}
    {obtained : Obtained} (hid : selectCacheId call = .ok cacheId)
    (hlookup : lookup = lookupCache before call (cacheId.map Prod.snd))
    (hobtain : obtainModule lib lookup.process call (cacheId.map Prod.snd)
      lookup.module = .ok obtained) :
    call.module lib before = obtained.module := by
  subst hlookup
  simp only [Call.module, hid, hobtain]

theorem last_or_earlier {Event : Type} {events earlier later : List Event}
    {last event : Event}
    (hsplit : events ++ [last] = earlier ++ event :: later) :
    (earlier = events ∧ event = last) ∨
      ∃ rest, events = earlier ++ event :: rest := by
  cases later using List.reverseRecOn with
  | nil =>
      have hends := List.append_inj' hsplit rfl
      exact .inl ⟨hends.1.symm, by simpa using hends.2.symm⟩
  | append_singleton rest final =>
      rw [← List.cons_append, ← List.append_assoc] at hsplit
      exact .inr ⟨rest, (List.append_inj' hsplit rfl).1⟩

theorem HoldsOfPast.append_enter {world : World}
    (hpast : HoldsOfPast Past world) (call : Call) {process : Process}
    (leases : Ledger LeaseKey)
    (hnow : Past (world.events ++ [.enter call world.process]) process) :
    HoldsOfPast Past
      ⟨process, leases, world.events ++ [.enter call world.process]⟩ where
  now := hnow
  entered := by
    intro earlier other before later hsplit
    rcases last_or_earlier hsplit with ⟨rfl, hlast⟩ | ⟨rest, hrest⟩
    · obtain ⟨_, rfl⟩ := CallEvent.enter.inj hlast
      exact hpast.now
    · exact hpast.entered earlier other before rest hrest

theorem holdsOfPast_worldRelation (hrule : PastRule lib Past) :
    WorldRelation fun before after =>
      HoldsOfPast Past before → HoldsOfPast Past after where
  refl := fun _ h => h
  trans := fun _ _ _ hfirst hsecond h => hsecond (hfirst h)
  outside := fun _ _ _ h => ⟨hrule.outside _ _ h.now, h.entered⟩

theorem HoldsOfPast.leave {world : World} (hpast : HoldsOfPast Past world)
    (hrule : PastRule lib Past) (call : Call) (before : Process)
    (cacheId : Option (StringRef × Bytes)) (lookup : Lookup)
    (obtained : Obtained) (result : CallResult) :
    HoldsOfPast Past
      (world.leave call before cacheId lookup obtained result) where
  now := hrule.left call before _ _ result hpast.now
  entered := by
    intro earlier other found later hsplit
    rcases last_or_earlier hsplit with ⟨_, hlast⟩ | ⟨rest, hrest⟩
    · cases hlast
    · exact hpast.entered earlier other found rest hrest

theorem renderWith_holdsOfPast {callee : Callee} (hrule : PastRule lib Past)
    (hcallee : ∀ world call, HoldsOfPast Past world →
      HoldsOfPast Past (callee world call).1)
    (world : World) (call : Call) (hpast : HoldsOfPast Past world) :
    HoldsOfPast Past (renderWith lib callee world call).1 := by
  have hexecute : ∀ {cacheId : Option (StringRef × Bytes)} {lookup : Lookup}
      {obtained : Obtained}, selectCacheId call = .ok cacheId →
      lookup = lookupCache world.process call (cacheId.map Prod.snd) →
      obtainModule lib lookup.process call (cacheId.map Prod.snd)
        lookup.module = .ok obtained →
      HoldsOfPast Past (executeModule lib callee
        (((world.enter call).look lookup).obtain obtained) call
          obtained).1 := by
    intro cacheId lookup obtained hid hlookup hobtain
    -- nested calls find what this one has obtained
    apply (holdsOfPast_worldRelation hrule).executeModule_relates hcallee
    exact hpast.append_enter call _
      (hrule.obtained hid hlookup hobtain hpast.now)
  have hstep := renderWith_step lib callee world call
  generalize renderWith lib callee world call = ending at hstep ⊢
  cases hstep with
  | badOptions fault hid =>
      have hnone : call.module lib world.process = none := by
        simp only [Call.module, hid]
      exact hpast.append_enter call _
        (hrule.failed call world.process.finds world.process.statCache hnone
          hpast.now)
  | badCompile cacheId lookup fault hid hlookup hobtain =>
      have hnone : call.module lib world.process = none := by
        subst hlookup
        simp only [Call.module, hid, hobtain]
      obtain ⟨finds, statCache, hprocess⟩ := lookupCache_process
        world.process call (cacheId.map Prod.snd)
      apply hpast.append_enter call
      rw [hlookup, hprocess]
      exact hrule.failed call finds statCache hnone hpast.now
  | halted cacheId lookup obtained executed halt hid hlookup hobtain hend =>
      simpa [hend] using hexecute hid hlookup hobtain
  | returned cacheId lookup obtained executed result hid hlookup hobtain
      hend =>
      have hinner : HoldsOfPast Past executed := by
        simpa [hend] using hexecute hid hlookup hobtain
      exact hinner.leave hrule call world.process cacheId lookup obtained
        result

/-- The run rule: what each call keeps for the next one holds of every call of
a script, nested ones included, when it is entered. -/
theorem runScript_holdsOfPast (hrule : PastRule lib Past) {process : Process}
    (hstart : Past [] process) (fuel : ℕ) (script : Script) :
    HoldsOfPast Past (runScript lib fuel script (.start process)).1 := by
  apply (holdsOfPast_worldRelation hrule).runScript_relates
    (fun _ hcallee => renderWith_holdsOfPast hrule hcallee) fuel script
  refine ⟨hstart, fun earlier call before later hsplit => ?_⟩
  simp [World.start] at hsplit

/-! ## Provenance -/

/-- How a call makes a module: it compiles its template, or it loads its
binary string. -/
inductive Makes (lib : Library) (call : Call) (before : Process) :
    Module → Prop where
  | compiled (tmpl : Bytes) (flags : Flags) (compiler : Compiler)
      (vm : Option VmConfig) (pending : Option Exception) (image : Bytes)
      (htext : before.templateText call = some tmpl)
      (hconfigure : lib.configure (some .fresh) (some call.helpers)
        call.options = .ok (flags, compiler, vm, pending))
      (himage : lib.pipeline tmpl flags compiler = .ok image) :
      Makes lib call before
        ⟨image, before.clock, .compiled tmpl flags compiler.knownHelpers⟩
  | loaded (data : Bytes) (htype : call.type = .binary)
      (hverified : Loads lib.format lib.pastEnd call.input data) :
      Makes lib call before
        ⟨lib.patchPointers data, lib.moduleTs data, .loaded data⟩

/-- The ways of obtaining a module.  Only a module which was just made is
added to the cache. -/
inductive ObtainStep (lib : Library) (process : Process) (call : Call)
    (id : Option Bytes) (found : Option Module) (obtained : Obtained) :
    Prop where
  | kept (hmodule : obtained.module = found)
      (hprocess : obtained.process = process)
  | made (module : Module) (hfound : found = none)
      (hmakes : Makes lib call process module)
      (hmodule : obtained.module = some module)
      (hprocess : obtained.process = saveCacheEntry process id module)

theorem compileTemplate_step {process : Process} {call : Call}
    {id : Option Bytes} {tmplRef : StringRef} {tmpl : Bytes}
    {obtained : Obtained} (htext : process.templateText call = some tmpl)
    (hobtain : compileTemplate lib process call id tmplRef tmpl =
      .ok obtained) :
    ObtainStep lib process call id none obtained := by
  unfold compileTemplate at hobtain
  cases hcompile : compile lib process.clock (some .fresh) tmplRef tmpl
      (some call.helpers) call.options with
  | error fault => simp [hcompile, bind, Except.bind] at hobtain
  | ok result =>
      simp only [hcompile, bind, Except.bind, pure, Except.pure,
        Except.ok.injEq] at hobtain
      subst obtained
      cases hmodule : result.module with
      | none => exact .kept rfl rfl
      | some module =>
          obtain ⟨flags, compiler, hconfigure, himage, hts, hsource⟩ :=
            compile_module hcompile hmodule
          have hmakes : Makes lib call process module := by
            have hmade := Makes.compiled tmpl flags compiler _ _ module.image
              htext hconfigure himage
            rwa [← hts, ← hsource] at hmade
          exact .made module rfl hmakes rfl rfl

theorem obtainModule_step {process : Process} {call : Call}
    {id : Option Bytes} {found : Option Module} {obtained : Obtained}
    (hobtain : obtainModule lib process call id found = .ok obtained) :
    ObtainStep lib process call id found obtained := by
  cases found with
  | some module =>
      obtain rfl := Except.ok.inj hobtain
      exact .kept rfl rfl
  | none =>
      unfold obtainModule at hobtain
      cases htype : call.type with
      | string =>
          simp only [htype] at hobtain
          exact compileTemplate_step
            (by simp [Process.templateText, htype]) hobtain
      | filename =>
          simp only [htype] at hobtain
          cases hfile : process.files call.input with
          | none =>
              simp only [hfile] at hobtain
              obtain rfl := Except.ok.inj hobtain
              exact .kept rfl rfl
          | some file =>
              simp only [hfile] at hobtain
              exact compileTemplate_step
                (by simp [Process.templateText, htype, hfile]) hobtain
      | binary =>
          simp only [htype] at hobtain
          split at hobtain
          next =>
            obtain rfl := Except.ok.inj hobtain
            exact .kept rfl rfl
          next data hverified =>
            obtain rfl := Except.ok.inj hobtain
            exact .made _ rfl (.loaded data htype hverified) rfl rfl

theorem Makes.of_finds {call : Call} {process : Process} {module : Module}
    {finds : ℕ} {statCache : Option (Bytes × ℕ)}
    (hmakes : Makes lib call
      { process with finds := finds, statCache := statCache } module) :
    Makes lib call process module := by
  cases hmakes with
  | compiled tmpl flags compiler vm pending image htext hconfigure himage =>
      exact .compiled tmpl flags compiler vm pending image htext hconfigure
        himage
  | loaded data htype hverified => exact .loaded data htype hverified

section Obtaining

variable {process : Process} {call : Call}
variable {cacheId : Option (StringRef × Bytes)} {lookup : Lookup}
variable {obtained : Obtained}

/-- An entry of the cache was there when the call was entered, or the call has
made it under its own id. -/
theorem obtained_entry
    (hlookup : lookup = lookupCache process call (cacheId.map Prod.snd))
    (hobtain : obtainModule lib lookup.process call (cacheId.map Prod.snd)
      lookup.module = .ok obtained)
    {store : Bytes → Option Module} {id : Bytes} {module : Module}
    (hcache : obtained.process.cache = some store)
    (hentry : store id = some module) :
    (∃ held, process.cache = some held ∧ held id = some module) ∨
      (cacheId.map Prod.snd = some id ∧ Makes lib call process module) := by
  obtain ⟨finds, statCache, hprocess⟩ := lookupCache_process process call
    (cacheId.map Prod.snd)
  rw [← hlookup] at hprocess
  rw [hprocess] at hobtain
  cases obtainModule_step hobtain with
  | kept hmodule hkept =>
      left
      rw [hkept] at hcache
      exact ⟨store, hcache, hentry⟩
  | made made hfound hmakes hmodule hsaved =>
      cases hid : cacheId.map Prod.snd with
      | none =>
          left
          rw [hsaved, hid] at hcache
          exact ⟨store, hcache, hentry⟩
      | some key =>
          rw [hsaved, hid] at hcache
          obtain ⟨held, hheld, rfl⟩ := Option.map_eq_some_iff.mp hcache
          by_cases hkey : id = key
          · right
            subst hkey
            rw [Function.update_self] at hentry
            obtain rfl := Option.some.inj hentry
            exact ⟨rfl, hmakes.of_finds⟩
          · left
            rw [Function.update_of_ne hkey] at hentry
            exact ⟨held, hheld, hentry⟩

end Obtaining

/-- What the cache holds was made by calls of the log, by each under its own
cache id. -/
def MadeByCalls (lib : Library) : PastProperty := fun events process =>
  ∀ store id module, process.cache = some store → store id = some module →
    ∃ maker found, .enter maker found ∈ events ∧ maker.HasCacheId id ∧
      Makes lib maker found module

theorem madeByCalls_append {events : List CallEvent} {process : Process}
    (hmade : MadeByCalls lib events process) (event : CallEvent) :
    MadeByCalls lib (events ++ [event]) process := by
  intro store id module hcache hentry
  obtain ⟨maker, found, hmem, hid, hmakes⟩ :=
    hmade store id module hcache hentry
  exact ⟨maker, found, List.mem_append_left _ hmem, hid, hmakes⟩

theorem madeByCalls_rule (lib : Library) :
    PastRule lib (MadeByCalls lib) where
  outside := fun _ _ hmade => hmade
  left := fun _ _ _ _ _ hmade => madeByCalls_append hmade _
  failed := fun _ _ _ _ hmade => madeByCalls_append hmade _
  obtained := by
    intro events process call cacheId lookup obtained hid hlookup hobtain
      hmade store id module hcache hentry
    rcases obtained_entry hlookup hobtain hcache hentry with
      ⟨held, hheld, hold⟩ | ⟨hkey, hmakes⟩
    · exact madeByCalls_append hmade _ held id module hheld hold
    · obtain ⟨⟨ref, key⟩, rfl, rfl⟩ := Option.map_eq_some_iff.mp hkey
      exact ⟨call, process, by simp, ⟨ref, hid⟩, hmakes⟩

theorem cacheReset_empty (process : Process) (store : Bytes → Option Module)
    (hcache : process.cacheReset.1.cache = some store) (id : Bytes) :
    store id = none := by
  unfold Process.cacheReset at hcache
  cases hbefore : process.cache with
  | none => simp [hbefore] at hcache
  | some held =>
      simp only [hbefore, Option.some.injEq] at hcache
      rw [← hcache]

theorem Call.module_cases {call : Call} {before : Process} {module : Module}
    (hmodule : call.module lib before = some module) :
    Makes lib call before module ∨
      ∃ id, call.HasCacheId id ∧ before.cacheFind id = some module := by
  unfold Call.module at hmodule
  split at hmodule
  next => simp at hmodule
  next cacheId hid =>
    dsimp only at hmodule
    split at hmodule
    next => simp at hmodule
    next obtained hobtain =>
      obtain ⟨finds, statCache, hprocess⟩ := lookupCache_process before call
        (cacheId.map Prod.snd)
      cases obtainModule_step hobtain with
      | kept hkept _ =>
          right
          rw [hmodule] at hkept
          have hstep := lookupCache_step before call (cacheId.map Prod.snd)
          generalize lookupCache before call (cacheId.map Prod.snd) =
            lookup at hstep hkept
          cases hstep with
          | miss finds hmiss => simp at hkept
          | stale key module hkey hfind hstale => simp at hkept
          | hit key module hkey hfind hfresh =>
              obtain rfl := Option.some.inj hkept
              obtain ⟨⟨ref, _⟩, rfl, rfl⟩ := Option.map_eq_some_iff.mp hkey
              exact ⟨_, ⟨ref, hid⟩, hfind⟩
      | made made hfound hmakes hmade hsaved =>
          left
          rw [hprocess] at hmakes
          obtain rfl := Option.some.inj (hmade.symm.trans hmodule)
          exact hmakes.of_finds

/-- In every run after the cache was reset, the module a call executes was
made by the call itself or by an earlier call with the same cache id. -/
theorem executed_modules_made (lib : Library) (process : Process) (fuel : ℕ)
    (script : Script) {earlier later : List CallEvent} {call : Call}
    {before : Process} {module : Module}
    (hevents : (runScript lib fuel script
      (.start process.cacheReset.1)).1.events =
        earlier ++ .enter call before :: later)
    (hmodule : call.module lib before = some module) :
    Makes lib call before module ∨
      ∃ id maker found, call.HasCacheId id ∧
        .enter maker found ∈ earlier ∧ maker.HasCacheId id ∧
        Makes lib maker found module := by
  have hstart : MadeByCalls lib [] process.cacheReset.1 := by
    intro store id module hcache hentry
    rw [cacheReset_empty process store hcache id] at hentry
    simp at hentry
  have hpast := (runScript_holdsOfPast (madeByCalls_rule lib) hstart fuel
    script).entered earlier call before later hevents
  rcases Call.module_cases hmodule with hmakes | ⟨id, hid, hfind⟩
  · exact .inl hmakes
  · right
    obtain ⟨store, hcache, hentry⟩ := cacheFind_mem hfind
    obtain ⟨maker, found, hmem, hsame, hmakes⟩ :=
      hpast store id module hcache hentry
    exact ⟨id, maker, found, hid, hmem, hsame, hmakes⟩

/-- Two calls with one template: the second one executes what the first one has
made. -/
def renderTwice : Script :=
  .sequence [.render (sampleCall .string (ascii "a")),
    .render (sampleCall .string (ascii "a"))]

theorem executed_module_made_twice :
    ∃ earlier before later module,
      (runScript sampleLibrary 1 renderTwice
        (.start sampleProcess.cacheReset.1)).1.events =
          earlier ++ .enter (sampleCall .string (ascii "a")) before ::
            later ∧
      earlier ≠ [] ∧
      (Makes sampleLibrary (sampleCall .string (ascii "a")) before module ∨
        ∃ id maker found,
          (sampleCall .string (ascii "a")).HasCacheId id ∧
          .enter maker found ∈ earlier ∧ maker.HasCacheId id ∧
          Makes sampleLibrary maker found module) :=
  ⟨[_, _], _, [_], ⟨_, 5, _⟩, rfl, by simp,
    executed_modules_made sampleLibrary sampleProcess 1 renderTwice rfl rfl⟩

/-! ## One module for each cache id -/

/-- The cache drops nothing and no file is looked at again. -/
structure Process.Retains (process : Process) : Prop where
  cache : process.cache.isSome
  cacheStat : process.cacheStat = false
  drops : ∀ finds, process.drops finds = false

/-- Each call of the log has left its module under its id. -/
structure KeepsModules (lib : Library) (events : List CallEvent)
    (process : Process) : Prop where
  retains : process.Retains
  kept : ∀ call before id module, .enter call before ∈ events →
    call.HasCacheId id → call.module lib before = some module →
      process.cacheFind id = some module

theorem Process.Retains.cacheFind_finds {process : Process}
    (hretains : process.Retains) (finds : ℕ)
    (statCache : Option (Bytes × ℕ)) (id : Bytes) :
    { process with finds := finds, statCache := statCache }.cacheFind id =
      process.cacheFind id := by
  simp [Process.cacheFind, hretains.drops]

theorem Process.Retains.cacheFind_cacheAdd {process : Process}
    (hretains : process.Retains) (id key : Bytes) (module : Module) :
    (process.cacheAdd key module).cacheFind id =
      if id = key then some module else process.cacheFind id := by
  obtain ⟨store, hstore⟩ := Option.isSome_iff_exists.mp hretains.cache
  by_cases hkey : id = key
  · subst hkey
    simp [Process.cacheFind, Process.cacheAdd, hretains.drops, hstore]
  · simp [Process.cacheFind, Process.cacheAdd, hretains.drops, hstore, hkey]

theorem Process.Retains.lookup {process : Process} (hretains : process.Retains)
    (call : Call) (id : Bytes) :
    (lookupCache process call (some id)).module = process.cacheFind id := by
  rw [lookupCache_of_cache hretains.cache]
  have hfresh : ∀ module, process.isStale call module = false := by
    simp [Process.isStale, Process.looksAtFile, hretains.cacheStat]
  cases process.cacheFind id with
  | none => rfl
  | some module => simp [hfresh]

theorem Process.Retains.saveCacheEntry {process : Process}
    (hretains : process.Retains) (id : Option Bytes) (module : Module) :
    (saveCacheEntry process id module).Retains := by
  cases id with
  | none => exact hretains
  | some key =>
      refine ⟨?_, hretains.cacheStat, hretains.drops⟩
      simpa [PhpHandlebars.saveCacheEntry, Process.cacheAdd] using
        hretains.cache

/-- What obtaining a module does to a cache which drops nothing. -/
structure ObtainKeeps (process : Process) (id : Option Bytes)
    (obtained : Obtained) : Prop where
  retains : obtained.process.Retains
  kept : ∀ key module, process.cacheFind key = some module →
    obtained.process.cacheFind key = some module
  own : ∀ key module, id = some key → obtained.module = some module →
    obtained.process.cacheFind key = some module

theorem obtained_keeps {process : Process} (hretains : process.Retains)
    {call : Call} {id : Option Bytes} {lookup : Lookup} {obtained : Obtained}
    (hlookup : lookup = lookupCache process call id)
    (hobtain : obtainModule lib lookup.process call id lookup.module =
      .ok obtained) :
    ObtainKeeps process id obtained := by
  have hfound : ∀ key, id = some key →
      lookup.module = process.cacheFind key := by
    rintro key rfl
    rw [hlookup, hretains.lookup]
  obtain ⟨finds, statCache, hprocess⟩ := lookupCache_process process call id
  rw [← hlookup] at hprocess
  rw [hprocess] at hobtain
  have hretains' :
      { process with finds := finds, statCache := statCache }.Retains :=
    ⟨hretains.cache, hretains.cacheStat, hretains.drops⟩
  cases obtainModule_step hobtain with
  | kept hmodule hkept =>
      refine ⟨hkept ▸ hretains', fun key module hfind => ?_,
        fun key module hid hown => ?_⟩
      · rwa [hkept, hretains.cacheFind_finds]
      · rw [hkept, hretains.cacheFind_finds, ← hfound key hid, ← hmodule,
          hown]
  | made made hmiss hmakes hmodule hsaved =>
      refine ⟨hsaved ▸ hretains'.saveCacheEntry id made,
        fun key module hfind => ?_, fun key module hid hown => ?_⟩
      · rw [hsaved]
        cases id with
        | none => rwa [saveCacheEntry, hretains.cacheFind_finds]
        | some other =>
            have hne : key ≠ other := by
              rintro rfl
              rw [hfound key rfl, hfind] at hmiss
              simp at hmiss
            rw [saveCacheEntry, hretains'.cacheFind_cacheAdd, if_neg hne,
              hretains.cacheFind_finds, hfind]
      · obtain rfl := Option.some.inj (hmodule.symm.trans hown)
        rw [hsaved, hid, saveCacheEntry, hretains'.cacheFind_cacheAdd,
          if_pos rfl]

theorem keepsModules_rule (lib : Library) :
    PastRule lib (KeepsModules lib) where
  outside := by
    intro events process clock files hkeeps
    exact ⟨⟨hkeeps.retains.cache, hkeeps.retains.cacheStat,
      hkeeps.retains.drops⟩, hkeeps.kept⟩
  left := by
    intro events process call before leases refs result hkeeps
    refine ⟨hkeeps.retains, fun other found id module hmem => ?_⟩
    exact hkeeps.kept other found id module (by simpa using hmem)
  failed := by
    intro events process call finds statCache hnone hkeeps
    refine ⟨⟨hkeeps.retains.cache, hkeeps.retains.cacheStat,
      hkeeps.retains.drops⟩, fun other found id module hmem hid hmodule => ?_⟩
    rw [hkeeps.retains.cacheFind_finds]
    rcases List.mem_append.mp hmem with hold | hnew
    · exact hkeeps.kept other found id module hold hid hmodule
    · obtain ⟨rfl, rfl⟩ := CallEvent.enter.inj (List.mem_singleton.mp hnew)
      rw [hnone] at hmodule
      simp at hmodule
  obtained := by
    intro events process call cacheId lookup obtained hid hlookup hobtain
      hkeeps
    have hstep := obtained_keeps hkeeps.retains hlookup hobtain
    refine ⟨hstep.retains, fun other found id module hmem hkey hmodule => ?_⟩
    rcases List.mem_append.mp hmem with hold | hnew
    · exact hstep.kept id module
        (hkeeps.kept other found id module hold hkey hmodule)
    · obtain ⟨rfl, rfl⟩ := CallEvent.enter.inj (List.mem_singleton.mp hnew)
      obtain ⟨ref, hsame⟩ := hkey
      obtain rfl := Except.ok.inj (hid.symm.trans hsame)
      rw [Call.module_of_obtained hid hlookup hobtain] at hmodule
      exact hstep.own id module rfl hmodule

/-- With a cache which drops nothing, and files which are not looked at again,
all calls with one cache id execute the module which the first of them has
made, whatever their templates, files, binary strings and options are. -/
theorem one_module_for_each_id (lib : Library) {process : Process}
    (hretains : process.Retains) (fuel : ℕ) (script : Script)
    {earlier later : List CallEvent} {first second : Call}
    {before found : Process} {id : Bytes} {module : Module}
    (hevents : (runScript lib fuel script (.start process)).1.events =
      earlier ++ .enter second found :: later)
    (hfirst : .enter first before ∈ earlier)
    (hid : first.HasCacheId id) (hsame : second.HasCacheId id)
    (hmodule : first.module lib before = some module) :
    (lookupCache found second (some id)).module = some module ∧
      second.module lib found = some module := by
  have hstart : KeepsModules lib [] process := ⟨hretains, by simp⟩
  have hpast := (runScript_holdsOfPast (keepsModules_rule lib) hstart fuel
    script).entered earlier second found later hevents
  have hlookup : (lookupCache found second (some id)).module =
      some module := by
    rw [hpast.retains.lookup]
    exact hpast.kept first before id module hfirst hid hmodule
  refine ⟨hlookup, ?_⟩
  obtain ⟨ref, hkey⟩ := hsame
  simp only [Call.module, hkey, Option.map_some, hlookup, obtainModule, pure,
    Except.pure]

def sharedId (tmpl : Bytes) : Call :=
  { sampleCall .string tmpl with
    options := some (.array [(.string internedCacheId, .string (ascii "k"))]) }

def unwatchedProcess : Process := { sampleProcess with cacheStat := false }

def rendersSharedId : Script :=
  .sequence [.render (sharedId (ascii "a")), .render (sharedId (ascii "b"))]

/-- The second template is not looked at. -/
theorem second_template_not_compiled :
    ∃ earlier found leases refs,
      (runScript sampleLibrary 1 rendersSharedId
        (.start unwatchedProcess)).1.events =
          earlier ++ [.enter (sharedId (ascii "b")) found,
            .leave (sharedId (ascii "b")) found leases refs
              ⟨some (ascii "a"), none⟩] ∧
      ((sharedId (ascii "b")).module sampleLibrary found).map Module.image =
        some (ascii "a") := by
  have hretains : unwatchedProcess.Retains := ⟨rfl, rfl, fun _ => rfl⟩
  refine ⟨[_, _], _, _, _, rfl, ?_⟩
  have hmodule := (@one_module_for_each_id sampleLibrary _ hretains 1
    rendersSharedId [_, _] [_] (sharedId (ascii "a")) (sharedId (ascii "b"))
    unwatchedProcess _ (ascii "k") ⟨ascii "a", 5, _⟩ rfl (.head _)
    ⟨.cacheId, rfl⟩ ⟨.cacheId, rfl⟩ rfl).2
  rw [hmodule]
  rfl

end PhpHandlebars
