import PhpHandlebars.EventRun
import PhpHandlebars.RenderRun
import Mathlib.Logic.Function.Iterate
import Mathlib.Tactic

/-!
# Freshness of rendered files

Calls of `renderFile` on one file, taken apart into the moments at which they
look at the cache, at the modification time, at the contents and at the
clock.  Writes and clock ticks may come between any two of them, and calls
may overlap.  PHP code may look at files itself, and may clear the stat cache
of PHP, which also happens at the end of a request.
-/

namespace PhpHandlebars

structure FileCall (name : Bytes) where
  call : Call
  type_eq : call.type = .filename
  input_eq : call.input = name
  cacheId_eq : selectCacheId call = .ok (some (.input, name))

inductive Phase where
  | entered
  | found (module : Module)
  | mustRead
  | compiling (text : Bytes)
  | storing (module : Module)
  | serving (module : Module)

def advance (lib : Library) (process : Process) (call : Call) :
    Phase → Process × Option Phase
  | .entered =>
      let process' := { process with finds := process.finds + 1 }
      match process.cacheFind call.input with
      | some module => (process', some (.found module))
      | none => (process', some .mustRead)
  | .found module =>
      if process.isStale call module then (process.stat call, some .mustRead)
      else (process.stat call, some (.serving module))
  | .mustRead =>
      match process.files call.input with
      | some file => (process, some (.compiling file.content))
      | none => (process, none)
  | .compiling text =>
      match compile lib process.clock (some .fresh) .contents text
          (some call.helpers) call.options with
      | .ok result => (process, result.module.map .storing)
      | .error _ => (process, none)
  | .storing module =>
      (process.cacheAdd call.input module, some (.serving module))
  | .serving _ => (process, none)

structure Activity (name : Bytes) where
  call : FileCall name
  phase : Phase
  seen : List Bytes

structure FileState (name : Bytes) where
  process : Process
  calls : ℕ → Option (Activity name)

inductive FileEvent (name : Bytes) where
  | enter (id : ℕ) (call : FileCall name)
  | advance (id : ℕ)
  | write (content : Bytes)
  | tick
  | stat (path : Bytes)
  | clearStatCache

def Process.contents (process : Process) (name : Bytes) : List Bytes :=
  ((process.files name).map File.content).toList

variable {name : Bytes} {lib : Library}

def Process.tick (process : Process) : Process :=
  { process with clock := process.clock + 1 }

def fileStep (lib : Library) (state : FileState name) :
    FileEvent name → Option (FileState name)
  | .enter id call =>
      match state.calls id with
      | some _ => none
      | none =>
          let activity := ⟨call, .entered, state.process.contents name⟩
          some ⟨state.process,
            Function.update state.calls id (some activity)⟩
  | .advance id =>
      match state.calls id with
      | none => none
      | some activity =>
          let moved := advance lib state.process activity.call.call
            activity.phase
          some ⟨moved.1, Function.update state.calls id
            (moved.2.map fun phase => { activity with phase := phase })⟩
  | .write content =>
      some ⟨state.process.write name content, fun id =>
        (state.calls id).map fun activity =>
          { activity with seen := content :: activity.seen }⟩
  | .tick => some ⟨state.process.tick, state.calls⟩
  | .stat path =>
      some ⟨{ state.process with
        statCache := state.process.statCacheAfter path }, state.calls⟩
  | .clearStatCache =>
      some ⟨{ state.process with statCache := none }, state.calls⟩

/-! ## The condition and the invariant -/

/-- The image of the module is a compilation of the text. -/
def Module.Shows (lib : Library) (module : Module) (text : Bytes) : Prop :=
  ∃ flags compiler, lib.pipeline text flags compiler = .ok module.image

/-- A write now outdates every module made of the contents before it: no call
has read them and not yet compiled, and what is in the cache, or about to be,
was made in an earlier second. -/
structure QuietFile (state : FileState name) : Prop where
  notCompiling : ∀ id activity text, state.calls id = some activity →
    activity.phase ≠ .compiling text
  storing : ∀ id activity module, state.calls id = some activity →
    activity.phase = .storing module → module.ts < state.process.clock
  cached : ∀ store module, state.process.cache = some store →
    store name = some module → module.ts < state.process.clock

/-- The modification time the file has, whatever PHP remembers of it. -/
def Process.fileTime (process : Process) (name : Bytes) : ℕ :=
  (process.files name).elim 0 File.mtime

/-- Writes happen in quiet states, and when a call looks at the modification
time, PHP does not remember an older one. -/
def KeepsFresh (state : FileState name) : FileEvent name → Prop
  | .write _ => QuietFile state
  | .advance id => ∀ activity module, state.calls id = some activity →
      activity.phase = .found module →
        state.process.mtime name = state.process.fileTime name
  | _ => True

def ShowsOrOlder (lib : Library) (module : Module) (texts : List Bytes)
    (mtime : ℕ) : Prop :=
  module.ts < mtime ∨ ∃ text ∈ texts, module.Shows lib text

/-- What a call in a phase may rely on. -/
def Phase.Sound (lib : Library) (contents : List Bytes) (mtime : ℕ)
    (seen : List Bytes) : Phase → Prop
  | .entered => True
  | .found module => ShowsOrOlder lib module seen mtime
  | .mustRead => True
  | .compiling text => text ∈ contents
  | .storing module =>
      ShowsOrOlder lib module contents mtime ∧
        ∃ text ∈ seen, module.Shows lib text
  | .serving module => ∃ text ∈ seen, module.Shows lib text

structure FileInvariant (lib : Library) (state : FileState name) :
    Prop where
  stat : state.process.cacheStat = true
  mtime_le : state.process.fileTime name ≤ state.process.clock
  cached : ∀ store module, state.process.cache = some store →
    store name = some module →
      ShowsOrOlder lib module (state.process.contents name)
        (state.process.fileTime name)
  seen : ∀ id activity, state.calls id = some activity →
    state.process.contents name ⊆ activity.seen
  sound : ∀ id activity, state.calls id = some activity →
    activity.phase.Sound lib (state.process.contents name)
      (state.process.fileTime name) activity.seen

theorem ShowsOrOlder.mono
    {module : Module} {texts texts' : List Bytes} {mtime : ℕ}
    (hshows : ShowsOrOlder lib module texts mtime) (hsub : texts ⊆ texts') :
    ShowsOrOlder lib module texts' mtime := by
  rcases hshows with holder | ⟨text, hin, htext⟩
  · exact .inl holder
  · exact .inr ⟨text, hsub hin, htext⟩

@[simp] theorem contents_write (process : Process) (name content : Bytes) :
    (process.write name content).contents name = [content] := by
  simp [Process.write, Process.contents]

@[simp] theorem fileTime_write (process : Process) (name content : Bytes) :
    (process.write name content).fileTime name = process.clock := by
  simp [Process.write, Process.fileTime]

/-! ## One event -/

theorem FileInvariant.enter
    {state : FileState name} (hinv : FileInvariant lib state) (id : ℕ)
    (call : FileCall name) :
    FileInvariant lib ⟨state.process, Function.update state.calls id
      (some ⟨call, .entered, state.process.contents name⟩)⟩ := by
  constructor
  case stat => exact hinv.stat
  case mtime_le => exact hinv.mtime_le
  case cached => exact hinv.cached
  case seen =>
    intro other activity hother
    by_cases heq : other = id
    · subst other
      obtain rfl : _ = activity := by simpa using hother
      exact List.Subset.refl _
    · exact hinv.seen other activity (by simpa [heq] using hother)
  case sound =>
    intro other activity hother
    by_cases heq : other = id
    · subst other
      obtain rfl : _ = activity := by simpa using hother
      trivial
    · exact hinv.sound other activity (by simpa [heq] using hother)

theorem FileInvariant.tick
    {state : FileState name} (hinv : FileInvariant lib state) :
    FileInvariant lib ⟨state.process.tick, state.calls⟩ :=
  ⟨hinv.stat, Nat.le_succ_of_le hinv.mtime_le, hinv.cached, hinv.seen,
    hinv.sound⟩

theorem FileInvariant.withStatCache
    {state : FileState name} (hinv : FileInvariant lib state)
    (statCache : Option (Bytes × ℕ)) :
    FileInvariant lib
      ⟨{ state.process with statCache := statCache }, state.calls⟩ :=
  ⟨hinv.stat, hinv.mtime_le, hinv.cached, hinv.seen, hinv.sound⟩

theorem FileInvariant.write
    {state : FileState name} (hinv : FileInvariant lib state)
    (hquiet : QuietFile state) (content : Bytes) :
    FileInvariant lib ⟨state.process.write name content, fun id =>
      (state.calls id).map fun activity =>
        { activity with seen := content :: activity.seen }⟩ := by
  constructor
  case stat => exact hinv.stat
  case mtime_le =>
    exact (fileTime_write state.process name content).le
  case cached =>
    intro store module hcache hmodule
    exact .inl (by simpa using hquiet.cached store module hcache hmodule)
  case seen =>
    intro id activity hactivity
    obtain ⟨before, hbefore, rfl⟩ := Option.map_eq_some_iff.mp hactivity
    simp
  case sound =>
    intro id activity hactivity
    obtain ⟨before, hbefore, rfl⟩ := Option.map_eq_some_iff.mp hactivity
    have hsound := hinv.sound id before hbefore
    simp only [contents_write, fileTime_write]
    cases hphase : before.phase with
    | entered => trivial
    | mustRead => trivial
    | found module =>
        rw [hphase] at hsound
        rcases hsound with holder | ⟨text, hin, htext⟩
        · exact .inl (holder.trans_le hinv.mtime_le)
        · exact .inr ⟨text, List.mem_cons_of_mem _ hin, htext⟩
    | compiling text =>
        exact absurd hphase (hquiet.notCompiling id before text hbefore)
    | storing module =>
        rw [hphase] at hsound
        obtain ⟨_, text, hin, htext⟩ := hsound
        have holder := hquiet.storing id before module hbefore hphase
        exact ⟨.inl holder, text, List.mem_cons_of_mem _ hin, htext⟩
    | serving module =>
        rw [hphase] at hsound
        obtain ⟨text, hin, htext⟩ := hsound
        exact ⟨text, List.mem_cons_of_mem _ hin, htext⟩

theorem FileInvariant.move
    {state : FileState name} (hinv : FileInvariant lib state) {id : ℕ}
    {activity : Activity name} (hactivity : state.calls id = some activity)
    {process : Process} {phase : Option Phase}
    (hfiles : process.files = state.process.files)
    (hstat : process.cacheStat = state.process.cacheStat)
    (hclock : process.clock = state.process.clock)
    (hcached : ∀ store module, process.cache = some store →
      store name = some module → ShowsOrOlder lib module
        (state.process.contents name) (state.process.fileTime name))
    (hphase : ∀ next, phase = some next → next.Sound lib
      (state.process.contents name) (state.process.fileTime name)
        activity.seen) :
    FileInvariant lib ⟨process, Function.update state.calls id
      (phase.map fun next => { activity with phase := next })⟩ := by
  have hcontents : process.contents name = state.process.contents name := by
    simp [Process.contents, hfiles]
  have hmtime : process.fileTime name = state.process.fileTime name := by
    simp [Process.fileTime, hfiles]
  constructor
  case stat => exact hstat.trans hinv.stat
  case mtime_le =>
    simpa [hmtime, hclock] using hinv.mtime_le
  case cached =>
    simpa [hmtime, hcontents] using hcached
  case seen =>
    intro other after hafter
    rw [hcontents]
    by_cases heq : other = id
    · subst other
      simp only [Function.update_self] at hafter
      obtain ⟨next, _, rfl⟩ := Option.map_eq_some_iff.mp hafter
      exact hinv.seen id activity hactivity
    · exact hinv.seen other after (by simpa [heq] using hafter)
  case sound =>
    intro other after hafter
    rw [hcontents, hmtime]
    by_cases heq : other = id
    · subst other
      simp only [Function.update_self] at hafter
      obtain ⟨next, hnext, rfl⟩ := Option.map_eq_some_iff.mp hafter
      exact hphase next hnext
    · exact hinv.sound other after (by simpa [heq] using hafter)

/-- A call which goes on leaves the store of the cache as it is. -/
theorem FileInvariant.proceed
    {state : FileState name} (hinv : FileInvariant lib state) {id : ℕ}
    {activity : Activity name} (hactivity : state.calls id = some activity)
    {process : Process} {phase : Phase}
    (hfiles : process.files = state.process.files)
    (hstat : process.cacheStat = state.process.cacheStat)
    (hclock : process.clock = state.process.clock)
    (hcache : process.cache = state.process.cache)
    (hsound : phase.Sound lib (state.process.contents name)
      (state.process.fileTime name) activity.seen) :
    FileInvariant lib ⟨process, Function.update state.calls id
      ((some phase).map fun next => { activity with phase := next })⟩ := by
  have hcached := hinv.cached
  rw [← hcache] at hcached
  apply hinv.move hactivity hfiles hstat hclock hcached
  intro next hnext
  obtain rfl := Option.some.inj hnext
  exact hsound

theorem FileInvariant.advance
    {state : FileState name} (hinv : FileInvariant lib state) {id : ℕ}
    {activity : Activity name}
    (hactivity : state.calls id = some activity)
    (hstat : ∀ module, activity.phase = .found module →
      state.process.mtime name = state.process.fileTime name) :
    let moved := advance lib state.process activity.call.call activity.phase
    FileInvariant lib ⟨moved.1, Function.update state.calls id
      (moved.2.map fun phase => { activity with phase := phase })⟩ := by
  have hinput := activity.call.input_eq
  have hseen := hinv.seen id activity hactivity
  have hsound := hinv.sound id activity hactivity
  cases hphase : activity.phase with
  | entered =>
      simp only [PhpHandlebars.advance]
      split
      next module hfind =>
        refine hinv.proceed hactivity rfl rfl rfl rfl ?_
        obtain ⟨store, hstore, hmodule⟩ := cacheFind_mem hfind
        rw [hinput] at hmodule
        exact (hinv.cached store module hstore hmodule).mono hseen
      next =>
        exact hinv.proceed hactivity rfl rfl rfl rfl trivial
  | found module =>
      rw [hphase] at hsound
      simp only [PhpHandlebars.advance]
      split
      next =>
        exact hinv.proceed hactivity rfl rfl rfl rfl trivial
      next hfresh =>
        refine hinv.proceed hactivity rfl rfl rfl rfl ?_
        rcases hsound with holder | hshows
        · refine absurd ?_ hfresh
          rw [← hstat module hphase] at holder
          simpa [Process.isStale, Process.looksAtFile, activity.call.type_eq,
            hinv.stat, hinput] using holder
        · exact hshows
  | mustRead =>
      simp only [PhpHandlebars.advance]
      split
      next file hfile =>
        refine hinv.proceed hactivity rfl rfl rfl rfl ?_
        rw [hinput] at hfile
        simp [Phase.Sound, Process.contents, hfile]
      next =>
        exact hinv.move hactivity rfl rfl rfl hinv.cached (by simp)
  | compiling text =>
      rw [hphase] at hsound
      simp only [PhpHandlebars.advance]
      split
      next result hcompile =>
        refine hinv.move hactivity rfl rfl rfl hinv.cached ?_
        intro next hnext
        obtain ⟨module, hmodule, rfl⟩ := Option.map_eq_some_iff.mp hnext
        obtain ⟨flags, compiler, _, hpipeline, _⟩ :=
          compile_module hcompile hmodule
        have hshows : module.Shows lib text := ⟨flags, compiler, hpipeline⟩
        exact ⟨.inr ⟨text, hsound, hshows⟩, text, hseen hsound, hshows⟩
      next =>
        exact hinv.move hactivity rfl rfl rfl hinv.cached (by simp)
  | storing module =>
      rw [hphase] at hsound
      simp only [PhpHandlebars.advance]
      refine hinv.move hactivity rfl rfl rfl ?_ ?_
      · intro store other hcache hother
        obtain ⟨store', hstore', rfl⟩ := Option.map_eq_some_iff.mp hcache
        rw [hinput, Function.update_self] at hother
        obtain rfl := Option.some.inj hother
        exact hsound.1
      · rintro _ ⟨rfl⟩
        exact hsound.2
  | serving module =>
      exact hinv.move hactivity rfl rfl rfl hinv.cached (by
        simp [PhpHandlebars.advance])

theorem fileStep_preserves
    (state : FileState name) (event : FileEvent name) (next : FileState name)
    (hinv : FileInvariant lib state) (hfresh : KeepsFresh state event)
    (hstep : fileStep lib state event = some next) :
    FileInvariant lib next := by
  cases event with
  | enter id call =>
      cases hcall : state.calls id with
      | some activity => simp [fileStep, hcall] at hstep
      | none =>
          simp only [fileStep, hcall, Option.some.injEq] at hstep
          subst next
          exact hinv.enter id call
  | advance id =>
      cases hcall : state.calls id with
      | none => simp [fileStep, hcall] at hstep
      | some activity =>
          simp only [fileStep, hcall, Option.some.injEq] at hstep
          subst next
          exact hinv.advance hcall fun module hphase =>
            hfresh activity module hcall hphase
  | write content =>
      simp only [fileStep, Option.some.injEq] at hstep
      subst next
      exact hinv.write hfresh content
  | tick =>
      simp only [fileStep, Option.some.injEq] at hstep
      subst next
      exact hinv.tick
  | stat path =>
      simp only [fileStep, Option.some.injEq] at hstep
      subst next
      exact hinv.withStatCache _
  | clearStatCache =>
      simp only [fileStep, Option.some.injEq] at hstep
      subst next
      exact hinv.withStatCache none

/-! ## Runs -/

/-- An empty cache with `handlebars.cache.stat`, no calls, and no file from
the future. -/
structure FileStart (state : FileState name) : Prop where
  cache : state.process.cache = some fun _ => none
  stat : state.process.cacheStat = true
  mtime_le : state.process.fileTime name ≤ state.process.clock
  idle : ∀ id, state.calls id = none

/-- When every write is quiet and PHP remembers no older modification time
where a call looks at it, every module served shows contents the file has had
during the call. -/
theorem served_contents_current
    {start state : FileState name} {events : List (FileEvent name)}
    (hstart : FileStart start)
    (hfresh : EventRun.Allowed (fileStep lib) KeepsFresh start events)
    (hrun : EventRun.run (fileStep lib) start events = some state)
    (id : ℕ) (activity : Activity name) (module : Module)
    (hactivity : state.calls id = some activity)
    (hserving : activity.phase = .serving module) :
    ∃ text ∈ activity.seen, module.Shows lib text := by
  have hinit : FileInvariant lib start := by
    constructor
    case stat => exact hstart.stat
    case mtime_le => exact hstart.mtime_le
    case cached =>
      intro store module hcache hmodule
      rw [hstart.cache] at hcache
      obtain rfl := Option.some.inj hcache
      simp at hmodule
    case seen =>
      intro id activity hactivity
      simp [hstart.idle id] at hactivity
    case sound =>
      intro id activity hactivity
      simp [hstart.idle id] at hactivity
  have hinv : FileInvariant lib state :=
    EventRun.run_preserves fileStep_preserves hinit hfresh hrun
  simpa [hserving, Phase.Sound] using hinv.sound id activity hactivity

/-- Without a write during the call, that is the contents at its time. -/
theorem seen_of_enter
    {state next : FileState name} {id : ℕ} {call : FileCall name}
    (hstep : fileStep lib state (.enter id call) = some next) :
    next.calls id =
      some ⟨call, .entered, state.process.contents name⟩ := by
  cases hcall : state.calls id with
  | some activity => simp [fileStep, hcall] at hstep
  | none =>
      simp only [fileStep, hcall, Option.some.injEq] at hstep
      subst next
      simp

/-! ## The moments of a call are the stages of `render` -/

/-- Several moments of one call with nothing in between. -/
def advances (lib : Library) (call : Call) :
    ℕ → Process → Phase → Process × Option Phase
  | 0, process, phase => (process, some phase)
  | count + 1, process, phase =>
      match advance lib process call phase with
      | (process', none) => (process', none)
      | (process', some phase') => advances lib call count process' phase'

theorem advances_next
    {process process' : Process} {call : Call} {phase phase' : Phase}
    (hadvance : advance lib process call phase = (process', some phase'))
    (count : ℕ) :
    advances lib call (count + 1) process phase =
      advances lib call count process' phase' := by
  simp [advances, hadvance]

theorem advances_end
    {process process' : Process} {call : Call} {phase : Phase}
    (hadvance : advance lib process call phase = (process', none))
    (count : ℕ) :
    advances lib call (count + 1) process phase = (process', none) := by
  simp [advances, hadvance]

theorem advances_mustRead
    {process : Process} {call : FileCall name} {obtained : Obtained}
    (hobtain : obtainModule lib process call.call (some name) none =
      .ok obtained) :
    ∃ count, advances lib call.call count process .mustRead =
      (obtained.process, obtained.module.map .serving) := by
  unfold obtainModule at hobtain
  simp only [call.type_eq] at hobtain
  cases hfile : process.files call.call.input with
  | none =>
      simp only [hfile] at hobtain
      obtain rfl := Except.ok.inj hobtain
      exact ⟨1, advances_end (by simp only [advance, hfile]) 0⟩
  | some file =>
      have hread : advance lib process call.call .mustRead =
          (process, some (.compiling file.content)) := by
        simp only [advance, hfile]
      simp only [hfile, compileTemplate] at hobtain
      cases hcompile : compile lib process.clock (some .fresh) .contents
          file.content (some call.call.helpers) call.call.options with
      | error fault =>
          rw [hcompile] at hobtain
          simp [bind, Except.bind] at hobtain
      | ok result =>
          rw [hcompile] at hobtain
          have hmake : advance lib process call.call
              (.compiling file.content) =
                (process, result.module.map .storing) := by
            simp only [advance, hcompile]
          obtain rfl := Except.ok.inj hobtain
          cases hmodule : result.module with
          | none =>
              rw [hmodule] at hmake
              refine ⟨2, ?_⟩
              rw [advances_next hread, advances_end hmake]
              rfl
          | some module =>
              rw [hmodule] at hmake
              have hstore : advance lib process call.call (.storing module) =
                  (process.cacheAdd name module, some (.serving module)) := by
                simp only [advance, call.input_eq]
              refine ⟨3, ?_⟩
              rw [advances_next hread, advances_next hmake,
                advances_next hstore]
              rfl

/-- An uninterrupted call serves the module which `render` executes, and
leaves the cache to it as `render` does. -/
theorem advances_entered
    {process : Process} {call : FileCall name} {obtained : Obtained}
    (hcache : process.cache.isSome)
    (hobtain : obtainModule lib
      (lookupCache process call.call (some name)).process call.call
      (some name) (lookupCache process call.call (some name)).module =
        .ok obtained) :
    ∃ count, advances lib call.call count process .entered =
      (obtained.process, obtained.module.map .serving) := by
  rw [lookupCache_of_cache hcache] at hobtain
  cases hfind : process.cacheFind name with
  | none =>
      have henter : advance lib process call.call .entered =
          ({ process with finds := process.finds + 1 },
            some .mustRead) := by
        simp only [advance, call.input_eq, hfind]
      simp only [hfind] at hobtain
      obtain ⟨count, hcount⟩ := advances_mustRead hobtain
      exact ⟨count + 1, (advances_next henter count).trans hcount⟩
  | some module =>
      have henter : advance lib process call.call .entered =
          ({ process with finds := process.finds + 1 },
            some (.found module)) := by
        simp only [advance, call.input_eq, hfind]
      have hlook : advance lib { process with finds := process.finds + 1 }
          call.call (.found module) =
            (process.found call.call,
              if process.isStale call.call module then some .mustRead
              else some (.serving module)) :=
        (apply_ite (Prod.mk _) _ _ _).symm
      simp only [hfind] at hobtain
      cases hstale : process.isStale call.call module with
      | true =>
          simp only [hstale, if_true] at hobtain hlook
          obtain ⟨count, hcount⟩ := advances_mustRead hobtain
          refine ⟨count + 1 + 1, ?_⟩
          rw [advances_next henter, advances_next hlook]
          exact hcount
      | false =>
          simp only [hstale, Bool.false_eq_true, if_false] at hobtain hlook
          obtain rfl := Except.ok.inj hobtain
          refine ⟨2, ?_⟩
          rw [advances_next henter, advances_next hlook]
          rfl

/-! ## A write in the second of a compilation -/

def sampleFileCall : FileCall (ascii "f") where
  call := sampleCall .filename (ascii "f")
  type_eq := rfl
  input_eq := rfl
  cacheId_eq := rfl

def sampleFileState : FileState (ascii "f") := ⟨sampleProcess, fun _ => none⟩

def nextSecondWrite : List (FileEvent (ascii "f")) :=
  [.enter 0 sampleFileCall] ++ List.replicate 5 (.advance 0) ++
    [.tick, .write (ascii "c"), .enter 1 sampleFileCall] ++
    List.replicate 5 (.advance 1)

theorem sampleFileState_start : FileStart sampleFileState :=
  ⟨rfl, rfl, by decide, fun _ => rfl⟩

theorem nextSecondWrite_fresh :
    EventRun.Allowed (fileStep sampleLibrary) KeepsFresh sampleFileState
      nextSecondWrite := by
  refine ⟨trivial, fun next hnext => ?_⟩
  obtain rfl := Option.some.inj hnext
  -- the first call finds nothing
  iterate 5
    refine ⟨fun activity module hactivity hphase => ?_, fun next hnext => ?_⟩
    · cases hactivity
      cases hphase
    obtain rfl := Option.some.inj hnext
  refine ⟨trivial, fun next hnext => ?_⟩
  obtain rfl := Option.some.inj hnext
  refine ⟨⟨?_, ?_, ?_⟩, fun next hnext => ?_⟩
  · intro id activity text hactivity
    cases id <;> cases hactivity
  · intro id activity module hactivity
    cases id <;> cases hactivity
  · intro store module hcache hmodule
    obtain rfl := Option.some.inj hcache
    obtain rfl := Option.some.inj hmodule
    decide
  obtain rfl := Option.some.inj hnext
  refine ⟨trivial, fun next hnext => ?_⟩
  obtain rfl := Option.some.inj hnext
  -- and the second an entry, with nothing in the stat cache
  iterate 5
    refine ⟨fun activity module hactivity hphase => ?_, fun next hnext => ?_⟩
    · rfl
    obtain rfl := Option.some.inj hnext
  trivial

theorem served_contents_current_after_next_second_write :
    ∃ state activity module,
      EventRun.run (fileStep sampleLibrary) sampleFileState
        nextSecondWrite = some state ∧
      state.calls 1 = some activity ∧ activity.phase = .serving module ∧
      ∃ text ∈ activity.seen, module.Shows sampleLibrary text :=
  ⟨_, _, _, rfl, rfl, rfl,
    served_contents_current sampleFileState_start nextSecondWrite_fresh rfl
      1 _ _ rfl rfl⟩

/-- One call compiles the file, the file is written, another call begins and
gets to the module it serves, all in one second. -/
def sameSecondWrite : List (FileEvent (ascii "f")) :=
  [.enter 0 sampleFileCall] ++ List.replicate 5 (.advance 0) ++
    [.write (ascii "c"), .enter 1 sampleFileCall, .advance 1, .advance 1]

theorem same_second_write_served_stale :
    FileStart sampleFileState ∧
      ∃ state activity module,
        EventRun.run (fileStep sampleLibrary) sampleFileState
          sameSecondWrite = some state ∧
        state.calls 1 = some activity ∧
        activity.phase = .serving module ∧
        activity.seen = [ascii "c"] ∧
        ¬ module.Shows sampleLibrary (ascii "c") := by
  refine ⟨sampleFileState_start, _, _, _, rfl, rfl, rfl, rfl, ?_⟩
  rintro ⟨flags, compiler, hpipeline⟩
  rw [sampleLibrary_pipeline] at hpipeline
  exact absurd (Except.ok.inj hpipeline) (by decide)

/-- The entry is found once before the write, and again two seconds later: PHP
still remembers the time of the first contents. -/
example :
    let events : List (FileEvent (ascii "f")) :=
      [.enter 0 sampleFileCall] ++ List.replicate 5 (.advance 0) ++
        [.tick, .enter 1 sampleFileCall, .advance 1, .advance 1,
          .write (ascii "c"), .tick, .enter 2 sampleFileCall, .advance 2,
          .advance 2]
    ∃ state activity module,
      EventRun.run (fileStep sampleLibrary) sampleFileState events =
        some state ∧
      state.calls 2 = some activity ∧ activity.phase = .serving module ∧
      activity.seen = [ascii "c"] ∧ module.image = ascii "b" :=
  ⟨_, _, _, rfl, rfl, rfl, rfl, rfl⟩

end PhpHandlebars
