import PhpHandlebars.RenderRun
import Mathlib.Tactic

/-!
# Argument handling before the template is parsed

Up to parsing, `render` reads its options three times: for the cache id, for
the flags and for the known helpers, to which it appends the names of the
registered helpers.  Each reader checks some of what it relies on.
-/

namespace PhpHandlebars

variable {lib : Library} {process : Process} {call : Call}

/-- The fault of the stages of `render` in front of the parser. -/
def argumentFault (lib : Library) (process : Process) (call : Call) :
    Option Fault :=
  match selectCacheId call with
  | .error fault => some fault
  | .ok cacheId =>
      let id := cacheId.map Prod.snd
      let lookup := lookupCache process call id
      match obtainModule lib lookup.process call id lookup.module with
      | .error fault => some fault
      | .ok _ => none

theorem renderWith_of_argumentFault
    {fault : Fault} (callee : Callee) (world : World)
    (hfault : argumentFault lib world.process call = some fault) :
    (renderWith lib callee world call).2 = .error (.fault fault) := by
  unfold argumentFault at hfault
  cases hid : selectCacheId call with
  | error other => simpa [renderWith, hid] using hfault
  | ok cacheId =>
      simp only [hid] at hfault
      split at hfault
      next other hobtain =>
        obtain rfl := Option.some.inj hfault
        rw [renderWith_of_fault hid hobtain]
      next => simp at hfault

/-- No payload is read under a wrong tag, and neither a NULL list of known
helpers nor a NULL key is read. -/
def ReadsSafely (lib : Library) (process : Process) (call : Call) : Prop :=
  ∀ fault, argumentFault lib process call = some fault →
    fault = .nullContext

/-- There is a template to compile, and its options can be processed. -/
structure ReachesKnownHelpers (process : Process) (call : Call) : Prop where
  template : process.templateText call ≠ none
  notCached : ∀ cacheId, selectCacheId call = .ok cacheId →
    (lookupCache process call (cacheId.map Prod.snd)).module = none
  data : dataError call.options = none

structure SafeArguments (process : Process) (call : Call) : Prop where
  options : call.options = none ∨ ∃ table, call.options = some (.array table)
  knownHelpers : ReachesKnownHelpers process call →
    ∀ table entry, call.options = some (.array table) →
      zendHashFind table internedKnownHelpers = some entry →
        entry.zType = .isArray ∧ entry ≠ .array []
  helperKeys : ReachesKnownHelpers process call →
    call.helpers.firstPass.failed = false →
      none ∉ call.helpers.secondPass.keys

theorem selectCacheId_fault_iff (call : Call) (fault : Fault) :
    selectCacheId call = .error fault ↔
      ∃ options, call.options = some options ∧
        options.arrval = .error fault := by
  unfold selectCacheId
  cases call.options with
  | none => simp [pure, Except.pure]
  | some options =>
      cases harrval : options.arrval with
      | error other => simp [harrval, bind, Except.bind]
      | ok table =>
          simp only [bind, Except.bind, Option.some.injEq,
            exists_eq_left', harrval]
          split <;> simp [pure, Except.pure]

theorem selectCacheId_fault_ne_nullContext
    {fault : Fault} (hid : selectCacheId call = .error fault) :
    fault ≠ .nullContext := by
  obtain ⟨options, _, harrval⟩ := (selectCacheId_fault_iff call fault).mp hid
  intro hfault
  cases options <;> simp [Zval.arrval, hfault] at harrval

theorem selectCacheId_isOk_iff (call : Call) :
    (∃ cacheId, selectCacheId call = .ok cacheId) ↔
      call.options = none ∨ ∃ table, call.options = some (.array table) := by
  cases hid : selectCacheId call with
  | error fault =>
      obtain ⟨options, hoptions, harrval⟩ :=
        (selectCacheId_fault_iff call fault).mp hid
      apply iff_of_false (by simp)
      rintro (hnone | ⟨table, htable⟩)
      · simp [hoptions] at hnone
      · rw [hoptions] at htable
        obtain rfl := Option.some.inj htable
        simp [Zval.arrval] at harrval
  | ok cacheId =>
      apply iff_of_true ⟨cacheId, rfl⟩
      by_contra hother
      rw [not_or] at hother
      obtain ⟨options, hoptions⟩ := Option.ne_none_iff_exists'.mp hother.1
      cases harrval : options.arrval with
      | error fault =>
          have hbad := (selectCacheId_fault_iff call fault).mpr
            ⟨options, hoptions, harrval⟩
          simp [hid] at hbad
      | ok table =>
          have htype := (options.arrval_isOk_iff).mp ⟨table, harrval⟩
          obtain ⟨table', rfl, _⟩ := Zval.arrval_of_isArray htype
          exact hother.2 ⟨table', hoptions⟩

/-- Reading the helpers is safe when there is a list to append to, and no key
of theirs is an integer. -/
theorem fetchKnownHelpers_readsSafely_iff
    (compiler : Compiler) (helpers : Registry) :
    (∀ fault, fetchKnownHelpers compiler helpers = .error fault →
      fault = .nullContext) ↔
    compiler.knownHelpers ≠ none ∧
      (helpers.firstPass.failed = false →
        none ∉ helpers.secondPass.keys) := by
  rw [fetchKnownHelpers_eq]
  cases hknown : compiler.knownHelpers with
  | none => simp
  | some known =>
      simp only [ne_eq, reduceCtorEq, not_false_eq_true, true_and]
      constructor
      · intro hsafe hfirst hmem
        have hnull := hsafe .nullKey (by simp [hfirst, hmem])
        simp at hnull
      · intro hkeys fault hfetch
        split at hfetch
        next => exact (Except.error.inj hfetch).symm
        next hfirst =>
          rw [if_neg (hkeys (by simpa using hfirst))] at hfetch
          split at hfetch
          next => exact (Except.error.inj hfetch).symm
          next => simp at hfetch

theorem lookupCache_templateText (process : Process) (call : Call)
    (id : Option Bytes) :
    (lookupCache process call id).process.templateText call =
      process.templateText call := by
  have hstep := lookupCache_step process call id
  generalize lookupCache process call id = lookup at hstep
  cases hstep <;> rfl

theorem argumentFault_of_cacheId
    {cacheId : Option (StringRef × Bytes)}
    (hid : selectCacheId call = .ok cacheId) (fault : Fault) :
    argumentFault lib process call = some fault ↔
      ReachesKnownHelpers process call ∧
        fetchKnownHelpers (lib.optionCompiler call.options) call.helpers =
          .error fault := by
  have hobtain := obtainModule_fault_iff lib
    (lookupCache process call (cacheId.map Prod.snd)).process call
    (cacheId.map Prod.snd)
    (lookupCache process call (cacheId.map Prod.snd)).module fault
  rw [lookupCache_templateText, configure_fault_iff] at hobtain
  have hfault : argumentFault lib process call = some fault ↔
      obtainModule lib
        (lookupCache process call (cacheId.map Prod.snd)).process call
        (cacheId.map Prod.snd)
        (lookupCache process call (cacheId.map Prod.snd)).module =
          .error fault := by
    unfold argumentFault
    simp only [hid]
    split
    next hend => simp [hend]
    next hend => simp [hend]
  rw [hfault, hobtain]
  constructor
  · rintro ⟨hmodule, htext, hdata, hfetch⟩
    refine ⟨⟨htext, fun other hother => ?_, hdata⟩, hfetch⟩
    rw [hid] at hother
    obtain rfl := Except.ok.inj hother
    exact hmodule
  · rintro ⟨⟨htext, hmodule, hdata⟩, hfetch⟩
    exact ⟨hmodule cacheId hid, htext, hdata, hfetch⟩

/-- The arguments which are read safely, one and all. -/
theorem readsSafely_iff_safeArguments (lib : Library) (process : Process)
    (call : Call) :
    ReadsSafely lib process call ↔ SafeArguments process call := by
  have hshape := selectCacheId_isOk_iff call
  cases hid : selectCacheId call with
  | error fault =>
      apply iff_of_false
      · intro hsafe
        exact selectCacheId_fault_ne_nullContext hid
          (hsafe fault (by simp [argumentFault, hid]))
      · intro hargs
        obtain ⟨cacheId, hok⟩ := hshape.mpr hargs.options
        simp [hid] at hok
  | ok cacheId =>
      have hfetch := fetchKnownHelpers_readsSafely_iff
        (lib.optionCompiler call.options) call.helpers
      have hlist := optionKnownHelpers_ne_none_iff call.options
        lib.builtinHelpers
      unfold ReadsSafely
      simp only [argumentFault_of_cacheId hid]
      constructor
      · intro hsafe
        have hread : ReachesKnownHelpers process call → _ := fun hreach =>
          hfetch.mp fun fault hfault => hsafe fault ⟨hreach, hfault⟩
        exact ⟨hshape.mp ⟨cacheId, hid⟩,
          fun hreach => hlist.mp (hread hreach).1,
          fun hreach => (hread hreach).2⟩
      · rintro ⟨_, hknown, hkeys⟩ fault ⟨hreach, hfault⟩
        exact hfetch.mpr ⟨hlist.mpr (hknown hreach), hkeys hreach⟩ fault
          hfault

/-- Three calls which are not: explicit null options, an empty list of known
helpers, and a helper under an integer key. -/
theorem unsafe_arguments :
    let call := sampleCall .string (ascii "a")
    let unsafeCalls : List Call :=
      [{ call with options := some .null },
        { call with options := some (.array
          [(.string internedKnownHelpers, .array [])]) },
        { call with helpers :=
          ⟨.user (.array [(.index 0, .object 0)]), .empty, .empty⟩ }]
    ∀ unsafeCall ∈ unsafeCalls,
      ¬ ReadsSafely sampleLibrary sampleProcess unsafeCall := by
  intro call unsafeCalls unsafeCall hmem hsafe
  simp only [unsafeCalls, List.mem_cons, List.not_mem_nil, or_false] at hmem
  rcases hmem with rfl | rfl | rfl
  · exact absurd (hsafe (.wrongTag .isArray .isNull) (by decide)) (by decide)
  · exact absurd (hsafe .nullKnownHelpers (by decide)) (by decide)
  · exact absurd (hsafe .nullKey (by decide)) (by decide)

end PhpHandlebars
