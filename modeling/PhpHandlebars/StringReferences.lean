import PhpHandlebars.RenderRun
import Mathlib.Tactic

/-!
# References on the strings of a call

The input string and the cache id live in the context of the process.
`render` drops the references it takes on them at its end, and `compile` the
one on the template behind the last step which can fail.
-/

namespace PhpHandlebars

variable {lib : Library}

/-- The strings of a call which outlive it. -/
def StringRef.Outlives (ref : StringRef) : Prop :=
  ref = .input ∨ ref = .cacheId

def ReferencesDropped (refs : Ledger StringRef) : Prop :=
  ∀ ref : StringRef, ref.Outlives →
    refs.count (.acquire ref) = refs.count (.release ref)

/-- The options and helpers are fine, but the parser or the compiler rejects
the template. -/
def Rejects (lib : Library) (helpers : Registry) (options : Option Zval)
    (tmpl : Bytes) : Prop :=
  ∃ flags compiler vm pending error,
    lib.configure (some .fresh) (some helpers) options =
        .ok (flags, compiler, vm, pending) ∧
      lib.pipeline tmpl flags compiler = .error error

/-- The template is the input itself, it has to be compiled, and it is
rejected. -/
structure RejectsInput (lib : Library) (before : Process) (call : Call) :
    Prop where
  template : call.type = .string
  missed : ∀ ref key, selectCacheId call = .ok (some (ref, key)) →
    before.cacheFind key = none
  rejected : Rejects lib call.helpers call.options call.input

/-! ## Compiling -/

theorem referencesDropped_nil : ReferencesDropped [] :=
  fun _ _ => rfl

theorem referencesDropped_self (ref : StringRef) :
    ReferencesDropped [.acquire ref, .release ref] := by
  have hbalanced : Ledger.Balanced [.acquire ref, .release ref] := by
    simp [Ledger.Balanced, Ledger.settle]
  intro other _
  exact (hbalanced.count_release other).symm

theorem referencesDropped_acquire_iff (ref : StringRef) :
    ReferencesDropped [.acquire ref] ↔ ¬ ref.Outlives := by
  constructor
  · intro hdropped houtlives
    have hcount := hdropped ref houtlives
    simp at hcount
  · intro houtlives other hother
    have hne : ref ≠ other := by
      rintro rfl
      exact houtlives hother
    simp [hne]

/-- Without `compat` the reference on the template is kept when, and only
when, the template is rejected. -/
theorem compile_referencesDropped_iff
    {now : ℕ} {tmplRef : StringRef} {tmpl : Bytes} {helpers : Registry}
    {options : Option Zval} {result : CompileResult}
    (hcompat : .compat ∉ optionFlags options)
    (hcompile : compile lib now (some .fresh) tmplRef tmpl (some helpers)
      options = .ok result) :
    ReferencesDropped result.refs ↔
      ¬ (tmplRef.Outlives ∧ Rejects lib helpers options tmpl) := by
  unfold compile at hcompile
  split at hcompile
  next => simp at hcompile
  next error hconfigure =>
    obtain rfl := Except.ok.inj hcompile
    apply iff_of_true referencesDropped_nil
    rintro ⟨_, flags, compiler, vm, pending, error, hother, _⟩
    rw [hconfigure] at hother
    simp at hother
  next flags compiler vm pending hconfigure =>
    split at hcompile
    next cls error hpipeline =>
      obtain rfl := Except.ok.inj hcompile
      have hrejects : Rejects lib helpers options tmpl :=
        ⟨flags, compiler, vm, pending, _, hconfigure, hpipeline⟩
      rw [referencesDropped_acquire_iff, and_iff_left hrejects]
    next image hpipeline =>
      obtain rfl := Except.ok.inj hcompile
      rw [if_neg ((configure_flags hconfigure).1 ▸ hcompat)]
      apply iff_of_true (referencesDropped_self tmplRef)
      rintro ⟨_, flags', compiler', vm', pending', error, hother, hfails⟩
      rw [hconfigure] at hother
      obtain ⟨rfl, rfl, rfl, rfl⟩ := by
        simpa only [Except.ok.injEq, Prod.mk.injEq] using hother
      rw [hpipeline] at hfails
      simp at hfails

theorem compileTemplate_referencesDropped_iff
    {process : Process} {call : Call} {id : Option Bytes}
    {tmplRef : StringRef} {tmpl : Bytes} {obtained : Obtained}
    (hcompat : .compat ∉ optionFlags call.options)
    (hcompile : compileTemplate lib process call id tmplRef tmpl =
      .ok obtained) :
    ReferencesDropped obtained.refs ↔
      ¬ (tmplRef.Outlives ∧ Rejects lib call.helpers call.options tmpl) := by
  unfold compileTemplate at hcompile
  cases hresult : compile lib process.clock (some .fresh) tmplRef tmpl
      (some call.helpers) call.options with
  | error fault => simp [hresult, bind, Except.bind] at hcompile
  | ok result =>
      simp only [hresult, bind, Except.bind, pure, Except.pure,
        Except.ok.injEq] at hcompile
      rw [← hcompile]
      exact compile_referencesDropped_iff hcompat hresult

/-! ## One call -/

theorem obtainModule_referencesDropped_iff
    {process : Process} {call : Call} {id : Option Bytes}
    {found : Option Module} {obtained : Obtained}
    (hcompat : .compat ∉ optionFlags call.options)
    (hobtain : obtainModule lib process call id found = .ok obtained) :
    ReferencesDropped obtained.refs ↔
      ¬ (found = none ∧ call.type = .string ∧
        Rejects lib call.helpers call.options call.input) := by
  cases found with
  | some module =>
      obtain rfl := Except.ok.inj hobtain
      apply iff_of_true referencesDropped_nil
      simp
  | none =>
      unfold obtainModule at hobtain
      cases htype : call.type with
      | string =>
          simp only [htype] at hobtain
          rw [compileTemplate_referencesDropped_iff hcompat hobtain]
          simp [StringRef.Outlives]
      | filename =>
          simp only [htype] at hobtain
          apply iff_of_true
          · split at hobtain
            next =>
              obtain rfl := Except.ok.inj hobtain
              exact referencesDropped_nil
            next =>
              rw [compileTemplate_referencesDropped_iff hcompat hobtain]
              simp [StringRef.Outlives]
          · simp
      | binary =>
          simp only [htype] at hobtain
          apply iff_of_true
          · split at hobtain <;>
            · obtain rfl := Except.ok.inj hobtain
              exact referencesDropped_nil
          · simp

/-- A template from memory is never stale, so its lookup fails only where the
cache has nothing. -/
theorem lookupCache_string_none_iff
    {process : Process} {call : Call} (htype : call.type = .string)
    (id : Option Bytes) :
    (lookupCache process call id).module = none ↔
      ∀ key, id = some key → process.cacheFind key = none := by
  have hstep := lookupCache_step process call id
  generalize lookupCache process call id = lookup at hstep ⊢
  cases hstep with
  | miss finds hmiss => exact iff_of_true rfl hmiss
  | stale key module hid hfind hstale =>
      simp [Process.isStale, Process.looksAtFile, htype] at hstale
  | hit key module hid hfind hfresh =>
      apply iff_of_false (by simp)
      intro hnone
      simp [hnone key hid] at hfind

theorem referencesDropped_stringRefs
    (cacheId : Option (StringRef × Bytes)) (inner : Ledger StringRef) :
    ReferencesDropped (stringRefs cacheId inner) ↔
      ReferencesDropped inner := by
  unfold ReferencesDropped stringRefs
  simp only [Ledger.count_acquire_bracket, Ledger.count_release_bracket,
    Nat.add_left_cancel_iff]

theorem call_referencesDropped_iff
    {process : Process} {call : Call}
    {cacheId : Option (StringRef × Bytes)} {lookup : Lookup}
    {obtained : Obtained}
    (hcompat : .compat ∉ optionFlags call.options)
    (hid : selectCacheId call = .ok cacheId)
    (hlookup : lookup = lookupCache process call (cacheId.map Prod.snd))
    (hobtain : obtainModule lib lookup.process call (cacheId.map Prod.snd)
      lookup.module = .ok obtained) :
    ReferencesDropped (stringRefs cacheId obtained.refs) ↔
      ¬ RejectsInput lib process call := by
  rw [referencesDropped_stringRefs,
    obtainModule_referencesDropped_iff hcompat hobtain, not_iff_not]
  have hmissed : (∀ ref key, selectCacheId call = .ok (some (ref, key)) →
      process.cacheFind key = none) ↔
        ∀ key, cacheId.map Prod.snd = some key →
          process.cacheFind key = none := by
    rw [hid]
    cases cacheId with
    | none => simp
    | some entry => simp [Prod.ext_iff]
  constructor
  · rintro ⟨hnone, htype, hrejected⟩
    rw [hlookup, lookupCache_string_none_iff htype, ← hmissed] at hnone
    exact ⟨htype, hnone, hrejected⟩
  · rintro ⟨htype, hnone, hrejected⟩
    rw [hlookup, lookupCache_string_none_iff htype, ← hmissed]
    exact ⟨hnone, htype, hrejected⟩

/-! ## Whole runs -/

/-- Every call without `compat` that has returned dropped the references it
took, unless its input was rejected. -/
def StringsSettled (lib : Library) (world : World) : Prop :=
  ∀ call before leases refs result,
    .leave call before leases refs result ∈ world.events →
      .compat ∉ optionFlags call.options →
        (ReferencesDropped refs ↔ ¬ RejectsInput lib before call)

/-- Calls keep a reference on their input exactly when it is a template which
is compiled and rejected, whatever their outcome and however deep they are
nested. -/
theorem string_references_dropped_iff (lib : Library) (fuel : ℕ)
    (script : Script) (process : Process) :
    StringsSettled lib (runScript lib fuel script (.start process)).1 := by
  have hrule : LeaveRule lib fun call before _ refs =>
      CompilerFlag.compat ∉ optionFlags call.options →
        (ReferencesDropped refs ↔ ¬ RejectsInput lib before call) := by
    intro process call cacheId lookup obtained hid hlookup hobtain hcompat
    exact call_referencesDropped_iff hcompat hid hlookup hobtain
  exact runScript_everyLeave hrule fuel script process

def rejectingLibrary : Library :=
  { sampleLibrary with
    parseEx := fun _ _ => .error ⟨.other 1, "Parse error"⟩ }

/-- The call takes three references on its input and drops two. -/
theorem rejected_template_keeps_reference :
    ∃ call before leases refs result,
      .leave call before leases refs result ∈
        (runScript rejectingLibrary 1
          (.sequence [.render (sampleCall .string (ascii "t"))])
          (.start sampleProcess)).1.events ∧
      .compat ∉ optionFlags call.options ∧
      ¬ ReferencesDropped refs := by
  refine ⟨_, _, _, _, _, .tail _ (.head _), ?_, ?_⟩
  · decide
  · intro hdropped
    have hcount := hdropped .input (.inl rfl)
    exact absurd hcount (by decide)

end PhpHandlebars
