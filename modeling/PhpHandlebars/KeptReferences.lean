import PhpHandlebars.StringReferences
import Mathlib.Tactic

/-!
# The references a run keeps

The input string and the cache id are freed with the process, unless all
references on them are dropped before.  What the calls of a run keep of them is
counted here, with and without `compat`, for the calls which end.
-/

namespace PhpHandlebars

variable {lib : Library}

def kept (refs : Ledger StringRef) (ref : StringRef) : ℤ :=
  refs.count (.acquire ref) - refs.count (.release ref)

/-- `compile` gets as far as its reference on the template, and then drops the
one on the preprocessed template, or none. -/
def KeepsTemplate (lib : Library) (helpers : Registry) (options : Option Zval)
    (tmpl : Bytes) : Prop :=
  ∃ flags compiler vm pending,
    lib.configure (some .fresh) (some helpers) options =
        .ok (flags, compiler, vm, pending) ∧
      (.compat ∈ flags ∨
        ∃ error, lib.pipeline tmpl flags compiler = .error error)

structure KeepsInput (lib : Library) (before : Process) (call : Call) :
    Prop where
  template : call.type = .string
  missed : ∀ ref key, selectCacheId call = .ok (some (ref, key)) →
    before.cacheFind key = none
  compiled : KeepsTemplate lib call.helpers call.options call.input

/-! ## One call -/

theorem kept_stringRefs (cacheId : Option (StringRef × Bytes))
    (inner : Ledger StringRef) (ref : StringRef) :
    kept (stringRefs cacheId inner) ref = kept inner ref := by
  unfold kept stringRefs
  simp only [Ledger.count_acquire_bracket, Ledger.count_release_bracket]
  push_cast
  ring

section

open Classical

/-- The reference on the template is the only one which may be kept. -/
theorem compile_kept {now : ℕ} {tmplRef : StringRef} {tmpl : Bytes}
    {helpers : Registry} {options : Option Zval} {result : CompileResult}
    (hcompile : compile lib now (some .fresh) tmplRef tmpl (some helpers)
      options = .ok result) {ref : StringRef} (href : ref.Outlives) :
    kept result.refs ref =
      if tmplRef = ref ∧ KeepsTemplate lib helpers options tmpl then 1
      else 0 := by
  have hpreprocessed : StringRef.preprocessed ≠ ref := by
    rcases href with rfl | rfl <;> simp
  unfold compile at hcompile
  split at hcompile
  next => simp at hcompile
  next error hconfigure =>
    obtain rfl := Except.ok.inj hcompile
    simp [KeepsTemplate, hconfigure, kept]
  next flags compiler vm pending hconfigure =>
    have hkeeps : KeepsTemplate lib helpers options tmpl ↔ .compat ∈ flags ∨
        ∃ error, lib.pipeline tmpl flags compiler = .error error := by
      simp [KeepsTemplate, hconfigure]
    rw [hkeeps]
    split at hcompile
    next cls error hpipeline =>
      obtain rfl := Except.ok.inj hcompile
      by_cases htmpl : tmplRef = ref <;> simp [kept, hpipeline, htmpl]
    next image hpipeline =>
      obtain rfl := Except.ok.inj hcompile
      -- with `compat` it is the preprocessed template which is released
      by_cases htmpl : tmplRef = ref <;>
        by_cases hcompat : CompilerFlag.compat ∈ flags <;>
        simp [kept, hpipeline, htmpl, hcompat, hpreprocessed]

theorem compileTemplate_kept {process : Process} {call : Call}
    {id : Option Bytes} {tmplRef : StringRef} {tmpl : Bytes}
    {obtained : Obtained}
    (hcompile : compileTemplate lib process call id tmplRef tmpl =
      .ok obtained) {ref : StringRef} (href : ref.Outlives) :
    kept obtained.refs ref =
      if tmplRef = ref ∧ KeepsTemplate lib call.helpers call.options tmpl then 1
      else 0 := by
  unfold compileTemplate at hcompile
  cases hresult : compile lib process.clock (some .fresh) tmplRef tmpl
      (some call.helpers) call.options with
  | error fault => simp [hresult, bind, Except.bind] at hcompile
  | ok result =>
      simp only [hresult, bind, Except.bind, pure, Except.pure,
        Except.ok.injEq] at hcompile
      rw [← hcompile]
      exact compile_kept hresult href

theorem obtainModule_kept {process : Process} {call : Call}
    {id : Option Bytes} {found : Option Module} {obtained : Obtained}
    (hobtain : obtainModule lib process call id found = .ok obtained)
    {ref : StringRef} (href : ref.Outlives) :
    kept obtained.refs ref =
      if ref = .input ∧ found = none ∧ call.type = .string ∧
        KeepsTemplate lib call.helpers call.options call.input then 1
      else 0 := by
  have hcontents : StringRef.contents ≠ ref := by
    rcases href with rfl | rfl <;> simp
  cases found with
  | some module =>
      obtain rfl := Except.ok.inj hobtain
      simp [kept]
  | none =>
      unfold obtainModule at hobtain
      cases htype : call.type with
      | string =>
          simp only [htype] at hobtain
          rw [compileTemplate_kept hobtain href]
          simp [eq_comm]
      | filename =>
          simp only [htype] at hobtain
          split at hobtain
          next =>
            obtain rfl := Except.ok.inj hobtain
            simp [kept]
          next =>
            rw [compileTemplate_kept hobtain href]
            simp [hcontents]
      | binary =>
          simp only [htype] at hobtain
          split at hobtain <;>
          · obtain rfl := Except.ok.inj hobtain
            simp [kept]

/-- A call keeps a reference on its input, or nothing. -/
theorem call_kept {process : Process} {call : Call}
    {cacheId : Option (StringRef × Bytes)} {lookup : Lookup}
    {obtained : Obtained} (hid : selectCacheId call = .ok cacheId)
    (hlookup : lookup = lookupCache process call (cacheId.map Prod.snd))
    (hobtain : obtainModule lib lookup.process call (cacheId.map Prod.snd)
      lookup.module = .ok obtained) {ref : StringRef} (href : ref.Outlives) :
    kept (stringRefs cacheId obtained.refs) ref =
      if ref = .input ∧ KeepsInput lib process call then 1 else 0 := by
  have hmissed : (∀ ref key, selectCacheId call = .ok (some (ref, key)) →
      process.cacheFind key = none) ↔
        ∀ key, cacheId.map Prod.snd = some key →
          process.cacheFind key = none := by
    rw [hid]
    cases cacheId with
    | none => simp
    | some entry => simp [Prod.ext_iff]
  have hkeeps : KeepsInput lib process call ↔
      lookup.module = none ∧ call.type = .string ∧
        KeepsTemplate lib call.helpers call.options call.input := by
    constructor
    · rintro ⟨htype, hnone, hcompiled⟩
      rw [hlookup, lookupCache_string_none_iff htype, ← hmissed]
      exact ⟨hnone, htype, hcompiled⟩
    · rintro ⟨hnone, htype, hcompiled⟩
      rw [hlookup, lookupCache_string_none_iff htype, ← hmissed] at hnone
      exact ⟨htype, hnone, hcompiled⟩
  rw [kept_stringRefs, obtainModule_kept hobtain href]
  exact if_congr (and_congr_right' hkeeps.symm) rfl rfl

/-! ## Whole runs -/

def AccountedFor (lib : Library) : LeaveProperty :=
  fun call before _ refs => ∀ ref : StringRef, ref.Outlives →
    kept refs ref =
      if ref = .input ∧ KeepsInput lib before call then 1 else 0

theorem runScript_accountedFor (lib : Library) (fuel : ℕ) (script : Script)
    (process : Process) :
    EveryLeave (AccountedFor lib)
      (runScript lib fuel script (.start process)).1 := by
  have hrule : LeaveRule lib (AccountedFor lib) := by
    intro process call cacheId lookup obtained hid hlookup hobtain ref href
    exact call_kept hid hlookup hobtain href
  exact runScript_everyLeave hrule fuel script process

/-- What a call keeps of its strings, when it is left. -/
def CallEvent.kept : CallEvent → ℤ
  | .enter _ _ => 0
  | .leave _ _ _ refs _ =>
      PhpHandlebars.kept refs .input + PhpHandlebars.kept refs .cacheId

def CallEvent.Keeps (lib : Library) : CallEvent → Prop
  | .enter _ _ => False
  | .leave call before _ _ _ => KeepsInput lib before call

theorem sum_kept_eq_countP {events : List CallEvent}
    (hkept : ∀ event ∈ events,
      event.kept = if event.Keeps lib then 1 else 0) :
    (events.map CallEvent.kept).sum =
      (events.countP fun event => event.Keeps lib : ℕ) := by
  induction events with
  | nil => rfl
  | cons event rest ih =>
      rw [List.map_cons, List.sum_cons, hkept event List.mem_cons_self,
        ih fun other hother => hkept other (List.mem_cons_of_mem event hother),
        List.countP_cons]
      by_cases hkeeps : event.Keeps lib <;> simp [hkeeps, add_comm]

/-- A run keeps one reference for each call which has compiled its input and
has rejected it, or preprocessed it for `compat`. -/
theorem references_kept_by_run (lib : Library) (fuel : ℕ) (script : Script)
    (process : Process) :
    let events := (runScript lib fuel script (.start process)).1.events
    (events.map CallEvent.kept).sum =
      (events.countP fun event => event.Keeps lib : ℕ) := by
  have hleave := runScript_accountedFor lib fuel script process
  apply sum_kept_eq_countP
  intro event hevent
  cases event with
  | enter call before => simp [CallEvent.kept, CallEvent.Keeps]
  | leave call before leases refs result =>
      have hstrings := hleave call before leases refs result hevent
      have hinput := hstrings .input (.inl rfl)
      have hcacheId := hstrings .cacheId (.inr rfl)
      by_cases hkeeps : KeepsInput lib before call <;>
        simp [CallEvent.kept, CallEvent.Keeps, hinput, hcacheId, hkeeps]

end

def compatCall (tmpl : Bytes) : Call :=
  { sampleCall .string tmpl with
    options := some (.array [(.string internedCompat, .true)]) }

/-- The second call finds its module in the cache. -/
example :
    ((runScript sampleLibrary 1
      (.sequence [.render (compatCall (ascii "a")),
        .render (compatCall (ascii "a")), .render (compatCall (ascii "b"))])
      (.start sampleProcess)).1.events.map CallEvent.kept).sum = 2 := rfl

end PhpHandlebars
