import PhpHandlebars.PrecompiledRender
import Mathlib.Tactic

/-!
# What calls return

A call which ends returns a string or leaves an exception.  It never does both;
that it does not do neither rests on the library: when no exception is pending
an execution ends with a buffer, or with an error which is not the external one.
-/

namespace PhpHandlebars

variable {lib : Library} {callee : Callee}

def World.answers (world : World) : List CallResult :=
  world.results.map Prod.snd

/-! ## A property of every answer -/

def EveryAnswer (P : CallResult → Prop) (world : World) : Prop :=
  ∀ answer ∈ world.answers, P answer

theorem everyAnswer_worldRelation (P : CallResult → Prop) :
    WorldRelation fun before after =>
      EveryAnswer P before → EveryAnswer P after where
  refl := fun _ h => h
  trans := fun _ _ _ hfirst hsecond h => hsecond (hfirst h)
  outside := fun _ _ _ h => h

theorem EveryAnswer.enter {P : CallResult → Prop} {world : World}
    (hevery : EveryAnswer P world) (call : Call) :
    EveryAnswer P (world.enter call) := by
  simpa [EveryAnswer, World.answers] using hevery

theorem EveryAnswer.leave {P : CallResult → Prop} {world : World}
    (hevery : EveryAnswer P world) (call : Call) (before : Process)
    (cacheId : Option (StringRef × Bytes)) (lookup : Lookup)
    (obtained : Obtained) {result : CallResult} (hresult : P result) :
    EveryAnswer P
      (world.leave call before cacheId lookup obtained result) := by
  intro answer hmem
  rw [World.answers, results_leave, List.map_append] at hmem
  rcases List.mem_append.mp hmem with hold | hlast
  · exact hevery answer hold
  · obtain rfl := List.mem_singleton.mp hlast
    exact hresult

/-- What has to be shown of a single call. -/
def AnswerRule (lib : Library) (P : CallResult → Prop) : Prop :=
  ∀ {callee : Callee} {world executed : World} {process : Process}
    {call : Call} {id : Option Bytes} {found : Option Module}
    {obtained : Obtained} {result : CallResult},
    obtainModule lib process call id found = .ok obtained →
    executeModule lib callee world call obtained = (executed, .ok result) →
    P result

theorem renderWith_everyAnswer {P : CallResult → Prop}
    (hrule : AnswerRule lib P)
    (hcallee : ∀ world call, EveryAnswer P world →
      EveryAnswer P (callee world call).1)
    (world : World) (call : Call) (hevery : EveryAnswer P world) :
    EveryAnswer P (renderWith lib callee world call).1 := by
  have hexecute : ∀ (lookup : Lookup) (obtained : Obtained),
      EveryAnswer P (executeModule lib callee
        (((world.enter call).look lookup).obtain obtained) call
          obtained).1 :=
    fun lookup obtained =>
      (everyAnswer_worldRelation P).executeModule_relates hcallee
        (((world.enter call).look lookup).obtain obtained) call obtained
        (hevery.enter call)
  have hstep := renderWith_step lib callee world call
  generalize renderWith lib callee world call = ending at hstep ⊢
  cases hstep with
  | badOptions fault hid => exact hevery.enter call
  | badCompile cacheId lookup fault hid hlookup hobtain =>
      exact hevery.enter call
  | halted cacheId lookup obtained executed halt hid hlookup hobtain hend =>
      simpa [hend] using hexecute lookup obtained
  | returned cacheId lookup obtained executed result hid hlookup hobtain
      hend =>
      have hinner : EveryAnswer P executed := by
        simpa [hend] using hexecute lookup obtained
      exact hinner.leave call world.process cacheId lookup obtained
        (hrule hobtain hend)

/-- What each call returns by itself, all calls of a script return, nested
ones included. -/
theorem runScript_everyAnswer {P : CallResult → Prop}
    (hrule : AnswerRule lib P) (fuel : ℕ) (script : Script)
    (process : Process) :
    EveryAnswer P (runScript lib fuel script (.start process)).1 := by
  apply (everyAnswer_worldRelation P).runScript_relates
    (fun _ hcallee => renderWith_everyAnswer hrule hcallee) fuel script
  intro answer hmem
  simp [World.answers, World.results, World.start] at hmem

/-! ## A string or an exception -/

/-- With nothing pending there is a buffer or an error which is thrown; an
external error only stands for an exception which is pending. -/
def ExecutionEnd.Proper (finish : ExecutionEnd) : Prop :=
  finish.pending = none →
    (∃ buffer, finish.outcome = .ok (some buffer)) ∨
      ∃ error, finish.outcome = .error error ∧ error.num ≠ .external

/-- No stage of compiling runs PHP code, so that none has an external error to
report. -/
structure Library.EndsProperly (lib : Library) : Prop where
  pipeline : ∀ tmpl flags compiler cls error,
    lib.pipeline tmpl flags compiler = .error (cls, error) →
      error.num ≠ .external
  execution : ∀ input, (lib.execute input).Ends ExecutionEnd.Proper

/-- Exactly one of the two. -/
def CallResult.Decided (result : CallResult) : Prop :=
  result.output.isSome ↔ result.pending = none

theorem CallResult.decided_of_exception {pending : Option Exception}
    (hpending : pending.isSome) : Decided ⟨none, pending⟩ := by
  obtain ⟨exception, rfl⟩ := Option.isSome_iff_exists.mp hpending
  simp [Decided]

theorem phpHandlebarsThrow_isSome_of_not_external (cls : ExceptionClass)
    {error : LibError} (hnum : error.num ≠ .external)
    (pending : Option Exception) :
    (phpHandlebarsThrow cls error pending).isSome := by
  rw [phpHandlebarsThrow, if_pos hnum]
  exact zendThrowException_isSome _ _ _ _

theorem ExecutionEnd.Proper.decided {finish : ExecutionEnd}
    (hproper : finish.Proper) : finish.result.Decided := by
  cases hpending : finish.pending with
  | none =>
      rcases hproper hpending with ⟨buffer, hok⟩ | ⟨error, herror, hnum⟩
      · simp [ExecutionEnd.result, hok, hpending, CallResult.Decided]
      · simp only [ExecutionEnd.result, herror]
        exact CallResult.decided_of_exception
          (phpHandlebarsThrow_isSome_of_not_external _ hnum _)
  | some exception =>
      cases houtcome : finish.outcome with
      | ok buffer =>
          simp [ExecutionEnd.result, houtcome, hpending, CallResult.Decided]
      | error error =>
          simp only [ExecutionEnd.result, houtcome, hpending]
          apply CallResult.decided_of_exception
          unfold phpHandlebarsThrow
          split
          · exact zendThrowException_isSome _ _ _ _
          · rfl

theorem compile_undone {now : ℕ} {tmplRef : StringRef}
    {tmpl : Bytes} {helpers : Registry} {options : Option Zval}
    {result : CompileResult} (hlib : lib.EndsProperly)
    (hcompile : compile lib now (some .fresh) tmplRef tmpl (some helpers)
      options = .ok result)
    (hmodule : result.module = none) : result.pending.isSome := by
  unfold compile at hcompile
  split at hcompile
  next => simp at hcompile
  next error hconfigure =>
    obtain rfl := Except.ok.inj hcompile
    apply phpHandlebarsThrow_isSome_of_not_external
    rw [configure_with_vm] at hconfigure
    split at hconfigure
    next other hdata =>
      obtain rfl := Stop.raised.inj (Except.error.inj hconfigure)
      rw [dataError_num hdata]
      simp
    next => split at hconfigure <;> simp at hconfigure
  next flags compiler vm' pending hconfigure =>
    split at hcompile
    next cls error hpipeline =>
      obtain rfl := Except.ok.inj hcompile
      exact phpHandlebarsThrow_isSome_of_not_external cls
        (hlib.pipeline tmpl flags compiler cls error hpipeline) pending
    next =>
      obtain rfl := Except.ok.inj hcompile
      simp at hmodule

theorem compileTemplate_undone {process : Process} {call : Call}
    {id : Option Bytes} {tmplRef : StringRef} {tmpl : Bytes}
    {obtained : Obtained} (hlib : lib.EndsProperly)
    (hobtain : compileTemplate lib process call id tmplRef tmpl =
      .ok obtained)
    (hmodule : obtained.module = none) : obtained.pending.isSome := by
  unfold compileTemplate at hobtain
  cases hcompile : compile lib process.clock (some .fresh) tmplRef tmpl
      (some call.helpers) call.options with
  | error fault => simp [hcompile, bind, Except.bind] at hobtain
  | ok result =>
      simp only [hcompile, bind, Except.bind] at hobtain
      obtain rfl := Except.ok.inj hobtain
      exact compile_undone hlib hcompile hmodule

/-- A call without a module has an exception to show for it. -/
theorem obtainModule_undone {process : Process} {call : Call}
    {id : Option Bytes} {found : Option Module} {obtained : Obtained}
    (hlib : lib.EndsProperly)
    (hobtain : obtainModule lib process call id found = .ok obtained)
    (hmodule : obtained.module = none) : obtained.pending.isSome := by
  unfold obtainModule at hobtain
  split at hobtain
  next =>
    obtain rfl := Except.ok.inj hobtain
    simp at hmodule
  next =>
    split at hobtain
    next => exact compileTemplate_undone hlib hobtain hmodule
    next =>
      split at hobtain
      next =>
        obtain rfl := Except.ok.inj hobtain
        rfl
      next => exact compileTemplate_undone hlib hobtain hmodule
    next =>
      split at hobtain
      next =>
        obtain rfl := Except.ok.inj hobtain
        rfl
      next =>
        obtain rfl := Except.ok.inj hobtain
        simp at hmodule

theorem decided_answerRule (hlib : lib.EndsProperly) :
    AnswerRule lib CallResult.Decided := by
  intro callee world executed process call id found obtained result hobtain
    hexecute
  unfold executeModule at hexecute
  split at hexecute
  next hmodule =>
    obtain ⟨_, hresult⟩ := Prod.mk.inj hexecute
    obtain rfl := Except.ok.inj hresult
    exact CallResult.decided_of_exception
      (obtainModule_undone hlib hobtain hmodule)
  next module hmodule =>
    split at hexecute
    next error hcontext =>
      obtain ⟨_, hresult⟩ := Prod.mk.inj hexecute
      obtain rfl := Except.ok.inj hresult
      apply CallResult.decided_of_exception
      apply phpHandlebarsThrow_isSome_of_not_external
      have herror : contextError call = some error := by
        simp [contextError, hcontext]
      have hnum : error.num = .error := contextError_num herror
      rw [hnum]
      simp
    next context hcontext =>
      dsimp only at hexecute
      split at hexecute
      next => simp at hexecute
      next world' finish hrun =>
        obtain ⟨_, hresult⟩ := Prod.mk.inj hexecute
        obtain rfl := Except.ok.inj hresult
        exact (CallTree.run_ends (hlib.execution _) hrun).decided

theorem sampleLibrary_endsProperly : sampleLibrary.EndsProperly where
  pipeline := by
    intro tmpl flags compiler cls error hpipeline
    rw [sampleLibrary_pipeline] at hpipeline
    simp at hpipeline
  execution := by
    intro input hpending
    exact .inl ⟨input.image, rfl⟩

end PhpHandlebars
