import PhpHandlebars.HandlerSlots
import Mathlib.Tactic

/-!
# Dangling handlers

A `jmp_buf` lives in the frame of the function which has set it, and the slot
it was put into outlives that frame.  The rule which all entry points but two
keep is that no slot of a living context holds the buffer of a function which
has returned.
-/

namespace PhpHandlebars

open ErrorState

/-- Some context which is still alive holds the buffer of the function. -/
def FrameReport.Dangles (report : FrameReport) : Prop :=
  ∃ context, report.after.Alive context ∧
    report.after.jmp context = some report.buf

/-- Module initialisation and `compile` leave their buffer where they put
it. -/
def Owner.LeavesBuffer (owner : Owner) : Prop :=
  owner = .minit ∨ owner = .compile

def FrameReport.SlotRule (report : FrameReport) : Prop :=
  report.ended.exit = none →
    (report.Dangles ↔ report.buf.owner.LeavesBuffer)

/-- Arguments which do not convert are an error for the buffer in the slot,
which is not yet that of the call. -/
def FrameReport.Misdirects (report : FrameReport) : Prop :=
  ∀ arguments, report.arguments = some arguments →
    ∀ error, arguments.convert = .error error →
      ∃ raised ∈ report.raised, raised.target ≠ some report.buf

structure FrameReport.Lawful (report : FrameReport) : Prop where
  slot : report.SlotRule
  misdirects : report.Misdirects

theorem install_not_held {state : ErrorState} {buf : JmpBuf}
    {jmp : Option JmpBuf} (hstate : state.Consistent)
    (hjmp : jmp ≠ some buf) (context : Context) :
    (state.install buf.context jmp).jmp context ≠ some buf := by
  by_cases hcontext : context = buf.context
  · subst context
    simpa using hjmp
  · rw [install_of_ne hcontext]
    exact fun hheld => hcontext (hstate.context context buf hheld).symm

theorem Closes.after_of_returned {buf : JmpBuf} {cls : ExceptionClass}
    {done : ErrorState → ErrorState} {state after : ErrorState}
    {exit : Option Exit} {ended : FrameEnd}
    (hcloses : Closes buf cls done state exit after ended)
    (hended : ended.exit = none) :
    ∃ pending, after = done { state with pending := pending } := by
  cases hcloses with
  | passed => exact ⟨state.pending, rfl⟩
  | caught error => exact ⟨_, rfl⟩
  | left exit hother => simp [FrameEnd.exit] at hended

theorem Frame.report_misdirects {arguments : Option OptionsArguments}
    (hconverted : ∀ given, arguments = some given → given.convert = .ok ())
    (frame : Frame) (buf : JmpBuf) (before after : ErrorState)
    (ended : FrameEnd) :
    (frame.report buf arguments before after ended).Misdirects := by
  intro given hgiven error herror
  simp [hconverted given hgiven] at herror

theorem Closes.lawful_of_released {buf : JmpBuf} {cls : ExceptionClass}
    {done : ErrorState → ErrorState} {after before : ErrorState}
    {frame : Frame} {exit : Option Exit} {ended : FrameEnd}
    {arguments : Option OptionsArguments}
    (hcloses : Closes buf cls done frame.run.state exit after ended)
    (hconverted : ∀ given, arguments = some given → given.convert = .ok ())
    (hstate : frame.run.state.Consistent)
    (howner : ¬ buf.owner.LeavesBuffer)
    (hdone : ∀ state : ErrorState, state.Consistent → ∀ context,
      (done state).Alive context → (done state).jmp context ≠ some buf) :
    (frame.report buf arguments before after ended).Lawful := by
  refine ⟨fun hended => ?_, frame.report_misdirects hconverted _ _ _ _⟩
  obtain ⟨pending, rfl⟩ := hcloses.after_of_returned hended
  refine iff_of_false ?_ howner
  rintro ⟨context, halive, hheld⟩
  exact hdone _ (hstate.withPending pending) context halive hheld

theorem Closes.lawful_of_kept {buf : JmpBuf} {cls : ExceptionClass}
    {after before : ErrorState} {frame : Frame} {exit : Option Exit}
    {ended : FrameEnd}
    (hcloses : Closes buf cls id frame.run.state exit after ended)
    (howner : buf.owner.LeavesBuffer)
    (halive : frame.run.state.Alive buf.context)
    (hheld : ended.exit = none →
      frame.run.state.jmp buf.context = some buf) :
    (frame.report buf none before after ended).Lawful := by
  refine ⟨fun hended => ?_, frame.report_misdirects (by simp) _ _ _ _⟩
  obtain ⟨pending, rfl⟩ := hcloses.after_of_returned hended
  refine iff_of_true ⟨buf.context, ?_, hheld hended⟩ howner
  cases hcontext : buf.context <;> rw [hcontext] at halive <;> exact halive

/-! ## Runs -/

def releaseRelation : RunRelation where
  program _ frame out := frame.run.state.Consistent →
    frame.run.AllReports FrameReport.Lawful →
    out.1.run.AllReports FrameReport.Lawful
  userCode run out := run.state.Consistent →
    run.AllReports FrameReport.Lawful →
    out.1.AllReports FrameReport.Lawful
  entry run out := run.state.Consistent →
    run.AllReports FrameReport.Lawful →
    out.1.AllReports FrameReport.Lawful

theorem Frame.Returns.released {userCode : UserCode} {frame back : Frame}
    (hrun : ∀ run, releaseRelation.userCode run (runUserCode userCode run))
    (hback : frame.Returns (runUserCode userCode) back)
    (hstate : frame.run.state.Consistent)
    (hreports : frame.run.AllReports FrameReport.Lawful) :
    back.run.AllReports FrameReport.Lawful := by
  have hcode := hrun frame.run hstate hreports
  cases hback with
  | skipped hpending => exact hreports
  | ret hpending run value hreturned =>
      rw [hreturned] at hcode
      exact hcode
  | threw hpending run exception hthrown =>
      rw [hthrown] at hcode
      exact hcode

theorem callHandler_released {kind : HandlerKind} {userCode : UserCode}
    {next : Option Zval → Program}
    (hrun : ∀ run, releaseRelation.userCode run (runUserCode userCode run))
    (hnext : ∀ value buf frame, releaseRelation.program buf frame
      (runProgram (next value) buf frame))
    (buf : JmpBuf) (frame : Frame) :
    releaseRelation.program buf frame
      (callHandler kind (runUserCode userCode)
        (fun value => runProgram (next value)) buf frame) := by
  intro hstate hreports
  have houtcome := callHandler_outcome kind (runUserCode userCode)
    (fun value => runProgram (next value)) buf frame
  generalize callHandler kind (runUserCode userCode)
    (fun value => runProgram (next value)) buf frame = out at houtcome ⊢
  cases houtcome with
  | left hpending run exit hleft =>
      have hcode := hrun frame.run hstate hreports
      rw [hleft] at hcode
      exact hcode
  | failed back hback raisedOn error herror =>
      have hreleased := hback.released hrun hstate hreports
      exact hreleased
  | continued back hback result =>
      have hcontinues := hback.continues
        (slotRelation_respected.runUserCode userCode) hstate
      exact hnext result buf back hcontinues.consistent
        (hback.released hrun hstate hreports)
  | refused => exact hreports
  | crashed => exact hreports

theorem setRegistry_released {destructors : UserCode}
    (hrun : ∀ run,
      releaseRelation.userCode run (runUserCode destructors run))
    (partials : Bool) (vm : ℕ) (value : Zval) (run : ErrorRun) :
    releaseRelation.entry run
      (run.setRegistry partials vm value (runUserCode destructors)) := by
  intro hstate hreports
  obtain hcrash | ⟨owner, entered, buf, body, howner, hnew, hbody, hclose⟩ :=
    setRegistry_cases run partials vm value (runUserCode destructors)
  · rw [hcrash]
    exact hreports
  have hstart := newBuf_setjmp_continues hstate hnew
  replace hreports := newBuf_allReports hnew hreports
  have hcode := hrun (entered.frame.setjmp buf).run hstart.consistent hreports
  have hcontinues := runUserCode_continues destructors hstart.consistent
  have hframe : body.1.run.state.Consistent ∧
      body.1.run.AllReports FrameReport.Lawful := by
    cases hbody with
    | raised error hnum => exact ⟨hstart.consistent, hreports⟩
    | left run' exit hleft =>
        rw [hleft] at hcode hcontinues
        exact ⟨hcontinues.consistent, hcode⟩
    | ret run' value hreturned =>
        rw [hreturned] at hcode hcontinues
        exact ⟨hcontinues.consistent, hcode⟩
    | threw run' exception hthrown =>
        rw [hthrown] at hcode hcontinues
        exact ⟨hcontinues.consistent.withPending _, hcode⟩
  obtain ⟨after, ended, hcloses, hreport⟩ := closeFrame_closes buf none
    run.state .runtimeException (ErrorRun.clearJmp buf) body.1 body.2
  rw [hclose, hreport]
  refine hframe.2.append (hcloses.lawful_of_released (by simp) hframe.1 ?_
    fun state hconsistent context _ =>
      install_not_held hconsistent (by simp) context) after
  rw [newBuf_buf hnew]
  rcases howner with rfl | rfl <;> simp [Owner.LeavesBuffer]

theorem CompileBody.held {configuration : Program} {buf : JmpBuf}
    {frame : Frame} {cls : ExceptionClass} {body : Frame × Option Exit}
    {after : ErrorState} {ended : FrameEnd}
    (hbody : CompileBody (runProgram configuration) buf frame cls body)
    (hcloses : Closes buf cls id body.1.run.state body.2 after ended)
    (hcontinues : frame.run.state.Continues body.1.run.state body.2)
    (hended : ended.exit = none) :
    body.1.run.state.jmp buf.context = some buf := by
  have hholds := hcontinues.holds
  cases hbody with
  | stopped back exit hback =>
      cases hcloses with
      | caught error => exact hholds
      | left exit hother => simp [FrameEnd.exit] at hended
  | parsed back hback => simp [Frame.setjmp]
  | failed back hback error => simp [raiseError, Frame.throw, Frame.setjmp]

theorem CompileBody.released {configuration : Program} {buf : JmpBuf}
    {frame : Frame} {cls : ExceptionClass} {body : Frame × Option Exit}
    (hbody : CompileBody (runProgram configuration) buf frame cls body)
    (hrun : ∀ buf frame, releaseRelation.program buf frame
      (runProgram configuration buf frame))
    (hstate : frame.run.state.Consistent)
    (hreports : frame.run.AllReports FrameReport.Lawful) :
    body.1.run.AllReports FrameReport.Lawful := by
  have hconfiguration := hrun buf frame hstate hreports
  cases hbody with
  | stopped back exit hback =>
      rw [hback] at hconfiguration
      exact hconfiguration
  | parsed back hback =>
      rw [hback] at hconfiguration
      exact hconfiguration
  | failed back hback error =>
      rw [hback] at hconfiguration
      exact hconfiguration

theorem compile_released {configuration : Program}
    (hrun : ∀ buf frame, releaseRelation.program buf frame
      (runProgram configuration buf frame))
    {call : ℕ} (parsing : Option OwnError) {run : ErrorRun}
    (hstate : run.state.Consistent) (halive : run.state.Alive (.call call))
    (hreports : run.AllReports FrameReport.Lawful) :
    (run.compile call (runProgram configuration) parsing).1.AllReports
      FrameReport.Lawful := by
  obtain ⟨entered, buf, cls, body, hnew, hbody, hclose⟩ :=
    compile_cases run call (runProgram configuration) parsing
  have hstart := newBuf_setjmp_continues hstate hnew
  replace hreports := newBuf_allReports hnew hreports
  have hserial : buf.serial < (entered.frame.setjmp buf).run.state.serial := by
    obtain ⟨rfl, rfl⟩ := Prod.mk.inj hnew
    exact Nat.lt_succ_self _
  have hcontinues := hbody.continues
    (slotRelation_respected.runProgram configuration) hstart.consistent hserial
  obtain ⟨after, ended, hcloses, hreport⟩ := closeFrame_closes buf none
    run.state cls id body.1 body.2
  rw [hclose, hreport]
  refine (hbody.released hrun hstart.consistent hreports).append
    (hcloses.lawful_of_kept ?_ ?_
      (hbody.held hcloses hcontinues)) after
  · rw [newBuf_buf hnew]
    exact .inr rfl
  · rw [newBuf_buf hnew]
    have hprecedes := hstart.precedes.trans hcontinues.precedes
    refine ⟨halive.1.trans_le hprecedes.calls, ?_⟩
    rw [hprecedes.freed call halive.1]
    exact halive.2

theorem vmCompile_released {configuration : Program}
    (hrun : ∀ buf frame, releaseRelation.program buf frame
      (runProgram configuration buf frame))
    (parsing : Option OwnError) (run : ErrorRun) :
    releaseRelation.entry run
      (run.vmCompile (runProgram configuration) parsing) := by
  intro hstate hreports
  obtain ⟨call, made, run', report, hcall, hcompile, hclose⟩ :=
    vmCompile_cases run (runProgram configuration) parsing
  obtain ⟨-, hmade, hfreed, hstart⟩ := newCall_continues hstate hcall
  have hreleased := compile_released hrun parsing hstart.consistent
    ⟨by omega, hfreed⟩ (newCall_allReports hcall hreports)
  rw [hcompile] at hreleased
  obtain hclose | ⟨-, hclose⟩ := hclose <;> rw [hclose] <;> exact hreleased

theorem free_not_held {state : ErrorState} {buf : JmpBuf} {call : ℕ}
    (hstate : state.Consistent) (hbuf : buf.context = .call call)
    {context : Context} (halive : (state.free call).Alive context) :
    (state.free call).jmp context ≠ some buf := by
  intro hheld
  have hcontext : buf.context = context := hstate.context context buf hheld
  rw [← hcontext, hbuf] at halive
  have hfreed := halive.2
  simp [ErrorState.free] at hfreed

theorem ExecuteBody.released {execution : Program} {buf : JmpBuf}
    {frame : Frame} {body : Frame × Option Exit}
    (hbody : ExecuteBody (runProgram execution) buf frame body)
    (hrun : ∀ buf frame, releaseRelation.program buf frame
      (runProgram execution buf frame))
    (hstate : frame.run.state.Consistent)
    (hreports : frame.run.AllReports FrameReport.Lawful) :
    body.1.run.AllReports FrameReport.Lawful := by
  cases hbody with
  | raised error hnum => exact hreports
  | executed => exact hrun buf frame hstate hreports

theorem RenderBody.released {configuration execution : Program}
    {parsing : Option OwnError} {buf : JmpBuf} {call : ℕ}
    {entered : ErrorRun} {body : Frame × Option Exit}
    (hbody : RenderBody (runProgram configuration) parsing
      (runProgram execution) buf call entered body)
    (hconfiguration : ∀ buf frame, releaseRelation.program buf frame
      (runProgram configuration buf frame))
    (hexecution : ∀ buf frame, releaseRelation.program buf frame
      (runProgram execution buf frame))
    (hstate : entered.state.Consistent)
    (halive : entered.state.Alive (.call call))
    (hserial : buf.serial < entered.state.serial)
    (hreports : entered.AllReports FrameReport.Lawful) :
    body.1.run.AllReports FrameReport.Lawful := by
  have hcompile := compile_released hconfiguration parsing hstate halive
    hreports
  have hcontinues := compile_continues
    (slotRelation_respected.runProgram configuration) call parsing hstate
  cases hbody with
  | failed pending => exact hreports
  | loaded body hbody =>
      have hframe := executionFrame_continues hstate.continues halive.1
        hserial []
      exact hbody.released hexecution hframe.consistent hreports
  | stopped run report hrun hended =>
      rw [hrun] at hcompile
      exact hcompile
  | compiled run report hrun hended body hbody =>
      rw [hrun] at hcompile
      rw [hrun, hended] at hcontinues
      have hframe := executionFrame_continues hcontinues halive.1 hserial
        report.escaped
      exact hbody.released hexecution hframe.consistent hcompile

theorem render_released {configuration execution : Program}
    (hconfiguration : ∀ buf frame, releaseRelation.program buf frame
      (runProgram configuration buf frame))
    (hexecution : ∀ buf frame, releaseRelation.program buf frame
      (runProgram execution buf frame))
    (start : RenderStart) (parsing : Option OwnError)
    (context : Option Zval) (run : ErrorRun) :
    releaseRelation.entry run
      (run.render start (runProgram configuration) parsing context
        (runProgram execution)) := by
  intro hstate hreports
  obtain ⟨call, made, buf, entered, body, hcall, hnew, hbody, hclose⟩ :=
    render_cases run start (runProgram configuration) parsing context
      (runProgram execution)
  obtain ⟨-, hmade, hfreed, hcontinues⟩ := newCall_continues hstate hcall
  have hentered := newBuf_continues hcontinues.consistent hnew
  have hbuf := newBuf_buf hnew
  have halive : entered.state.Alive (.call call) := by
    have hcalls := hentered.precedes.calls
    refine ⟨by omega, ?_⟩
    rw [hentered.precedes.freed call (by omega)]
    exact hfreed
  have hserial : buf.serial < entered.state.serial := by
    obtain ⟨rfl, rfl⟩ := Prod.mk.inj hnew
    exact Nat.lt_succ_self _
  have hend := hbody.continues
    (slotRelation_respected.runProgram configuration)
    (slotRelation_respected.runProgram execution) hentered.consistent
    halive.1 hserial
  obtain ⟨after, ended, hcloses, hreport⟩ := closeFrame_closes buf none
    run.state .runtimeException (fun state => state.free call) body.1 body.2
  rw [hclose, hreport]
  refine (hbody.released hconfiguration hexecution hentered.consistent halive
    hserial (newBuf_allReports hnew (newCall_allReports hcall
      hreports))).append (hcloses.lawful_of_released (by simp) hend.consistent ?_
        fun state hconsistent context hcontext =>
          free_not_held hconsistent (by rw [hbuf]) hcontext) after
  simp [hbuf, Owner.LeavesBuffer]

theorem optionsCall_released {program : Program}
    (hrun : ∀ buf frame, releaseRelation.program buf frame
      (runProgram program buf frame))
    (call : ℕ) (programGuid : ℤ) (arguments : OptionsArguments)
    (run : ErrorRun) :
    releaseRelation.entry run
      (run.optionsCall call programGuid arguments (runProgram program)) := by
  intro hstate hreports
  have houtcome := optionsCall_outcome run call programGuid arguments
    (runProgram program)
  generalize run.optionsCall call programGuid arguments (runProgram program) =
    out at houtcome ⊢
  cases houtcome with
  | unset pending => exact hreports
  | noProgram => exact hreports
  | unconverted hexecuting error hconvert buf entered hnew =>
      have hentered := newBuf_continues hstate hnew
      obtain ⟨after, ended, hcloses, hreport⟩ := closeFrame_closes buf
        (some arguments) run.state .runtimeException id
        (entered.frame.throw (some buf.context) error).1
        (some (entered.frame.throw (some buf.context) error).2)
      rw [hreport]
      have hentry := newBuf_allReports hnew hreports
      -- the error goes to another buffer, and the function does not return
      have hleft := hcloses.left_of_other (throw_not_to
        (newBuf_not_held hstate hnew) (some buf.context) error)
      refine hentry.append ⟨fun hended => ?_, fun _ _ _ _ => ?_⟩ after
      · simp [hleft, Frame.report, FrameEnd.exit] at hended
      · refine ⟨_, List.mem_append_right _ (.head _), ?_⟩
        exact newBuf_not_held hstate hnew buf.context
  | called hexecuting hconvert buf entered hnew =>
      have hstart := newBuf_setjmp_continues hstate hnew
      have hend := runProgram_continues program buf hstart.consistent
      have hbuf := newBuf_buf hnew
      have hentry := newBuf_allReports hnew hreports
      obtain ⟨after, ended, hcloses, hreport⟩ := closeFrame_closes buf
        (some arguments) run.state .runtimeException
        (ErrorRun.restoreJmp buf (entered.state.jmp buf.context))
        (runProgram program buf (entered.frame.setjmp buf)).1
        (runProgram program buf (entered.frame.setjmp buf)).2
      rw [hreport]
      refine (hrun buf _ hstart.consistent hentry).append
        (hcloses.lawful_of_released (by simp [hconvert]) hend.consistent ?_
          fun state hconsistent context _ => install_not_held hconsistent
            (newBuf_not_held hstate hnew buf.context) context) after
      simp [hbuf, Owner.LeavesBuffer]

theorem releaseRelation_respected : releaseRelation.Respected where
  finish _ _ _ hreports := hreports
  raise _ _ _ _ hreports := hreports
  handler _ _ _ hrun hnext := callHandler_released hrun hnext
  ret _ _ _ hreports := hreports
  threw _ _ _ hreports := hreports
  call entry next hentry hnext run := by
    intro hstate hreports
    have hserved := hentry run hstate hreports
    have hcontinues := runEntry_continues entry hstate
    unfold callEntry
    cases hrun : runEntry entry run with
    | mk run' exit =>
        rw [hrun] at hserved hcontinues
        cases exit with
        | some exit => exact hserved
        | none =>
            exact hnext run'.state.pending (run'.setPending none)
              (hcontinues.consistent.withPending none) hserved
  newVm _ _ hreports := hreports
  setRegistry partials vm value _ hrun :=
    setRegistry_released hrun partials vm value
  vmCompile _ parsing hrun := vmCompile_released hrun parsing
  render start _ parsing context _ hconfiguration hexecution :=
    render_released hconfiguration hexecution start parsing context
  optionsCall call programGuid arguments _ hrun :=
    optionsCall_released hrun call programGuid arguments

theorem moduleInit_lawful (failsPending : Bool)
    (cacheError : Option OwnError) :
    (moduleInit failsPending cacheError).AllReports FrameReport.Lawful := by
  intro report hreport
  obtain rfl := List.mem_singleton.mp hreport
  have hheld : (moduleInit failsPending cacheError).state.jmp .global =
      some ⟨.minit, .global, 0⟩ := by
    simp [moduleInit]
  cases cacheError with
  | none =>
      exact ⟨fun _ => iff_of_true ⟨.global, trivial, hheld⟩ (.inl rfl),
        fun _ hgiven => by simp at hgiven⟩
  | some error =>
      exact ⟨fun _ => iff_of_true ⟨.global, trivial, hheld⟩ (.inl rfl),
        fun _ hgiven => by simp at hgiven⟩

theorem runProcess_lawful (failsPending : Bool)
    (cacheError : Option OwnError)
    (script : UserCode) :
    (runProcess failsPending cacheError script).1.AllReports
      FrameReport.Lawful :=
  releaseRelation_respected.runUserCode script
    (moduleInit failsPending cacheError)
    (moduleInit_consistent failsPending cacheError)
    (moduleInit_lawful failsPending cacheError)

/-! ## Dangling buffers -/

/-- A function which returns leaves its buffer in the slot of a context which
is still alive if it is module initialisation or `compile`, whatever has
happened under it, and otherwise never. -/
theorem handler_released_iff (failsPending : Bool)
    (cacheError : Option OwnError)
    (script : UserCode) :
    ∀ report ∈ (runProcess failsPending cacheError script).1.reports,
      report.ended.exit = none →
      ((∀ context, report.after.Alive context →
          report.after.jmp context ≠ some report.buf) ↔
        report.buf.owner ≠ .minit ∧ report.buf.owner ≠ .compile) := by
  intro report hreport hreturned
  have hrule :=
    (runProcess_lawful failsPending cacheError script report hreport).slot
      hreturned
  simpa [FrameReport.Dangles, Owner.LeavesBuffer] using not_congr hrule

theorem handler_released_iff_loaded_render :
    ∃ report ∈ (runProcess false none (.call (.render .loaded .finish none none
        .finish) fun _ => .ret .null)).1.reports,
      report.buf.owner = .render ∧
        ∀ context, report.after.Alive context →
          report.after.jmp context ≠ some report.buf := by
  refine ⟨_, .tail _ (.head _), rfl, ?_⟩
  exact (handler_released_iff false none
    (.call (.render .loaded .finish none none .finish) fun _ => .ret .null)
    _ (.tail _ (.head _)) rfl).mpr ⟨by decide, by decide⟩

def compileOnce : UserCode :=
  .call (.vmCompile .finish none) fun _ => .ret .null

/-- Both leave it when nothing goes wrong. -/
theorem compile_leaves_buffer :
    (∃ report ∈ (runProcess false none compileOnce).1.reports,
      report.buf.owner = .minit ∧ report.ended.exit = none ∧
        report.Dangles) ∧
    (∃ report ∈ (runProcess false none compileOnce).1.reports,
      report.buf.owner = .compile ∧ report.ended.exit = none ∧
        report.Dangles) := by
  constructor
  · exact ⟨_, .head _, rfl, rfl, .global, trivial, rfl⟩
  · exact ⟨_, .tail _ (.head _), rfl, rfl, .call 0,
      ⟨Nat.zero_lt_one, rfl⟩, rfl⟩

end PhpHandlebars
