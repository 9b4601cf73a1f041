import PhpHandlebars.ErrorHandlerRun
import Mathlib.Tactic

/-!
# Exceptions of user code

User code runs while no exception is pending, and whatever it throws into a
frame is pending until the frame ends.  It is replaced only by an error of the
library's own which was raised over it, or, where PHP reports a helper which
is called over it as a failure, by the exception about that.
-/

namespace PhpHandlebars

/-- Every exception which user code has thrown is the pending one. -/
def EscapedPending (escaped : List Exception)
    (pending : Option Exception) : Prop :=
  ∀ exception ∈ escaped, pending = some exception

/-- No error of the library's own is raised over a pending exception, and no
helper is refused because of one. -/
structure RaisedOverNone (raised : List Raised) (refused : List Exception) :
    Prop where
  own : ∀ error ∈ raised, error.pending ≠ none → error.error.num = .external
  refused : refused = []

def FrameReport.KeepsException (report : FrameReport) : Prop :=
  report.ended.exit = none →
    (EscapedPending report.escaped report.after.pending ↔
      RaisedOverNone report.raised report.refused)

/-- What user code has thrown into the frame is the pending exception, and
no error has been raised. -/
structure Frame.Tracked (frame : Frame) : Prop where
  escaped : frame.escaped = frame.run.state.pending.toList
  raised : frame.raised = []
  refused : frame.refused = []

inductive Frame.Threw (frame : Frame) (error : LibError) : Prop where
  | through (hescaped : frame.escaped = []) (hraised : frame.raised = [])
      (hrefused : frame.refused = [])
  | own (raised : Raised) (hraised : frame.raised = [raised])
      (herror : raised.error = error)
      (hpending : raised.pending = frame.run.state.pending)
      (hescaped : frame.escaped = frame.run.state.pending.toList)
      (hrefused : frame.refused = [])
  /-- the exception of a refused helper is pending now -/
  | refused (exception : Exception) (hescaped : exception ∈ frame.escaped)
      (hlost : frame.run.state.pending ≠ some exception)
      (hrefused : frame.refused ≠ []) (hnum : error.num = .external)

def Frame.Stops (frame : Frame) : Option Exit → Prop
  | none => frame.Tracked
  | some (.jumped _ error) => frame.Threw error
  | some .crashed => True

/-- What the end of a frame needs. -/
def Frame.Settles (frame : Frame) : Option Exit → Prop
  | none => EscapedPending frame.escaped frame.run.state.pending ↔
      RaisedOverNone frame.raised frame.refused
  | some exit => frame.Stops (some exit)

theorem escapedPending_toList (pending : Option Exception) :
    EscapedPending pending.toList pending := by
  intro exception hexception
  simpa using hexception

theorem raisedOverNone_nil : RaisedOverNone [] [] :=
  ⟨by simp, rfl⟩

theorem Frame.Stops.settles {frame : Frame} {exit : Option Exit}
    (hstops : frame.Stops exit) : frame.Settles exit := by
  cases exit with
  | none =>
      apply iff_of_true
      · rw [hstops.escaped]
        exact escapedPending_toList _
      · rw [hstops.raised, hstops.refused]
        exact raisedOverNone_nil
  | some exit => exact hstops

theorem Frame.Tracked.throw {frame : Frame} (htracked : frame.Tracked)
    (context : Option Context) (error : LibError) :
    (frame.throw context error).1.Stops
      (some (frame.throw context error).2) := by
  have hown : (frame.throw context error).1.Threw error :=
    .own _ (by simp [Frame.throw, htracked.raised]; rfl) rfl rfl
      htracked.escaped htracked.refused
  cases htarget : context.bind frame.run.state.jmp with
  | none => simp [Frame.throw, htarget, Frame.Stops]
  | some buf => simpa [Frame.throw, htarget, Frame.Stops] using hown

theorem phpHandlebarsThrow_eq_pending_iff
    (cls : ExceptionClass) (error : LibError) (exception : Exception) :
    phpHandlebarsThrow cls error (some exception) = some exception ↔
      error.num = .external := by
  unfold phpHandlebarsThrow
  split
  next hown => exact iff_of_false (zendThrowException_ne_pending _ _ _ _) hown
  next hexternal => exact iff_of_true rfl (by simpa using hexternal)

theorem Frame.Threw.kept {frame : Frame} {error : LibError}
    (hthrew : frame.Threw error) (cls : ExceptionClass) :
    EscapedPending frame.escaped
        (phpHandlebarsThrow cls error frame.run.state.pending) ↔
      RaisedOverNone frame.raised frame.refused := by
  cases hthrew with
  | through hescaped hraised hrefused =>
      rw [hescaped, hraised, hrefused]
      exact iff_of_true (by simp [EscapedPending]) raisedOverNone_nil
  | own raised hraised herror hpending hescaped hrefused =>
      rw [hescaped, hraised, hrefused]
      subst herror
      have hone : RaisedOverNone [raised] [] ↔
          (raised.pending ≠ none → raised.error.num = .external) :=
        ⟨fun hnone => hnone.own raised (.head _),
          fun hnum => ⟨by simpa using hnum, rfl⟩⟩
      rw [hone, hpending]
      cases hold : frame.run.state.pending with
      | none => simp [EscapedPending]
      | some exception =>
          simpa [EscapedPending] using
            phpHandlebarsThrow_eq_pending_iff cls raised.error exception
  | refused exception hescaped hlost hrefused hnum =>
      refine iff_of_false (fun hkept => hlost ?_)
        fun hnone => hrefused hnone.refused
      have hpending := hkept exception hescaped
      rwa [phpHandlebarsThrow, if_neg (not_not_intro hnum)] at hpending

theorem Closes.keeps {buf : JmpBuf} {cls : ExceptionClass}
    {done : ErrorState → ErrorState} {after : ErrorState}
    {frame : Frame} {exit : Option Exit} {ended : FrameEnd}
    (hcloses : Closes buf cls done frame.run.state exit after ended)
    (hdone : ∀ state, (done state).pending = state.pending)
    (hsettles : frame.Settles exit)
    (arguments : Option OptionsArguments) (before : ErrorState)
    (reports : List FrameReport) :
    (frame.report buf arguments before after ended).KeepsException ∧
      (Frame.mk ⟨after, reports⟩ frame.escaped frame.raised
        frame.refused).Settles ended.exit := by
  cases hcloses with
  | passed =>
      have hkept : EscapedPending frame.escaped
          (done frame.run.state).pending ↔
          RaisedOverNone frame.raised frame.refused := by
        rw [hdone]
        exact hsettles
      exact ⟨fun _ => hkept, hkept⟩
  | caught error =>
      have hkept : EscapedPending frame.escaped
          (done { frame.run.state with
            pending := phpHandlebarsThrow cls error
              frame.run.state.pending }).pending ↔
          RaisedOverNone frame.raised frame.refused := by
        rw [hdone]
        exact Frame.Threw.kept hsettles cls
      exact ⟨fun _ => hkept, hkept⟩
  | left exit hother =>
      refine ⟨fun hended => by simp [Frame.report, FrameEnd.exit] at hended, ?_⟩
      cases exit with
      | crashed => trivial
      | jumped target error =>
          change Frame.Threw _ error
          cases hsettles with
          | through hescaped hraised hrefused =>
              exact .through hescaped hraised hrefused
          | own raised hraised herror hpending hescaped hrefused =>
              exact .own raised hraised herror hpending hescaped hrefused
          | refused exception hescaped hlost hrefused hnum =>
              exact .refused exception hescaped hlost hrefused hnum

/-! ## Runs -/

/-- User code is entered while nothing is pending, and nothing is pending when
it returns; what it throws is pending after that. -/
def exceptionRelation : RunRelation where
  program _ frame out := frame.Tracked →
    frame.run.AllReports FrameReport.KeepsException →
      out.1.run.AllReports FrameReport.KeepsException ∧ out.1.Stops out.2
  userCode run out := run.state.pending = none →
    run.AllReports FrameReport.KeepsException →
      out.1.AllReports FrameReport.KeepsException ∧
        (out.2.exit = none → out.1.state.pending = none)
  entry run out := run.state.pending = none →
    run.AllReports FrameReport.KeepsException →
      out.1.AllReports FrameReport.KeepsException

theorem Frame.Returns.tracked {userCode : RunsUserCode}
    {frame back : Frame}
    (hrun : ∀ run, exceptionRelation.userCode run (userCode run))
    (hback : frame.Returns userCode back) (htracked : frame.Tracked)
    (hreports : frame.run.AllReports FrameReport.KeepsException) :
    back.run.AllReports FrameReport.KeepsException ∧ back.Tracked := by
  cases hback with
  | skipped hpending => exact ⟨hreports, htracked⟩
  | ret hpending run value hreturned =>
      have hcode := hrun frame.run hpending hreports
      rw [hreturned] at hcode
      refine ⟨hcode.1, ⟨?_, htracked.raised, htracked.refused⟩⟩
      change frame.escaped = run.state.pending.toList
      rw [htracked.escaped, hpending, hcode.2 rfl]
  | threw hpending run exception hthrown =>
      have hcode := hrun frame.run hpending hreports
      rw [hthrown] at hcode
      refine ⟨hcode.1, ⟨?_, htracked.raised, htracked.refused⟩⟩
      change frame.escaped ++ [exception] = [exception]
      rw [htracked.escaped, hpending]
      rfl

/-- The exception of a helper which PHP has refused is raised as an external
error, over the one of the user. -/
theorem Frame.Tracked.refused_threw {frame : Frame}
    (htracked : frame.Tracked) {exception : Exception}
    (hpending : frame.run.state.pending = some exception)
    (message : String) (context : Option Context) :
    ((frame.refuse exception message).throw context externalError).1.Stops
      (some ((frame.refuse exception message).throw context
        externalError).2) := by
  have hescaped : exception ∈ frame.escaped := by
    rw [htracked.escaped, hpending]
    exact .head _
  have hlost : zendThrowException .exception message (.other 0)
      (some exception) ≠ some exception :=
    zendThrowException_ne_pending _ _ _ _
  have hrefused : frame.refused ++ [exception] ≠ [] := by simp
  cases htarget : context.bind (frame.refuse exception message).run.state.jmp
  · simp [Frame.throw, htarget, Frame.Stops]
  · simp only [Frame.throw, htarget, Frame.Stops]
    exact .refused exception hescaped hlost hrefused rfl

theorem callHandler_tracked {kind : HandlerKind} {userCode : RunsUserCode}
    {next : Option Zval → RunsProgram}
    (hrun : ∀ run, exceptionRelation.userCode run (userCode run))
    (hnext : ∀ value buf frame,
      exceptionRelation.program buf frame (next value buf frame))
    (buf : JmpBuf) (frame : Frame) :
    exceptionRelation.program buf frame
      (callHandler kind userCode next buf frame) := by
  intro htracked hreports
  have houtcome := callHandler_outcome kind userCode next buf frame
  generalize callHandler kind userCode next buf frame = out at houtcome ⊢
  cases houtcome with
  | left hpending run exit hleft =>
      have hcode := hrun frame.run hpending hreports
      rw [hleft] at hcode
      refine ⟨hcode.1, ?_⟩
      cases exit with
      | crashed => trivial
      | jumped target error =>
          refine Frame.Threw.through ?_ htracked.raised htracked.refused
          change frame.escaped = []
          rw [htracked.escaped, hpending]
          rfl
  | failed back hback raisedOn error herror =>
      obtain ⟨hreports', htracked'⟩ := hback.tracked hrun htracked hreports
      exact ⟨hreports', htracked'.throw raisedOn error⟩
  | continued back hback result =>
      obtain ⟨hreports', htracked'⟩ := hback.tracked hrun htracked hreports
      exact hnext result buf back htracked' hreports'
  | refused exception hpending message =>
      exact ⟨hreports, htracked.refused_threw hpending message _⟩
  | crashed exception hpending => exact ⟨hreports, trivial⟩

theorem newBuf_tracked {run entered : ErrorRun} {owner : Owner}
    {context : Context} {buf : JmpBuf} (hpending : run.state.pending = none)
    (hnew : run.newBuf owner context = (buf, entered)) :
    entered.frame.Tracked := by
  obtain ⟨rfl, rfl⟩ := Prod.mk.inj hnew
  refine ⟨?_, rfl, rfl⟩
  change [] = run.state.pending.toList
  rw [hpending]
  rfl

theorem Frame.Tracked.setjmp {frame : Frame} (htracked : frame.Tracked)
    (buf : JmpBuf) : (frame.setjmp buf).Tracked :=
  ⟨htracked.escaped, htracked.raised, htracked.refused⟩

theorem closeFrame_keeps {frame : Frame} {exit : Option Exit}
    (hsettles : frame.Settles exit)
    (hreports : frame.run.AllReports FrameReport.KeepsException)
    (buf : JmpBuf) (arguments : Option OptionsArguments)
    (before : ErrorState) (cls : ExceptionClass)
    (done : ErrorState → ErrorState)
    (hdone : ∀ state, (done state).pending = state.pending) :
    (closeFrame buf arguments before cls done frame exit).1.AllReports
      FrameReport.KeepsException := by
  obtain ⟨after, ended, hcloses, hreport⟩ :=
    closeFrame_closes buf arguments before cls done frame exit
  rw [hreport]
  exact hreports.append
    (hcloses.keeps hdone hsettles arguments before []).1 after

theorem setRegistry_keeps {destructors : RunsUserCode}
    (hrun : ∀ run, exceptionRelation.userCode run (destructors run))
    (partials : Bool) (vm : ℕ) (value : Zval) (run : ErrorRun) :
    exceptionRelation.entry run
      (run.setRegistry partials vm value destructors) := by
  intro hpending hreports
  obtain hcrash | ⟨owner, entered, buf, body, howner, hnew, hbody, hclose⟩ :=
    setRegistry_cases run partials vm value destructors
  · rw [hcrash]
    exact hreports
  rw [hclose]
  have hentered := newBuf_allReports hnew hreports
  have hstart := (newBuf_tracked hpending hnew).setjmp buf
  have hnone : (entered.frame.setjmp buf).run.state.pending = none :=
    (newBuf_pending hnew).trans hpending
  have hcode := hrun (entered.frame.setjmp buf).run hnone hentered
  have hframe : body.1.run.AllReports FrameReport.KeepsException ∧
      body.1.Stops body.2 := by
    cases hbody with
    | raised error hnum => exact ⟨hentered, hstart.throw _ _⟩
    | left run' exit hleft =>
        rw [hleft] at hcode
        refine ⟨hcode.1, ?_⟩
        cases exit with
        | crashed => trivial
        | jumped target error => exact .through rfl rfl rfl
    | ret run' value hreturned =>
        rw [hreturned] at hcode
        refine ⟨hcode.1, ⟨?_, rfl, rfl⟩⟩
        change [] = run'.state.pending.toList
        rw [hcode.2 rfl]
        rfl
    | threw run' exception hthrown =>
        rw [hthrown] at hcode
        exact ⟨hcode.1, ⟨rfl, rfl, rfl⟩⟩
  exact closeFrame_keeps hframe.2.settles hframe.1 _ _ _ _ _ fun _ => rfl

theorem CompileBody.keeps {configuration : RunsProgram} {buf : JmpBuf}
    {frame : Frame} {cls : ExceptionClass} {body : Frame × Option Exit}
    (hbody : CompileBody configuration buf frame cls body)
    (hrun : ∀ buf frame,
      exceptionRelation.program buf frame (configuration buf frame))
    (htracked : frame.Tracked)
    (hreports : frame.run.AllReports FrameReport.KeepsException) :
    body.1.run.AllReports FrameReport.KeepsException ∧
      body.1.Stops body.2 := by
  have hconfiguration := hrun buf frame htracked hreports
  cases hbody with
  | stopped back exit hback =>
      rw [hback] at hconfiguration
      exact hconfiguration
  | parsed back hback =>
      rw [hback] at hconfiguration
      exact ⟨hconfiguration.1, hconfiguration.2.setjmp buf⟩
  | failed back hback error =>
      rw [hback] at hconfiguration
      exact ⟨hconfiguration.1,
        (hconfiguration.2.setjmp buf).throw (some buf.context) error.error⟩

theorem compile_keeps {configuration : RunsProgram}
    (hrun : ∀ buf frame,
      exceptionRelation.program buf frame (configuration buf frame))
    {call : ℕ} {parsing : Option OwnError} {run run' : ErrorRun}
    {report : FrameReport} (hpending : run.state.pending = none)
    (hreports : run.AllReports FrameReport.KeepsException)
    (hcompile : run.compile call configuration parsing = (run', report)) :
    run'.AllReports FrameReport.KeepsException ∧
      (Frame.mk run' report.escaped report.raised report.refused).Settles
        report.ended.exit ∧
      (report.ended = .passed →
        report.escaped = run'.state.pending.toList) := by
  obtain ⟨entered, buf, cls, body, hnew, hbody, hclose⟩ :=
    compile_cases run call configuration parsing
  have hentered := newBuf_allReports hnew hreports
  obtain ⟨hframe, hstops⟩ := hbody.keeps hrun
    ((newBuf_tracked hpending hnew).setjmp buf) hentered
  have hafter := closeFrame_keeps hstops.settles hframe buf none run.state cls
    id fun _ => rfl
  obtain ⟨after, ended, hcloses, hreport⟩ := closeFrame_closes buf none
    run.state cls id body.1 body.2
  rw [← hclose, hcompile] at hafter
  rw [hreport, hcompile] at hclose
  obtain ⟨rfl, rfl⟩ := Prod.mk.inj hclose
  refine ⟨hafter, (hcloses.keeps (fun _ => rfl) hstops.settles none
    run.state _).2, fun hpassed => ?_⟩
  obtain rfl : ended = .passed := hpassed
  generalize body.2 = exit at hcloses hstops
  cases hcloses
  exact hstops.escaped

theorem vmCompile_keeps {configuration : RunsProgram}
    (hrun : ∀ buf frame,
      exceptionRelation.program buf frame (configuration buf frame))
    (parsing : Option OwnError) (run : ErrorRun) :
    exceptionRelation.entry run (run.vmCompile configuration parsing) := by
  intro hpending hreports
  obtain ⟨call, made, run', report, hcall, hcompile, hclose⟩ :=
    vmCompile_cases run configuration parsing
  have hnone := (newCall_pending hcall).trans hpending
  have hkept := (compile_keeps hrun hnone (newCall_allReports hcall hreports)
    hcompile).1
  obtain hclose | ⟨-, hclose⟩ := hclose <;> rw [hclose] <;> exact hkept

theorem ExecuteBody.keeps {execution : RunsProgram} {buf : JmpBuf}
    {frame : Frame} {body : Frame × Option Exit}
    (hbody : ExecuteBody execution buf frame body)
    (hrun : ∀ buf frame,
      exceptionRelation.program buf frame (execution buf frame))
    (htracked : frame.Tracked)
    (hreports : frame.run.AllReports FrameReport.KeepsException) :
    body.1.run.AllReports FrameReport.KeepsException ∧
      body.1.Stops body.2 := by
  cases hbody with
  | raised error hnum => exact ⟨hreports, htracked.throw _ _⟩
  | executed => exact hrun buf frame htracked hreports

theorem RenderBody.keeps {configuration execution : RunsProgram}
    {parsing : Option OwnError} {buf : JmpBuf} {call : ℕ}
    {entered : ErrorRun} {body : Frame × Option Exit}
    (hbody : RenderBody configuration parsing execution buf call entered body)
    (hconfiguration : ∀ buf frame,
      exceptionRelation.program buf frame (configuration buf frame))
    (hexecution : ∀ buf frame,
      exceptionRelation.program buf frame (execution buf frame))
    (hpending : entered.state.pending = none)
    (hreports : entered.AllReports FrameReport.KeepsException) :
    body.1.run.AllReports FrameReport.KeepsException ∧
      body.1.Settles body.2 := by
  cases hbody with
  | failed pending =>
      exact ⟨hreports, iff_of_true (by simp [EscapedPending, ErrorRun.frame])
        raisedOverNone_nil⟩
  | loaded body hbody =>
      have hframe := hbody.keeps hexecution
        ⟨by simp [executionFrame, Frame.setjmp, ErrorState.install,
          ErrorState.execute, hpending], rfl, rfl⟩ hreports
      exact ⟨hframe.1, hframe.2.settles⟩
  | stopped run report hrun hended =>
      obtain ⟨hkept, hsettles, -⟩ :=
        compile_keeps hconfiguration hpending hreports hrun
      exact ⟨hkept, hsettles⟩
  | compiled run report hrun hended body hbody =>
      obtain ⟨hkept, -, hescaped⟩ :=
        compile_keeps hconfiguration hpending hreports hrun
      have hframe := hbody.keeps hexecution ⟨hescaped hended, rfl, rfl⟩
        hkept
      exact ⟨hframe.1, hframe.2.settles⟩

theorem render_keeps {configuration execution : RunsProgram}
    (hconfiguration : ∀ buf frame,
      exceptionRelation.program buf frame (configuration buf frame))
    (hexecution : ∀ buf frame,
      exceptionRelation.program buf frame (execution buf frame))
    (start : RenderStart) (parsing : Option OwnError)
    (context : Option Zval) (run : ErrorRun) :
    exceptionRelation.entry run
      (run.render start configuration parsing context execution) := by
  intro hpending hreports
  obtain ⟨call, made, buf, entered, body, hcall, hnew, hbody, hclose⟩ :=
    render_cases run start configuration parsing context execution
  have hentered := newBuf_allReports hnew (newCall_allReports hcall hreports)
  have hnone : entered.state.pending = none := by
    rw [newBuf_pending hnew, newCall_pending hcall, hpending]
  obtain ⟨hframe, hsettles⟩ := hbody.keeps hconfiguration hexecution hnone
    hentered
  rw [hclose]
  exact closeFrame_keeps hsettles hframe buf none run.state .runtimeException
    (fun state => state.free call) fun _ => rfl

theorem optionsCall_keeps {program : RunsProgram}
    (hrun : ∀ buf frame,
      exceptionRelation.program buf frame (program buf frame))
    (call : ℕ) (programGuid : ℤ) (arguments : OptionsArguments)
    (run : ErrorRun) :
    exceptionRelation.entry run
      (run.optionsCall call programGuid arguments program) := by
  intro hpending hreports
  have houtcome := optionsCall_outcome run call programGuid arguments program
  generalize run.optionsCall call programGuid arguments program = out
    at houtcome ⊢
  cases houtcome with
  | unset pending => exact hreports
  | noProgram => exact hreports
  | unconverted hexecuting error hconvert buf entered hnew =>
      have hentered := newBuf_allReports hnew hreports
      have hstops := (newBuf_tracked hpending hnew).throw
        (some buf.context) error
      exact closeFrame_keeps hstops.settles hentered buf (some arguments)
        run.state .runtimeException id fun _ => rfl
  | called hexecuting hconvert buf entered hnew =>
      have hentered := newBuf_allReports hnew hreports
      have hframe := hrun buf (entered.frame.setjmp buf)
        ((newBuf_tracked hpending hnew).setjmp buf) hentered
      exact closeFrame_keeps hframe.2.settles hframe.1 buf (some arguments)
        run.state .runtimeException
        (ErrorRun.restoreJmp buf (entered.state.jmp buf.context))
        fun _ => rfl

theorem exceptionRelation_respected : exceptionRelation.Respected where
  finish _ _ htracked hreports := ⟨hreports, htracked⟩
  raise _ _ _ htracked hreports := ⟨hreports, htracked.throw _ _⟩
  handler _ _ _ hrun hnext := callHandler_tracked hrun hnext
  ret _ _ hpending hreports := ⟨hreports, fun _ => hpending⟩
  threw _ _ hpending hreports := ⟨hreports, fun _ => hpending⟩
  call entry next hentry hnext run := by
    intro hpending hreports
    have hserved := hentry run hpending hreports
    unfold callEntry
    cases hrun : runEntry entry run with
    | mk run' exit =>
        rw [hrun] at hserved
        cases exit with
        | some exit => exact ⟨hserved, by simp [UserCodeEnd.exit]⟩
        | none =>
            exact hnext run'.state.pending (run'.setPending none) rfl hserved
  newVm _ _ hreports := hreports
  setRegistry partials vm value _ hrun :=
    setRegistry_keeps hrun partials vm value
  vmCompile _ parsing hrun := vmCompile_keeps hrun parsing
  render start _ parsing context _ hconfiguration hexecution :=
    render_keeps hconfiguration hexecution start parsing context
  optionsCall call programGuid arguments _ hrun :=
    optionsCall_keeps hrun call programGuid arguments

theorem moduleInit_keeps (failsPending : Bool)
    (cacheError : Option OwnError) :
    (moduleInit failsPending cacheError).AllReports
      FrameReport.KeepsException := by
  intro report hreport _
  obtain rfl := List.mem_singleton.mp hreport
  refine iff_of_true ?_ ?_
  · cases cacheError <;> simp [EscapedPending]
  · cases cacheError <;> exact ⟨by simp, rfl⟩

/-! ## The pending exception -/

/-- A template which reads a property of an `ArrayAccess` object whose methods
throw, and goes on. -/
def throwingLookup (rest : Program) : UserCode :=
  .call (.render .loaded .finish none none
    (.handler .mapFind (.throw (.user 0)) fun _ => rest)) fun _ => .ret .null

/-- It goes on with a helper which is there, but which PHP 7 does not call. -/
example :
    ∃ report ∈ (runProcess true none (throwingLookup
        (.handler (.call closure) (.ret .null) fun _ =>
          .finish))).1.reports,
      report.after.pending = some (.chained .exception
        "Could not execute Closure::__construct()" (.other 0) (.user 0)) :=
  ⟨_, .tail _ (.head _), rfl⟩

end PhpHandlebars
