import PhpHandlebars.ErrorHandler
import Mathlib.Tactic

/-!
# Rules for runs with error handlers

A fact about runs is three relations, for library code, for user code and for
calls of the extension.  The induction over the trees is done here once; what
remains of a fact is one lemma for each kind of node, about the ways its
function can go.
-/

namespace PhpHandlebars

def UserCodeEnd.exit : UserCodeEnd → Option Exit
  | .left exit => some exit
  | _ => none

/-- What is said of each kind of run, between its start and its end. -/
structure RunRelation where
  program : JmpBuf → Frame → Frame × Option Exit → Prop
  userCode : ErrorRun → ErrorRun × UserCodeEnd → Prop
  entry : ErrorRun → ErrorRun × Option Exit → Prop

structure RunRelation.Respected (R : RunRelation) : Prop where
  finish : ∀ buf frame, R.program buf frame (frame, none)
  raise : ∀ buf error frame,
    R.program buf frame (raiseError buf error frame)
  handler : ∀ (kind : HandlerKind) (userCode : UserCode)
      (next : Option Zval → Program),
    (∀ run, R.userCode run (runUserCode userCode run)) →
    (∀ value buf frame,
      R.program buf frame (runProgram (next value) buf frame)) →
    ∀ buf frame, R.program buf frame
      (callHandler kind (runUserCode userCode)
        (fun value => runProgram (next value)) buf frame)
  ret : ∀ value run, R.userCode run (run, .ret value)
  threw : ∀ exception run, R.userCode run (run, .threw exception)
  call : ∀ (entry : Entry) (next : Option Exception → UserCode),
    (∀ run, R.entry run (runEntry entry run)) →
    (∀ pending run,
      R.userCode run (runUserCode (next pending) run)) →
    ∀ run, R.userCode run
      (callEntry (runEntry entry)
        (fun pending => runUserCode (next pending)) run)
  newVm : ∀ run, R.entry run (run.newVm, none)
  setRegistry : ∀ partials vm value destructors,
    (∀ run, R.userCode run (runUserCode destructors run)) →
    ∀ run, R.entry run
      (run.setRegistry partials vm value (runUserCode destructors))
  vmCompile : ∀ configuration parsing,
    (∀ buf frame,
      R.program buf frame (runProgram configuration buf frame)) →
    ∀ run, R.entry run
      (run.vmCompile (runProgram configuration) parsing)
  render : ∀ start configuration parsing context execution,
    (∀ buf frame,
      R.program buf frame (runProgram configuration buf frame)) →
    (∀ buf frame,
      R.program buf frame (runProgram execution buf frame)) →
    ∀ run, R.entry run
      (run.render start (runProgram configuration) parsing context
        (runProgram execution))
  optionsCall : ∀ call programGuid arguments program,
    (∀ buf frame, R.program buf frame (runProgram program buf frame)) →
    ∀ run, R.entry run
      (run.optionsCall call programGuid arguments (runProgram program))

namespace RunRelation.Respected

variable {R : RunRelation}

mutual

theorem runProgram (hR : R.Respected) : ∀ (program : Program)
    (buf : JmpBuf) (frame : Frame),
    R.program buf frame (PhpHandlebars.runProgram program buf frame)
  | .finish => hR.finish
  | .raise error => fun buf frame => hR.raise buf error frame
  | .handler kind userCode next => by
      simp only [PhpHandlebars.runProgram]
      exact hR.handler kind userCode next
        (runUserCode hR userCode) fun value => runProgram hR (next value)

theorem runUserCode (hR : R.Respected) : ∀ (userCode : UserCode)
    (run : ErrorRun),
    R.userCode run (PhpHandlebars.runUserCode userCode run)
  | .ret value => hR.ret value
  | .throw exception => hR.threw exception
  | .call entry next => by
      simp only [PhpHandlebars.runUserCode]
      exact hR.call entry next (runEntry hR entry)
        fun pending => runUserCode hR (next pending)

theorem runEntry (hR : R.Respected) : ∀ (entry : Entry) (run : ErrorRun),
    R.entry run (PhpHandlebars.runEntry entry run)
  | .newVm => hR.newVm
  | .setRegistry partials vm value destructors => by
      simp only [PhpHandlebars.runEntry]
      exact hR.setRegistry partials vm value destructors
        (runUserCode hR destructors)
  | .vmCompile configuration parsing => by
      simp only [PhpHandlebars.runEntry]
      exact hR.vmCompile configuration parsing
        (runProgram hR configuration)
  | .render start configuration parsing context execution => by
      simp only [PhpHandlebars.runEntry]
      exact hR.render start configuration parsing context execution
        (runProgram hR configuration) (runProgram hR execution)
  | .optionsCall call programGuid arguments program => by
      simp only [PhpHandlebars.runEntry]
      exact hR.optionsCall call programGuid arguments program
        (runProgram hR program)

end

end RunRelation.Respected

/-! ## One frame -/

@[simp] theorem ErrorState.install_self (state : ErrorState)
    (context : Context) (jmp : Option JmpBuf) :
    (state.install context jmp).jmp context = jmp := by
  simp [ErrorState.install]

theorem ErrorState.install_of_ne {context other : Context}
    (hother : other ≠ context) (state : ErrorState) (jmp : Option JmpBuf) :
    (state.install context jmp).jmp other = state.jmp other := by
  simp [ErrorState.install, hother]

/-- The ways a frame with its own buffer ends. -/
inductive Closes (buf : JmpBuf) (cls : ExceptionClass)
    (done : ErrorState → ErrorState) (state : ErrorState) :
    Option Exit → ErrorState → FrameEnd → Prop where
  | passed : Closes buf cls done state none (done state) .passed
  | caught (error : LibError) :
      Closes buf cls done state (some (.jumped buf error))
        (done { state with
          pending := phpHandlebarsThrow cls error state.pending })
        (.caught error)
  | left (exit : Exit) (hother : ∀ error, exit ≠ .jumped buf error) :
      Closes buf cls done state (some exit) state (.left exit)

def Frame.report (frame : Frame) (buf : JmpBuf)
    (arguments : Option OptionsArguments) (before after : ErrorState)
    (ended : FrameEnd) : FrameReport :=
  ⟨buf, arguments, before, after, frame.escaped, frame.raised, frame.refused,
    ended⟩

def ErrorRun.AllReports (run : ErrorRun) (P : FrameReport → Prop) : Prop :=
  ∀ report ∈ run.reports, P report

theorem ErrorRun.allReports_append {P : FrameReport → Prop}
    {run : ErrorRun} {report : FrameReport} {after : ErrorState} :
    (⟨after, run.reports ++ [report]⟩ : ErrorRun).AllReports P ↔
      run.AllReports P ∧ P report := by
  simp [ErrorRun.AllReports, or_imp, forall_and]

theorem ErrorRun.AllReports.append {P : FrameReport → Prop}
    {run : ErrorRun} {report : FrameReport} (hrun : run.AllReports P)
    (hreport : P report) (after : ErrorState) :
    (⟨after, run.reports ++ [report]⟩ : ErrorRun).AllReports P :=
  allReports_append.mpr ⟨hrun, hreport⟩

theorem ErrorRun.AllReports.of_append {P : FrameReport → Prop}
    {reports : List FrameReport} {report : FrameReport} {after : ErrorState}
    (hrun : (⟨after, reports ++ [report]⟩ : ErrorRun).AllReports P) :
    P report :=
  hrun report (List.mem_append_right _ (.head _))

theorem closeFrame_closes
    (buf : JmpBuf) (arguments : Option OptionsArguments)
    (before : ErrorState) (cls : ExceptionClass)
    (done : ErrorState → ErrorState) (frame : Frame) (exit : Option Exit) :
    ∃ after ended, Closes buf cls done frame.run.state exit after ended ∧
      closeFrame buf arguments before cls done frame exit =
        (⟨after, frame.run.reports ++
            [frame.report buf arguments before after ended]⟩,
          frame.report buf arguments before after ended) := by
  cases exit with
  | none => exact ⟨_, _, .passed, rfl⟩
  | some exit =>
      cases exit with
      | crashed => exact ⟨_, _, .left _ (by simp), rfl⟩
      | jumped target error =>
          by_cases htarget : target = buf
          · subst target
            exact ⟨_, _, .caught error, by simp [closeFrame, Frame.report]⟩
          · refine ⟨_, _, .left _ (by simpa using fun h => (htarget h).elim),
              by simp [closeFrame, Frame.report, htarget]⟩

inductive Frame.Returns (userCode : RunsUserCode) (frame : Frame) :
    Frame → Prop where
  | skipped (hpending : frame.run.state.pending.isSome) :
      frame.Returns userCode frame
  | ret (hpending : frame.run.state.pending = none) (run : ErrorRun)
      (value : Zval) (hrun : userCode frame.run = (run, .ret value)) :
      frame.Returns userCode { frame with run := run }
  | threw (hpending : frame.run.state.pending = none) (run : ErrorRun)
      (exception : Exception)
      (hrun : userCode frame.run = (run, .threw exception)) :
      frame.Returns userCode
        { frame with
          run := run.setPending (some exception)
          escaped := frame.escaped ++ [exception] }

inductive HandlerError (context : Context) (pending : Option Exception) :
    Option Context → LibError → Prop where
  | value (error : LibError) (hnum : error.num = .error) :
      HandlerError context pending (some context) error
  | external (hpending : pending.isSome) :
      HandlerError context pending (some context) externalError
  | lookup (error : LibError) (hnum : error.num = .error) :
      HandlerError context pending none error

theorem handlerReturn_cases (kind : HandlerKind) (context : Context)
    (value : Zval) (frame : Frame) :
    (∃ result, handlerReturn kind context value frame =
        (frame, .ok result)) ∨
      ∃ raisedOn error,
        HandlerError context frame.run.state.pending raisedOn error ∧
        handlerReturn kind context value frame =
          frame.fail raisedOn error := by
  have hlookup : (∃ result, handlerReturn .mapFind context value frame =
        (frame, .ok result)) ∨
      ∃ raisedOn error,
        HandlerError context frame.run.state.pending raisedOn error ∧
        handlerReturn .mapFind context value frame =
          frame.fail raisedOn error := by
    unfold handlerReturn
    by_cases hpending : frame.run.state.pending.isSome
    · exact .inl ⟨none, by simp [hpending]⟩
    · cases hconvert : handlebarsValueFromZval value .null with
      | ok converted => exact .inl ⟨some value, by simp [hpending]⟩
      | error error =>
          exact .inr ⟨none, error,
            .lookup error (handlebarsValueFromZval_num hconvert),
            by simp [hpending]⟩
  cases kind with
  | call callable =>
      unfold handlerReturn
      cases hconvert : handlebarsValueFromZval value .null with
      | error error =>
          exact .inr ⟨_, _,
            .value error (handlebarsValueFromZval_num hconvert), rfl⟩
      | ok converted =>
          by_cases hpending : frame.run.state.pending.isSome
          · exact .inr ⟨_, _, .external hpending, by simp [hpending]⟩
          · exact .inl ⟨some value, by simp [hpending]⟩
  | count => exact .inl ⟨_, rfl⟩
  | log => exact .inl ⟨_, rfl⟩
  | mapFind => exact hlookup
  | arrayFind => exact hlookup
  | iterate => exact hlookup

/-- How library code goes on from a value handler. -/
inductive HandlerOutcome (userCode : RunsUserCode)
    (next : Option Zval → RunsProgram) (buf : JmpBuf) (frame : Frame) :
    Frame × Option Exit → Prop where
  | left (hpending : frame.run.state.pending = none) (run : ErrorRun)
      (exit : Exit) (hrun : userCode frame.run = (run, .left exit)) :
      HandlerOutcome userCode next buf frame
        ({ frame with run := run }, some exit)
  | failed (back : Frame) (hback : frame.Returns userCode back)
      (raisedOn : Option Context) (error : LibError)
      (herror : HandlerError buf.context back.run.state.pending raisedOn
        error) :
      HandlerOutcome userCode next buf frame
        ((back.throw raisedOn error).1, some (back.throw raisedOn error).2)
  | continued (back : Frame) (hback : frame.Returns userCode back)
      (result : Option Zval) :
      HandlerOutcome userCode next buf frame (next result buf back)
  | refused (exception : Exception)
      (hpending : frame.run.state.pending = some exception)
      (message : String) :
      HandlerOutcome userCode next buf frame
        (((frame.refuse exception message).throw (some buf.context)
            externalError).1,
          some ((frame.refuse exception message).throw (some buf.context)
            externalError).2)
  | crashed (exception : Exception)
      (hpending : frame.run.state.pending = some exception) :
      HandlerOutcome userCode next buf frame
        ({ frame with refused := frame.refused ++ [exception] },
          some .crashed)

/-- Behind a helper which PHP has refused to call there is nothing to convert,
but an exception is pending. -/
theorem handlerReturn_refused (callable : Callable) (context : Context)
    (frame : Frame) (exception : Exception) (message : String) :
    handlerReturn (.call callable) context .undef
        (frame.refuse exception message) =
      (frame.refuse exception message).fail (some context)
        externalError := rfl

/-- With an exception pending, the user code is passed over, or the handler of
helpers fails. -/
theorem callFails_cases (frame : Frame) (exception : Exception)
    (kind : HandlerKind) :
    frame.callFails exception kind = (frame, .ok .undef) ∨
      (∃ callable message, kind = .call callable ∧
        frame.callFails exception kind =
          (frame.refuse exception message, .ok .undef)) ∨
      frame.callFails exception kind =
        ({ frame with refused := frame.refused ++ [exception] },
          .error .crashed) := by
  cases kind with
  | call callable =>
      unfold Frame.callFails
      dsimp only
      split
      next =>
        cases callable.constructor with
        | none => exact .inr (.inr rfl)
        | some name => exact .inr (.inl ⟨callable, _, rfl, rfl⟩)
      next => exact .inl rfl
  | _ => exact .inl rfl

theorem callHandler_outcome (kind : HandlerKind) (userCode : RunsUserCode)
    (next : Option Zval → RunsProgram) (buf : JmpBuf) (frame : Frame) :
    HandlerOutcome userCode next buf frame
      (callHandler kind userCode next buf frame) := by
  have hback : ∀ back value, frame.Returns userCode back →
      frame.reach kind userCode = (back, .ok value) →
      HandlerOutcome userCode next buf frame
        (callHandler kind userCode next buf frame) := by
    intro back value hreturns hreached
    unfold callHandler
    simp only [hreached]
    obtain ⟨result, hresult⟩ | ⟨raisedOn, error, herror, hresult⟩ :=
      handlerReturn_cases kind buf.context value back
    · rw [hresult]
      exact .continued back hreturns result
    · rw [hresult]
      exact .failed back hreturns raisedOn error herror
  cases hpending : frame.run.state.pending with
  | some exception =>
      have hreach : frame.reach kind userCode =
          frame.callFails exception kind := by
        rw [Frame.reach, hpending]
      obtain hskipped | ⟨callable, message, rfl, hrefused⟩ | hcrashed :=
        callFails_cases frame exception kind
      · exact hback frame .undef (.skipped (by simp [hpending]))
          (hreach.trans hskipped)
      · have hfails : callHandler (.call callable) userCode next buf frame =
            (((frame.refuse exception message).throw (some buf.context)
                externalError).1,
              some ((frame.refuse exception message).throw
                (some buf.context) externalError).2) := by
          simp only [callHandler, hreach, hrefused, handlerReturn_refused]
          rfl
        rw [hfails]
        exact .refused exception hpending message
      · have hfails : callHandler kind userCode next buf frame =
            ({ frame with refused := frame.refused ++ [exception] },
              some .crashed) := by
          simp only [callHandler, hreach, hcrashed]
        rw [hfails]
        exact .crashed exception hpending
  | none =>
      have hreach : frame.reach kind userCode =
          frame.returnFrom (userCode frame.run) := by
        rw [Frame.reach, hpending]
      cases hrun : userCode frame.run with
      | mk run ended =>
          cases ended with
          | ret value =>
              exact hback _ value (.ret hpending run value hrun)
                (by simp [hreach, hrun, Frame.returnFrom])
          | threw exception =>
              exact hback _ .undef (.threw hpending run exception hrun)
                (by simp [hreach, hrun, Frame.returnFrom])
          | left exit =>
              have hleft : callHandler kind userCode next buf frame =
                  ({ frame with run := run }, some exit) := by
                simp [callHandler, hreach, hrun, Frame.returnFrom]
              rw [hleft]
              exact .left hpending run exit hrun

/-! ## Entry points -/

inductive RegistryBody (destructors : RunsUserCode) (buf : JmpBuf)
    (frame : Frame) : Frame × Option Exit → Prop where
  | raised (error : LibError) (hnum : error.num = .error) :
      RegistryBody destructors buf frame
        ((frame.throw (some buf.context) error).1,
          some (frame.throw (some buf.context) error).2)
  | left (run : ErrorRun) (exit : Exit)
      (hrun : destructors frame.run = (run, .left exit)) :
      RegistryBody destructors buf frame ({ frame with run := run }, some exit)
  | ret (run : ErrorRun) (value : Zval)
      (hrun : destructors frame.run = (run, .ret value)) :
      RegistryBody destructors buf frame ({ frame with run := run }, none)
  | threw (run : ErrorRun) (exception : Exception)
      (hrun : destructors frame.run = (run, .threw exception)) :
      RegistryBody destructors buf frame
        ({ frame with
          run := run.setPending (some exception)
          escaped := frame.escaped ++ [exception] }, none)

theorem setRegistry_cases (run : ErrorRun) (partials : Bool) (vm : ℕ)
    (value : Zval) (destructors : RunsUserCode) :
    run.setRegistry partials vm value destructors = (run, some .crashed) ∨
      ∃ owner entered buf body,
        (owner = .setHelpers ∨ owner = .setPartials) ∧
        run.newBuf owner (.vmObject vm) = (buf, entered) ∧
        RegistryBody destructors buf (entered.frame.setjmp buf) body ∧
        run.setRegistry partials vm value destructors =
          endEntry (closeFrame buf none run.state .runtimeException
            (ErrorRun.clearJmp buf) body.1 body.2) := by
  unfold ErrorRun.setRegistry
  split
  next => exact .inl rfl
  next =>
    have howner : (if partials then Owner.setPartials else .setHelpers) =
          .setHelpers ∨
        (if partials then Owner.setPartials else .setHelpers) =
          .setPartials := by
      cases partials <;> simp
    simp only
    generalize (if partials then Owner.setPartials
      else .setHelpers) = owner at howner ⊢
    cases hnew : run.newBuf owner (.vmObject vm) with
    | mk buf entered =>
        refine .inr ⟨owner, entered, buf, ?_⟩
        cases hconvert : handlebarsValueFromZval value .null with
        | error error =>
            exact ⟨_, howner, hnew,
              .raised error (handlebarsValueFromZval_num hconvert), rfl⟩
        | ok converted =>
            cases hrun : destructors (entered.frame.setjmp buf).run with
            | mk run' ended =>
                cases ended with
                | ret value =>
                    exact ⟨_, howner, hnew, .ret run' value hrun, rfl⟩
                | threw exception =>
                    exact ⟨_, howner, hnew, .threw run' exception hrun, rfl⟩
                | left exit =>
                    exact ⟨_, howner, hnew, .left run' exit hrun, rfl⟩

/-- The body of `compile`, and the class of its exceptions. -/
inductive CompileBody (configuration : RunsProgram) (buf : JmpBuf)
    (frame : Frame) : ExceptionClass → Frame × Option Exit → Prop where
  | stopped (back : Frame) (exit : Exit)
      (hrun : configuration buf frame = (back, some exit)) :
      CompileBody configuration buf frame .runtimeException
        (back, some exit)
  | parsed (back : Frame) (hrun : configuration buf frame = (back, none)) :
      CompileBody configuration buf frame .compileException
        (back.setjmp buf, none)
  | failed (back : Frame) (hrun : configuration buf frame = (back, none))
      (error : OwnError) :
      CompileBody configuration buf frame .compileException
        (raiseError buf error (back.setjmp buf))

theorem compile_cases (run : ErrorRun) (call : ℕ)
    (configuration : RunsProgram) (parsing : Option OwnError) :
    ∃ entered buf cls body,
      run.newBuf .compile (.call call) = (buf, entered) ∧
      CompileBody configuration buf (entered.frame.setjmp buf) cls body ∧
      run.compile call configuration parsing =
        closeFrame buf none run.state cls id body.1 body.2 := by
  unfold ErrorRun.compile
  generalize run.newBuf .compile (.call call) = made
  obtain ⟨buf, entered⟩ := made
  simp only
  cases hrun : configuration buf (entered.frame.setjmp buf) with
  | mk back exit =>
      cases exit with
      | some exit => exact ⟨_, _, _, _, rfl, .stopped back exit hrun, rfl⟩
      | none =>
          cases parsing with
          | none => exact ⟨_, _, _, _, rfl, .parsed back hrun, rfl⟩
          | some error =>
              exact ⟨_, _, _, _, rfl, .failed back hrun error, rfl⟩

theorem vmCompile_cases (run : ErrorRun) (configuration : RunsProgram)
    (parsing : Option OwnError) :
    ∃ call made run' report,
      run.newCall = (call, made) ∧
      made.compile call configuration parsing = (run', report) ∧
      (run.vmCompile configuration parsing = (run', report.ended.exit) ∨
        report.ended.exit = none ∧
          run.vmCompile configuration parsing =
            ({ run' with state := run'.state.free call }, none)) := by
  unfold ErrorRun.vmCompile
  cases hcall : run.newCall with
  | mk call made =>
      simp only
      cases hcompile : made.compile call configuration parsing with
      | mk run' report =>
          refine ⟨call, made, run', report, rfl, hcompile, ?_⟩
          cases hended : report.ended with
          | passed => exact .inr ⟨rfl, rfl⟩
          | caught error => exact .inr ⟨rfl, rfl⟩
          | left exit => exact .inl rfl

/-- What follows the conversion of an argument under a buffer. -/
inductive ExecuteBody (execution : RunsProgram) (buf : JmpBuf)
    (frame : Frame) : Frame × Option Exit → Prop where
  | raised (error : LibError) (hnum : error.num = .error) :
      ExecuteBody execution buf frame
        ((frame.throw (some buf.context) error).1,
          some (frame.throw (some buf.context) error).2)
  | executed : ExecuteBody execution buf frame (execution buf frame)

theorem convertArgument_num
    {value : Option Zval} {error : LibError}
    (herror : convertArgument value = .error error) :
    error.num = .error := by
  cases value with
  | none => simp [convertArgument, pure, Except.pure] at herror
  | some value =>
      cases hconvert : handlebarsValueFromZval value .null with
      | ok converted =>
          simp [convertArgument, hconvert, Except.map] at herror
      | error raised =>
          obtain rfl : raised = error := by
            simpa [convertArgument, hconvert, Except.map] using herror
          exact handlebarsValueFromZval_num hconvert

def executionFrame (buf : JmpBuf) (call : ℕ) (run : ErrorRun)
    (escaped : List Exception) : Frame :=
  let executing : ErrorRun := { run with state := run.state.execute call }
  (Frame.mk executing escaped [] []).setjmp buf

theorem executeModule_body (buf : JmpBuf) (call : ℕ)
    (context : Option Zval) (execution : RunsProgram) (run : ErrorRun)
    (escaped : List Exception) :
    ExecuteBody execution buf (executionFrame buf call run escaped)
      (ErrorRun.executeModule buf call context execution run escaped) := by
  unfold ErrorRun.executeModule
  cases hconvert : convertArgument (context.map Zval.deref) with
  | error error => exact .raised error (convertArgument_num hconvert)
  | ok converted => exact .executed

inductive RenderBody (configuration : RunsProgram)
    (parsing : Option OwnError) (execution : RunsProgram) (buf : JmpBuf)
    (call : ℕ) (entered : ErrorRun) : Frame × Option Exit → Prop where
  | failed (pending : Option Exception) :
      RenderBody configuration parsing execution buf call entered
        ((entered.setPending pending).frame, none)
  | loaded (body : Frame × Option Exit)
      (hbody : ExecuteBody execution buf
        (executionFrame buf call entered []) body) :
      RenderBody configuration parsing execution buf call entered body
  | stopped (run : ErrorRun) (report : FrameReport)
      (hcompile : entered.compile call configuration parsing =
        (run, report))
      (hended : report.ended ≠ .passed) :
      RenderBody configuration parsing execution buf call entered
        (⟨run, report.escaped, report.raised, report.refused⟩,
          report.ended.exit)
  | compiled (run : ErrorRun) (report : FrameReport)
      (hcompile : entered.compile call configuration parsing =
        (run, report))
      (hended : report.ended = .passed) (body : Frame × Option Exit)
      (hbody : ExecuteBody execution buf
        (executionFrame buf call run report.escaped) body) :
      RenderBody configuration parsing execution buf call entered body

theorem render_cases (run : ErrorRun) (start : RenderStart)
    (configuration : RunsProgram) (parsing : Option OwnError)
    (context : Option Zval) (execution : RunsProgram) :
    ∃ call made buf entered body,
      run.newCall = (call, made) ∧
      made.newBuf .render (.call call) = (buf, entered) ∧
      RenderBody configuration parsing execution buf call entered body ∧
      run.render start configuration parsing context execution =
        endEntry (closeFrame buf none run.state .runtimeException
          (fun state => state.free call) body.1 body.2) := by
  unfold ErrorRun.render
  cases hcall : run.newCall with
  | mk call made =>
      simp only
      cases hnew : made.newBuf .render (.call call) with
      | mk buf entered =>
          refine ⟨call, made, buf, entered, ?_⟩
          cases start with
          | failed cls message => exact ⟨_, rfl, hnew, .failed _, rfl⟩
          | loaded =>
              exact ⟨_, rfl, hnew,
                .loaded _ (executeModule_body buf call context execution
                  entered []), rfl⟩
          | compiled =>
              cases hcompile : entered.compile call configuration parsing with
              | mk run' report =>
                  cases hended : report.ended with
                  | passed =>
                      refine ⟨_, rfl, hnew,
                        .compiled run' report hcompile hended _
                          (executeModule_body buf call context execution
                            run' report.escaped), ?_⟩
                      simp only
                  | caught error =>
                      refine ⟨_, rfl, hnew, .stopped run' report hcompile
                        (by simp [hended]), ?_⟩
                      simp only [FrameEnd.exit, hended]
                  | left exit =>
                      refine ⟨_, rfl, hnew, .stopped run' report hcompile
                        (by simp [hended]), ?_⟩
                      simp [hended, FrameEnd.exit]

inductive OptionsOutcome (call : ℕ) (arguments : OptionsArguments)
    (program : RunsProgram) (run : ErrorRun) :
    ErrorRun × Option Exit → Prop where
  | unset (pending : Option Exception) :
      OptionsOutcome call arguments program run
        (run.setPending pending, none)
  | noProgram : OptionsOutcome call arguments program run (run, none)
  | unconverted (hexecuting : run.state.executing call = true)
      (error : LibError) (hconvert : arguments.convert = .error error)
      (buf : JmpBuf) (entered : ErrorRun)
      (hnew : run.newBuf .optionsCall (.call call) = (buf, entered)) :
      OptionsOutcome call arguments program run
        (endEntry (closeFrame buf (some arguments) run.state
          .runtimeException id
          (entered.frame.throw (some buf.context) error).1
          (some (entered.frame.throw (some buf.context) error).2)))
  | called (hexecuting : run.state.executing call = true)
      (hconvert : arguments.convert = .ok ())
      (buf : JmpBuf) (entered : ErrorRun)
      (hnew : run.newBuf .optionsCall (.call call) = (buf, entered)) :
      OptionsOutcome call arguments program run
        (endEntry (closeFrame buf (some arguments) run.state
          .runtimeException
          (ErrorRun.restoreJmp buf (entered.state.jmp buf.context))
          (program buf (entered.frame.setjmp buf)).1
          (program buf (entered.frame.setjmp buf)).2))

theorem optionsCall_outcome (run : ErrorRun) (call : ℕ) (programGuid : ℤ)
    (arguments : OptionsArguments) (program : RunsProgram) :
    OptionsOutcome call arguments program run
      (run.optionsCall call programGuid arguments program) := by
  unfold ErrorRun.optionsCall
  split
  next => exact .unset _
  next hset =>
    have hexecuting : run.state.executing call = true := by
      simpa using fun h => hset (.inl h)
    split
    next => exact .noProgram
    next =>
      cases hconvert : arguments.convert with
      | error error => exact .unconverted hexecuting error hconvert _ _ rfl
      | ok converted => exact .called hexecuting hconvert _ _ rfl

/-! ## New buffers and contexts -/

section Entering

variable {run entered made : ErrorRun} {owner : Owner} {context : Context}
  {buf : JmpBuf} {call : ℕ}

theorem newBuf_same_reports
    (hnew : run.newBuf owner context = (buf, entered)) :
    entered.reports = run.reports := by
  obtain ⟨rfl, rfl⟩ := Prod.mk.inj hnew
  rfl

theorem newBuf_pending (hnew : run.newBuf owner context = (buf, entered)) :
    entered.state.pending = run.state.pending := by
  obtain ⟨rfl, rfl⟩ := Prod.mk.inj hnew
  rfl

theorem newBuf_allReports {P : FrameReport → Prop}
    (hnew : run.newBuf owner context = (buf, entered))
    (hreports : run.AllReports P) : entered.AllReports P := by
  unfold ErrorRun.AllReports
  rwa [newBuf_same_reports hnew]

theorem newCall_same_reports (hcall : run.newCall = (call, made)) :
    made.reports = run.reports := by
  obtain ⟨rfl, rfl⟩ := Prod.mk.inj hcall
  rfl

theorem newCall_pending (hcall : run.newCall = (call, made)) :
    made.state.pending = run.state.pending := by
  obtain ⟨rfl, rfl⟩ := Prod.mk.inj hcall
  rfl

theorem newCall_allReports {P : FrameReport → Prop}
    (hcall : run.newCall = (call, made))
    (hreports : run.AllReports P) : made.AllReports P := by
  unfold ErrorRun.AllReports
  rwa [newCall_same_reports hcall]

end Entering

/-! ## Reports are only added -/

def growthRelation : RunRelation where
  program _ frame out := frame.run.reports ⊆ out.1.run.reports
  userCode run out := run.reports ⊆ out.1.reports
  entry run out := run.reports ⊆ out.1.reports

theorem closeFrame_grows (buf : JmpBuf)
    (arguments : Option OptionsArguments) (before : ErrorState)
    (cls : ExceptionClass) (done : ErrorState → ErrorState)
    (body : Frame × Option Exit) :
    body.1.run.reports ⊆
      (closeFrame buf arguments before cls done body.1 body.2).1.reports := by
  obtain ⟨after, ended, -, hreport⟩ :=
    closeFrame_closes buf arguments before cls done body.1 body.2
  rw [hreport]
  exact List.subset_append_left _ _

theorem Frame.Returns.grows {userCode : RunsUserCode} {frame back : Frame}
    (hrun : ∀ run, growthRelation.userCode run (userCode run))
    (hback : frame.Returns userCode back) :
    frame.run.reports ⊆ back.run.reports := by
  have hcode := hrun frame.run
  cases hback with
  | skipped hpending => exact List.Subset.refl _
  | ret hpending run value hreturned => rwa [hreturned] at hcode
  | threw hpending run exception hthrown => rwa [hthrown] at hcode

theorem callHandler_grows {kind : HandlerKind} {userCode : RunsUserCode}
    {next : Option Zval → RunsProgram}
    (hrun : ∀ run, growthRelation.userCode run (userCode run))
    (hnext : ∀ value buf frame,
      growthRelation.program buf frame (next value buf frame))
    (buf : JmpBuf) (frame : Frame) :
    growthRelation.program buf frame
      (callHandler kind userCode next buf frame) := by
  have houtcome := callHandler_outcome kind userCode next buf frame
  generalize callHandler kind userCode next buf frame = out at houtcome ⊢
  cases houtcome with
  | left hpending run exit hleft =>
      have hcode := hrun frame.run
      rwa [hleft] at hcode
  | failed back hback raisedOn error herror =>
      have hgrows := hback.grows hrun
      exact hgrows
  | continued back hback result =>
      exact List.Subset.trans (hback.grows hrun) (hnext result buf back)
  | refused => exact List.Subset.refl _
  | crashed => exact List.Subset.refl _

theorem setRegistry_grows {destructors : RunsUserCode}
    (hrun : ∀ run, growthRelation.userCode run (destructors run))
    (partials : Bool) (vm : ℕ) (value : Zval) (run : ErrorRun) :
    growthRelation.entry run
      (run.setRegistry partials vm value destructors) := by
  obtain hcrash | ⟨owner, entered, buf, body, howner, hnew, hbody, hclose⟩ :=
    setRegistry_cases run partials vm value destructors
  · rw [hcrash]
    exact List.Subset.refl _
  rw [hclose]
  change run.reports ⊆ _
  rw [← newBuf_same_reports hnew]
  refine List.Subset.trans ?_ (closeFrame_grows buf none run.state
    .runtimeException (ErrorRun.clearJmp buf) body)
  have hcode := hrun (entered.frame.setjmp buf).run
  cases hbody with
  | raised error hnum => exact List.Subset.refl _
  | left run' exit hleft => rwa [hleft] at hcode
  | ret run' value hreturned => rwa [hreturned] at hcode
  | threw run' exception hthrown => rwa [hthrown] at hcode

theorem compile_grows {configuration : RunsProgram}
    (hrun : ∀ buf frame,
      growthRelation.program buf frame (configuration buf frame))
    (call : ℕ) (parsing : Option OwnError) (run : ErrorRun) :
    run.reports ⊆ (run.compile call configuration parsing).1.reports := by
  obtain ⟨entered, buf, cls, body, hnew, hbody, hclose⟩ :=
    compile_cases run call configuration parsing
  rw [hclose, ← newBuf_same_reports hnew]
  refine List.Subset.trans ?_ (closeFrame_grows buf none run.state cls id body)
  have hconfiguration := hrun buf (entered.frame.setjmp buf)
  cases hbody with
  | stopped back exit hback => rwa [hback] at hconfiguration
  | parsed back hback => rwa [hback] at hconfiguration
  | failed back hback error => rwa [hback] at hconfiguration

theorem ExecuteBody.grows {execution : RunsProgram} {buf : JmpBuf}
    {frame : Frame} {body : Frame × Option Exit}
    (hbody : ExecuteBody execution buf frame body)
    (hrun : ∀ buf frame,
      growthRelation.program buf frame (execution buf frame)) :
    frame.run.reports ⊆ body.1.run.reports := by
  cases hbody with
  | raised error hnum => exact List.Subset.refl _
  | executed => exact hrun buf frame

theorem render_grows {configuration execution : RunsProgram}
    (hconfiguration : ∀ buf frame,
      growthRelation.program buf frame (configuration buf frame))
    (hexecution : ∀ buf frame,
      growthRelation.program buf frame (execution buf frame))
    (start : RenderStart) (parsing : Option OwnError)
    (context : Option Zval) (run : ErrorRun) :
    growthRelation.entry run
      (run.render start configuration parsing context execution) := by
  obtain ⟨call, made, buf, entered, body, hcall, hnew, hbody, hclose⟩ :=
    render_cases run start configuration parsing context execution
  have hentered : entered.reports = run.reports :=
    (newBuf_same_reports hnew).trans (newCall_same_reports hcall)
  rw [hclose]
  change run.reports ⊆ _
  rw [← hentered]
  refine List.Subset.trans ?_ (closeFrame_grows buf none run.state
    .runtimeException (fun state => state.free call) body)
  have hcompile := compile_grows hconfiguration call parsing entered
  cases hbody with
  | failed pending => exact List.Subset.refl _
  | loaded body hbody => exact hbody.grows hexecution
  | stopped run' report hrun hended => rwa [hrun] at hcompile
  | compiled run' report hrun hended body hbody =>
      rw [hrun] at hcompile
      exact List.Subset.trans hcompile (hbody.grows hexecution)

theorem growthRelation_respected : growthRelation.Respected where
  finish _ _ := List.Subset.refl _
  raise _ _ _ := List.Subset.refl _
  handler _ _ _ hrun hnext := callHandler_grows hrun hnext
  ret _ _ := List.Subset.refl _
  threw _ _ := List.Subset.refl _
  call entry next hentry hnext run := by
    have hserved := hentry run
    unfold callEntry
    cases hrun : runEntry entry run with
    | mk run' exit =>
        rw [hrun] at hserved
        cases exit with
        | some exit => exact hserved
        | none =>
            exact List.Subset.trans hserved
              (hnext run'.state.pending (run'.setPending none))
  newVm _ := List.Subset.refl _
  setRegistry partials vm value _ hrun :=
    setRegistry_grows hrun partials vm value
  vmCompile configuration parsing hrun run := by
    obtain ⟨call, made, run', report, hcall, hcompile, hclose⟩ :=
      vmCompile_cases run (runProgram configuration) parsing
    have hgrows := compile_grows hrun call parsing made
    rw [hcompile, newCall_same_reports hcall] at hgrows
    obtain hclose | ⟨-, hclose⟩ := hclose <;> rw [hclose] <;> exact hgrows
  render start _ parsing context _ hconfiguration hexecution :=
    render_grows hconfiguration hexecution start parsing context
  optionsCall call programGuid arguments program hrun run := by
    have houtcome := optionsCall_outcome run call programGuid arguments
      (runProgram program)
    generalize run.optionsCall call programGuid arguments
      (runProgram program) = out at houtcome ⊢
    cases houtcome with
    | unset pending => exact List.Subset.refl _
    | noProgram => exact List.Subset.refl _
    | unconverted hexecuting error hconvert buf entered hnew =>
        change run.reports ⊆ _
        rw [← newBuf_same_reports hnew]
        exact closeFrame_grows buf (some arguments) run.state
          .runtimeException id
          ((entered.frame.throw (some buf.context) error).1,
            some (entered.frame.throw (some buf.context) error).2)
    | called hexecuting hconvert buf entered hnew =>
        change run.reports ⊆ _
        rw [← newBuf_same_reports hnew]
        exact List.Subset.trans (hrun buf (entered.frame.setjmp buf))
          (closeFrame_grows buf (some arguments) run.state
            .runtimeException
            (ErrorRun.restoreJmp buf (entered.state.jmp buf.context)) _)

theorem ErrorRun.AllReports.of_grows {P : FrameReport → Prop}
    {before after : ErrorRun} (hafter : after.AllReports P)
    (hgrows : before.reports ⊆ after.reports) : before.AllReports P :=
  fun report hreport => hafter report (hgrows hreport)

end PhpHandlebars
