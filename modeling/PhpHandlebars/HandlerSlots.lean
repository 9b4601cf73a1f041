import PhpHandlebars.ErrorHandlerRun
import Mathlib.Tactic

/-!
# Handler slots

A slot holds no buffer but one set on its own context, by a function entered
before.  A jump finds its target still in the slot, for the frames it leaves
change nothing on the way.
-/

namespace PhpHandlebars

structure ErrorState.Consistent (state : ErrorState) : Prop where
  context : ∀ context buf, state.jmp context = some buf →
    buf.context = context
  serial : ∀ context buf, state.jmp context = some buf →
    buf.serial < state.serial
  unused : ∀ call, state.calls ≤ call →
    state.executing call = false ∧ state.freed call = false

/-- Contexts and buffers are only added; the contexts of earlier calls are
freed by their own calls alone. -/
structure ErrorState.Precedes (before after : ErrorState) : Prop where
  calls : before.calls ≤ after.calls
  serial : before.serial ≤ after.serial
  freed : ∀ call, call < before.calls →
    after.freed call = before.freed call

/-- The target of a jump is still in its slot. -/
def ErrorState.Holds (state : ErrorState) : Option Exit → Prop
  | some (.jumped target _) => state.jmp target.context = some target
  | _ => True

structure ErrorState.Continues (before after : ErrorState)
    (exit : Option Exit) : Prop where
  consistent : after.Consistent
  precedes : before.Precedes after
  holds : after.Holds exit

namespace ErrorState

theorem Precedes.refl (state : ErrorState) : state.Precedes state :=
  ⟨Nat.le_refl _, Nat.le_refl _, fun _ _ => rfl⟩

theorem Precedes.trans {first second third : ErrorState}
    (hfirst : first.Precedes second) (hsecond : second.Precedes third) :
    first.Precedes third := by
  refine ⟨hfirst.calls.trans hsecond.calls,
    hfirst.serial.trans hsecond.serial, fun call hcall => ?_⟩
  rw [hsecond.freed call (hcall.trans_le hfirst.calls)]
  exact hfirst.freed call hcall

theorem Consistent.continues {state : ErrorState}
    (hstate : state.Consistent) : state.Continues state none :=
  ⟨hstate, .refl state, trivial⟩

theorem Continues.after {first second third : ErrorState}
    {exit : Option Exit} (hsecond : second.Continues third exit)
    (hfirst : first.Precedes second) : first.Continues third exit :=
  ⟨hsecond.consistent, hfirst.trans hsecond.precedes, hsecond.holds⟩

theorem Consistent.withPending {state : ErrorState}
    (hstate : state.Consistent) (pending : Option Exception) :
    ({ state with pending := pending } : ErrorState).Consistent :=
  ⟨hstate.context, hstate.serial, hstate.unused⟩

theorem Precedes.withPending {before after : ErrorState}
    (hprecedes : before.Precedes after) (pending : Option Exception) :
    before.Precedes { after with pending := pending } :=
  ⟨hprecedes.calls, hprecedes.serial, hprecedes.freed⟩

theorem Consistent.install {state : ErrorState} {context : Context}
    {jmp : Option JmpBuf} (hstate : state.Consistent)
    (hjmp : ∀ buf, jmp = some buf →
      buf.context = context ∧ buf.serial < state.serial) :
    (state.install context jmp).Consistent := by
  have hslot : ∀ other buf,
      (state.install context jmp).jmp other = some buf →
        buf.context = other ∧ buf.serial < state.serial := by
    intro other buf hbuf
    by_cases hother : other = context
    · subst other
      exact hjmp buf (by simpa using hbuf)
    · rw [install_of_ne hother] at hbuf
      exact ⟨hstate.context other buf hbuf, hstate.serial other buf hbuf⟩
  exact ⟨fun other buf h => (hslot other buf h).1,
    fun other buf h => (hslot other buf h).2, hstate.unused⟩

theorem Precedes.install {before after : ErrorState}
    (hprecedes : before.Precedes after) (context : Context)
    (jmp : Option JmpBuf) : before.Precedes (after.install context jmp) :=
  ⟨hprecedes.calls, hprecedes.serial, hprecedes.freed⟩

theorem Consistent.throw_holds {state : ErrorState}
    (hstate : state.Consistent) {frame : Frame}
    (hframe : frame.run.state = state) (context : Option Context)
    (error : LibError) :
    state.Holds (some (frame.throw context error).2) := by
  subst hframe
  cases htarget : context.bind frame.run.state.jmp with
  | none => simp [Frame.throw, htarget, Holds]
  | some buf =>
      obtain ⟨context, rfl, hbuf⟩ := Option.bind_eq_some_iff.mp htarget
      simp only [Frame.throw, htarget, Holds]
      rw [hstate.context context buf hbuf, hbuf]

end ErrorState

open ErrorState

/-! ## Slots of new buffers and contexts -/

section NewBuf

variable {run entered : ErrorRun} {owner : Owner} {context : Context}
  {buf : JmpBuf}

theorem newBuf_buf (hnew : run.newBuf owner context = (buf, entered)) :
    buf = ⟨owner, context, run.state.serial⟩ :=
  (congrArg Prod.fst hnew).symm

theorem newBuf_jmp (hnew : run.newBuf owner context = (buf, entered)) :
    entered.state.jmp = run.state.jmp := by
  obtain ⟨rfl, rfl⟩ := Prod.mk.inj hnew
  rfl

theorem newBuf_continues (hstate : run.state.Consistent)
    (hnew : run.newBuf owner context = (buf, entered)) :
    run.state.Continues entered.state none := by
  obtain ⟨rfl, rfl⟩ := Prod.mk.inj hnew
  refine ⟨⟨hstate.context, ?_, hstate.unused⟩,
    ⟨Nat.le_refl _, Nat.le_succ _, fun _ _ => rfl⟩, trivial⟩
  intro other held hheld
  exact Nat.lt_succ_of_lt (hstate.serial other held hheld)

theorem newBuf_not_held (hstate : run.state.Consistent)
    (hnew : run.newBuf owner context = (buf, entered)) (other : Context) :
    entered.state.jmp other ≠ some buf := by
  rw [newBuf_jmp hnew, newBuf_buf hnew]
  intro hheld
  exact Nat.lt_irrefl _ (hstate.serial other _ hheld)

theorem newBuf_setjmp_continues (hstate : run.state.Consistent)
    (hnew : run.newBuf owner context = (buf, entered)) :
    run.state.Continues (entered.frame.setjmp buf).run.state none := by
  have hentered := newBuf_continues hstate hnew
  obtain ⟨rfl, rfl⟩ := Prod.mk.inj hnew
  refine ⟨hentered.consistent.install ?_,
    hentered.precedes.install _ _, trivial⟩
  intro held hheld
  obtain rfl := Option.some.inj hheld
  exact ⟨rfl, Nat.lt_succ_self _⟩

end NewBuf

theorem newCall_continues {run made : ErrorRun} {call : ℕ}
    (hstate : run.state.Consistent) (hcall : run.newCall = (call, made)) :
    call = run.state.calls ∧ made.state.calls = call + 1 ∧
      made.state.freed call = false ∧ run.state.Continues made.state none := by
  obtain ⟨rfl, rfl⟩ := Prod.mk.inj hcall
  refine ⟨rfl, rfl, (hstate.unused _ (Nat.le_refl _)).2,
    ⟨hstate.context, hstate.serial, ?_⟩,
    ⟨Nat.le_succ _, Nat.le_refl _, fun _ _ => rfl⟩, trivial⟩
  intro call hunused
  exact hstate.unused call (Nat.le_of_succ_le hunused)

/-! ## The ends of frames -/

theorem Closes.continues {buf : JmpBuf} {cls : ExceptionClass}
    {done : ErrorState → ErrorState} {before start state after : ErrorState}
    {exit : Option Exit} {ended : FrameEnd}
    (hcloses : Closes buf cls done state exit after ended)
    (hrun : start.Continues state exit) (hstart : before.Precedes start)
    (hdone : ∀ state, state.Consistent → start.Precedes state →
      before.Continues (done state) none) :
    before.Continues after ended.exit := by
  cases hcloses with
  | passed => exact hdone state hrun.consistent hrun.precedes
  | caught error =>
      exact hdone _ (hrun.consistent.withPending _)
        (hrun.precedes.withPending _)
  | left exit hother => exact hrun.after hstart

theorem Closes.left_of_other {buf : JmpBuf} {cls : ExceptionClass}
    {done : ErrorState → ErrorState} {state after : ErrorState}
    {exit : Exit} {ended : FrameEnd}
    (hcloses : Closes buf cls done state (some exit) after ended)
    (hother : ∀ error, exit ≠ .jumped buf error) : ended = .left exit := by
  cases hcloses with
  | caught error => exact absurd rfl (hother error)
  | left exit hother => rfl

theorem throw_not_to {frame : Frame} {buf : JmpBuf}
    (hheld : ∀ context, frame.run.state.jmp context ≠ some buf)
    (context : Option Context) (error raised : LibError) :
    (frame.throw context error).2 ≠ .jumped buf raised := by
  cases htarget : context.bind frame.run.state.jmp with
  | none => simp [Frame.throw, htarget]
  | some target =>
      obtain ⟨context, rfl, hslot⟩ := Option.bind_eq_some_iff.mp htarget
      simp only [Frame.throw, htarget]
      rintro ⟨rfl, -⟩
      exact hheld context hslot

theorem free_of_ne {call other : ℕ} (hne : other ≠ call)
    (state : ErrorState) : (state.free call).freed other = state.freed other := by
  simp [ErrorState.free, hne]

theorem free_continues {before start state : ErrorState} {call : ℕ}
    (hbefore : before.Precedes start) (hcall : before.calls ≤ call)
    (hmade : call < start.calls) (hstate : state.Consistent)
    (hstart : start.Precedes state) :
    before.Continues (state.free call) none := by
  refine ⟨⟨hstate.context, hstate.serial, ?_⟩,
    ⟨(hbefore.trans hstart).calls, (hbefore.trans hstart).serial, ?_⟩,
    trivial⟩
  · intro other hother
    have hne : other ≠ call := by
      have := hstart.calls
      intro heq
      subst other
      exact absurd (hmade.trans_le (this.trans hother)) (Nat.lt_irrefl _)
    refine ⟨(hstate.unused other hother).1, ?_⟩
    rw [free_of_ne hne]
    exact (hstate.unused other hother).2
  · intro other hother
    have hne : other ≠ call := by omega
    rw [free_of_ne hne]
    exact (hbefore.trans hstart).freed other hother

/-! ## Runs -/

/-- Every run of every kind keeps the slots consistent. -/
def slotRelation : RunRelation where
  program _ frame out := frame.run.state.Consistent →
    frame.run.state.Continues out.1.run.state out.2
  userCode run out := run.state.Consistent →
    run.state.Continues out.1.state out.2.exit
  entry run out := run.state.Consistent →
    run.state.Continues out.1.state out.2

theorem throw_continues {frame : Frame}
    (hstate : frame.run.state.Consistent) (context : Option Context)
    (error : LibError) :
    frame.run.state.Continues (frame.throw context error).1.run.state
      (some (frame.throw context error).2) :=
  ⟨hstate, .refl _, hstate.throw_holds rfl context error⟩

theorem Frame.Returns.continues {userCode : RunsUserCode}
    {frame back : Frame}
    (hrun : ∀ run, slotRelation.userCode run (userCode run))
    (hback : frame.Returns userCode back)
    (hstate : frame.run.state.Consistent) :
    frame.run.state.Continues back.run.state none := by
  have hcode := hrun frame.run hstate
  cases hback with
  | skipped hpending => exact hstate.continues
  | ret hpending run value hreturned =>
      rw [hreturned] at hcode
      exact hcode
  | threw hpending run exception hthrown =>
      rw [hthrown] at hcode
      exact ⟨hcode.consistent.withPending _, hcode.precedes.withPending _,
        trivial⟩

theorem callHandler_continues {kind : HandlerKind} {userCode : RunsUserCode}
    {next : Option Zval → RunsProgram}
    (hrun : ∀ run, slotRelation.userCode run (userCode run))
    (hnext : ∀ value buf frame,
      slotRelation.program buf frame (next value buf frame))
    (buf : JmpBuf) (frame : Frame) :
    slotRelation.program buf frame
      (callHandler kind userCode next buf frame) := by
  intro hstate
  have houtcome := callHandler_outcome kind userCode next buf frame
  generalize callHandler kind userCode next buf frame = out at houtcome ⊢
  cases houtcome with
  | left hpending run exit hleft =>
      have hcode := hrun frame.run hstate
      rw [hleft] at hcode
      exact hcode
  | failed back hback raisedOn error herror =>
      have hcontinues := hback.continues hrun hstate
      exact (throw_continues hcontinues.consistent raisedOn error).after
        hcontinues.precedes
  | continued back hback result =>
      have hcontinues := hback.continues hrun hstate
      exact (hnext result buf back hcontinues.consistent).after
        hcontinues.precedes
  | refused exception hpending message =>
      have hrefused : (frame.refuse exception message).run.state.Consistent :=
        hstate.withPending _
      exact (throw_continues hrefused (some buf.context) externalError).after
        ((Precedes.refl _).withPending _)
  | crashed exception hpending => exact ⟨hstate, .refl _, trivial⟩

theorem setRegistry_continues {destructors : RunsUserCode}
    (hrun : ∀ run, slotRelation.userCode run (destructors run))
    (partials : Bool) (vm : ℕ) (value : Zval) (run : ErrorRun) :
    slotRelation.entry run
      (run.setRegistry partials vm value destructors) := by
  intro hstate
  obtain hcrash | ⟨owner, entered, buf, body, howner, hnew, hbody, hclose⟩ :=
    setRegistry_cases run partials vm value destructors
  · rw [hcrash]
    exact ⟨hstate, .refl _, trivial⟩
  have hstart := newBuf_setjmp_continues hstate hnew
  obtain ⟨after, ended, hcloses, hreport⟩ := closeFrame_closes buf none
    run.state .runtimeException (ErrorRun.clearJmp buf) body.1 body.2
  rw [hclose, hreport]
  have hcode := hrun (entered.frame.setjmp buf).run hstart.consistent
  have hframe : (entered.frame.setjmp buf).run.state.Continues
      body.1.run.state body.2 := by
    cases hbody with
    | raised error hnum => exact throw_continues hstart.consistent _ _
    | left run' exit hleft =>
        rw [hleft] at hcode
        exact hcode
    | ret run' value hreturned =>
        rw [hreturned] at hcode
        exact hcode
    | threw run' exception hthrown =>
        rw [hthrown] at hcode
        exact ⟨hcode.consistent.withPending _, hcode.precedes.withPending _,
          trivial⟩
  exact hcloses.continues hframe hstart.precedes
    fun state hconsistent hprecedes =>
      ⟨hconsistent.install (by simp),
        (hstart.precedes.trans hprecedes).install _ _, trivial⟩

theorem setjmp_again_continues {start : ErrorState} (back : Frame)
    {buf : JmpBuf} (hback : start.Continues back.run.state none)
    (hserial : buf.serial < start.serial) :
    start.Continues (back.setjmp buf).run.state none := by
  refine ⟨hback.consistent.install ?_, hback.precedes.install _ _, trivial⟩
  intro held hheld
  obtain rfl := Option.some.inj hheld
  exact ⟨rfl, hserial.trans_le hback.precedes.serial⟩

theorem CompileBody.continues {configuration : RunsProgram} {buf : JmpBuf}
    {frame : Frame} {cls : ExceptionClass} {body : Frame × Option Exit}
    (hbody : CompileBody configuration buf frame cls body)
    (hrun : ∀ buf frame,
      slotRelation.program buf frame (configuration buf frame))
    (hstate : frame.run.state.Consistent)
    (hserial : buf.serial < frame.run.state.serial) :
    frame.run.state.Continues body.1.run.state body.2 := by
  have hconfiguration := hrun buf frame hstate
  cases hbody with
  | stopped back exit hback =>
      rw [hback] at hconfiguration
      exact hconfiguration
  | parsed back hback =>
      rw [hback] at hconfiguration
      exact setjmp_again_continues back hconfiguration hserial
  | failed back hback error =>
      rw [hback] at hconfiguration
      have hset := setjmp_again_continues back hconfiguration hserial
      exact (throw_continues hset.consistent _ _).after hset.precedes

theorem compile_continues {configuration : RunsProgram}
    (hrun : ∀ buf frame,
      slotRelation.program buf frame (configuration buf frame))
    (call : ℕ) (parsing : Option OwnError) {run : ErrorRun}
    (hstate : run.state.Consistent) :
    run.state.Continues
      (run.compile call configuration parsing).1.state
      (run.compile call configuration parsing).2.ended.exit := by
  obtain ⟨entered, buf, cls, body, hnew, hbody, hclose⟩ :=
    compile_cases run call configuration parsing
  have hstart := newBuf_setjmp_continues hstate hnew
  obtain ⟨after, ended, hcloses, hreport⟩ := closeFrame_closes buf none
    run.state cls id body.1 body.2
  rw [hclose, hreport]
  refine hcloses.continues (hbody.continues hrun hstart.consistent ?_)
    hstart.precedes fun state hconsistent hprecedes =>
      ⟨hconsistent, hstart.precedes.trans hprecedes, trivial⟩
  obtain ⟨rfl, rfl⟩ := Prod.mk.inj hnew
  exact Nat.lt_succ_self _

theorem vmCompile_continues {configuration : RunsProgram}
    (hrun : ∀ buf frame,
      slotRelation.program buf frame (configuration buf frame))
    (parsing : Option OwnError) (run : ErrorRun) :
    slotRelation.entry run (run.vmCompile configuration parsing) := by
  intro hstate
  obtain ⟨call, made, run', report, hcall, hcompile, hclose⟩ :=
    vmCompile_cases run configuration parsing
  obtain ⟨hnumber, hmade, -, hstart⟩ := newCall_continues hstate hcall
  have hcontinues := compile_continues hrun call parsing hstart.consistent
  rw [hcompile] at hcontinues
  obtain hclose | ⟨-, hclose⟩ := hclose
  · rw [hclose]
    exact hcontinues.after hstart.precedes
  · rw [hclose]
    exact free_continues hstart.precedes hnumber.ge (by omega)
      hcontinues.consistent hcontinues.precedes

theorem executionFrame_continues {start : ErrorState} {buf : JmpBuf}
    {call : ℕ} {run : ErrorRun} (hrun : start.Continues run.state none)
    (hcall : call < start.calls) (hserial : buf.serial < start.serial)
    (escaped : List Exception) :
    start.Continues (executionFrame buf call run escaped).run.state none := by
  have hexecute : start.Continues (run.state.execute call) none := by
    refine ⟨⟨hrun.consistent.context, hrun.consistent.serial, ?_⟩,
      ⟨hrun.precedes.calls, hrun.precedes.serial, hrun.precedes.freed⟩,
      trivial⟩
    intro other hother
    have hne : other ≠ call := by
      have : run.state.calls ≤ other := hother
      have := hrun.precedes.calls
      omega
    obtain ⟨hexecuting, hfreed⟩ := hrun.consistent.unused other hother
    exact ⟨by simpa [ErrorState.execute, hne] using hexecuting, hfreed⟩
  exact setjmp_again_continues
    ⟨{ run with state := run.state.execute call }, escaped, [], []⟩
    hexecute hserial

theorem ExecuteBody.continues {execution : RunsProgram} {buf : JmpBuf}
    {frame : Frame} {body : Frame × Option Exit}
    (hbody : ExecuteBody execution buf frame body)
    (hrun : ∀ buf frame,
      slotRelation.program buf frame (execution buf frame))
    (hstate : frame.run.state.Consistent) :
    frame.run.state.Continues body.1.run.state body.2 := by
  cases hbody with
  | raised error hnum => exact throw_continues hstate _ _
  | executed => exact hrun buf frame hstate

theorem RenderBody.continues {configuration execution : RunsProgram}
    {parsing : Option OwnError} {buf : JmpBuf} {call : ℕ}
    {entered : ErrorRun} {body : Frame × Option Exit}
    (hbody : RenderBody configuration parsing execution buf call entered body)
    (hconfiguration : ∀ buf frame,
      slotRelation.program buf frame (configuration buf frame))
    (hexecution : ∀ buf frame,
      slotRelation.program buf frame (execution buf frame))
    (hstate : entered.state.Consistent) (hcall : call < entered.state.calls)
    (hserial : buf.serial < entered.state.serial) :
    entered.state.Continues body.1.run.state body.2 := by
  have hcompile := compile_continues hconfiguration call parsing hstate
  cases hbody with
  | failed pending =>
      exact ⟨hstate.withPending _, (Precedes.refl _).withPending _, trivial⟩
  | loaded body hbody =>
      have hframe := executionFrame_continues hstate.continues hcall hserial []
      exact (hbody.continues hexecution hframe.consistent).after
        hframe.precedes
  | stopped run report hrun hended =>
      rw [hrun] at hcompile
      exact hcompile
  | compiled run report hrun hended body hbody =>
      rw [hrun, hended] at hcompile
      have hframe := executionFrame_continues hcompile hcall hserial
        report.escaped
      exact (hbody.continues hexecution hframe.consistent).after
        hframe.precedes

theorem render_continues {configuration execution : RunsProgram}
    (hconfiguration : ∀ buf frame,
      slotRelation.program buf frame (configuration buf frame))
    (hexecution : ∀ buf frame,
      slotRelation.program buf frame (execution buf frame))
    (start : RenderStart) (parsing : Option OwnError)
    (context : Option Zval) (run : ErrorRun) :
    slotRelation.entry run
      (run.render start configuration parsing context execution) := by
  intro hstate
  obtain ⟨call, made, buf, entered, body, hcall, hnew, hbody, hclose⟩ :=
    render_cases run start configuration parsing context execution
  obtain ⟨hnumber, hmade, -, hcontinues⟩ := newCall_continues hstate hcall
  have hentered := newBuf_continues hcontinues.consistent hnew
  have hcalls := hentered.precedes.calls
  obtain ⟨after, ended, hcloses, hreport⟩ := closeFrame_closes buf none
    run.state .runtimeException (fun state => state.free call) body.1 body.2
  rw [hclose, hreport]
  have hbefore := hcontinues.precedes.trans hentered.precedes
  refine hcloses.continues (hbody.continues hconfiguration hexecution
    hentered.consistent (by omega) ?_) hbefore fun state hconsistent hstart =>
      free_continues hbefore hnumber.ge (by omega) hconsistent hstart
  obtain ⟨rfl, rfl⟩ := Prod.mk.inj hnew
  exact Nat.lt_succ_self _

theorem optionsCall_continues {program : RunsProgram}
    (hrun : ∀ buf frame,
      slotRelation.program buf frame (program buf frame))
    (call : ℕ) (programGuid : ℤ) (arguments : OptionsArguments)
    (run : ErrorRun) :
    slotRelation.entry run
      (run.optionsCall call programGuid arguments program) := by
  intro hstate
  have houtcome := optionsCall_outcome run call programGuid arguments program
  generalize run.optionsCall call programGuid arguments program = out
    at houtcome ⊢
  cases houtcome with
  | unset pending =>
      exact ⟨hstate.withPending _, (Precedes.refl _).withPending _, trivial⟩
  | noProgram => exact hstate.continues
  | unconverted hexecuting error hconvert buf entered hnew =>
      have hentered := newBuf_continues hstate hnew
      obtain ⟨after, ended, hcloses, hreport⟩ := closeFrame_closes buf
        (some arguments) run.state .runtimeException id
        (entered.frame.throw (some buf.context) error).1
        (some (entered.frame.throw (some buf.context) error).2)
      rw [hreport]
      exact hcloses.continues (throw_continues hentered.consistent _ _)
        hentered.precedes fun state hconsistent hprecedes =>
          ⟨hconsistent, hentered.precedes.trans hprecedes, trivial⟩
  | called hexecuting hconvert buf entered hnew =>
      have hstart := newBuf_setjmp_continues hstate hnew
      obtain ⟨after, ended, hcloses, hreport⟩ := closeFrame_closes buf
        (some arguments) run.state .runtimeException
        (ErrorRun.restoreJmp buf (entered.state.jmp buf.context))
        (program buf (entered.frame.setjmp buf)).1
        (program buf (entered.frame.setjmp buf)).2
      rw [hreport]
      refine hcloses.continues (hrun buf _ hstart.consistent)
        hstart.precedes fun state hconsistent hprecedes =>
          ⟨hconsistent.install ?_,
            (hstart.precedes.trans hprecedes).install _ _, trivial⟩
      rw [newBuf_jmp hnew]
      intro prev hprev
      have hserial := hstate.serial _ prev hprev
      exact ⟨hstate.context _ prev hprev, hserial.trans_le
        (hstart.precedes.trans hprecedes).serial⟩

theorem slotRelation_respected : slotRelation.Respected where
  finish _ _ := Consistent.continues
  raise _ _ _ hstate := throw_continues hstate _ _
  handler _ _ _ hrun hnext := callHandler_continues hrun hnext
  ret _ _ := Consistent.continues
  threw _ _ := Consistent.continues
  call entry next hentry hnext run := by
    intro hstate
    have hserved := hentry run hstate
    unfold callEntry
    cases hrun : runEntry entry run with
    | mk run' exit =>
        rw [hrun] at hserved
        cases exit with
        | some exit => exact hserved
        | none =>
            exact (hnext run'.state.pending (run'.setPending none)
              (hserved.consistent.withPending none)).after
              (hserved.precedes.withPending none)
  newVm _ hstate :=
    ⟨⟨hstate.context, hstate.serial, hstate.unused⟩,
      ⟨Nat.le_refl _, Nat.le_refl _, fun _ _ => rfl⟩, trivial⟩
  setRegistry partials vm value _ hrun :=
    setRegistry_continues hrun partials vm value
  vmCompile _ parsing hrun := vmCompile_continues hrun parsing
  render start _ parsing context _ hconfiguration hexecution :=
    render_continues hconfiguration hexecution start parsing context
  optionsCall call programGuid arguments _ hrun :=
    optionsCall_continues hrun call programGuid arguments

theorem runProgram_continues (program : Program) (buf : JmpBuf)
    {frame : Frame} (hstate : frame.run.state.Consistent) :
    frame.run.state.Continues (runProgram program buf frame).1.run.state
      (runProgram program buf frame).2 :=
  slotRelation_respected.runProgram program buf frame hstate

theorem runUserCode_continues (userCode : UserCode) {run : ErrorRun}
    (hstate : run.state.Consistent) :
    run.state.Continues (runUserCode userCode run).1.state
      (runUserCode userCode run).2.exit :=
  slotRelation_respected.runUserCode userCode run hstate

theorem runEntry_continues (entry : Entry) {run : ErrorRun}
    (hstate : run.state.Consistent) :
    run.state.Continues (runEntry entry run).1.state
      (runEntry entry run).2 :=
  slotRelation_respected.runEntry entry run hstate

theorem moduleInit_consistent (failsPending : Bool)
    (cacheError : Option OwnError) :
    (moduleInit failsPending cacheError).state.Consistent := by
  unfold moduleInit
  refine ErrorState.Consistent.install ⟨by simp, by simp, by simp⟩ ?_
  intro buf hbuf
  obtain rfl := Option.some.inj hbuf
  exact ⟨rfl, Nat.zero_lt_one⟩

end PhpHandlebars
