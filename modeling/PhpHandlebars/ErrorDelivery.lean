import PhpHandlebars.DanglingHandler
import Mathlib.Tactic

/-!
# Delivery of errors

`Options::fn` and `Options::inverse` save the handler of their VM and put it
back.  As long as what they are given converts, no jump ever leaves the
function whose buffer it goes to: the slot of every call of `render` on the
stack holds the buffer of its innermost frame.
-/

namespace PhpHandlebars

open ErrorState

def ErrorState.KeepsSlots (before : ErrorState) (bound : ℕ)
    (after : ErrorState) : Prop :=
  ∀ call, call < bound → after.jmp (.call call) = before.jmp (.call call)

/-- Only calls of `fn` and `inverse` have arguments.  These convert, and no
value handler under the call reads a value which does not. -/
def FrameReport.Converts (report : FrameReport) : Prop :=
  ∀ arguments, report.arguments = some arguments →
    arguments.convert = .ok () ∧
      ∀ raised ∈ report.raised, raised.context ≠ none

/-- What a call of `fn` or `inverse` promises. -/
def FrameReport.Delivers (report : FrameReport) : Prop :=
  ∀ arguments, report.arguments = some arguments →
    (report.ended.exit = none →
      report.after.jmp report.buf.context =
        report.before.jmp report.buf.context) ∧
    ∀ raised ∈ report.raised,
      raised.target = some report.buf ∧
      report.ended = .caught raised.error ∧
      report.after.pending = phpHandlebarsThrow .runtimeException
        raised.error raised.pending ∧
      report.after.pending ≠ none

theorem ErrorState.KeepsSlots.refl (state : ErrorState) (bound : ℕ) :
    state.KeepsSlots bound state := fun _ _ => rfl

theorem ErrorState.KeepsSlots.trans {first second third : ErrorState} {bound later : ℕ}
    (hfirst : first.KeepsSlots bound second)
    (hsecond : second.KeepsSlots later third) (hle : bound ≤ later) :
    first.KeepsSlots bound third := by
  intro call hcall
  rw [hsecond call (hcall.trans_le hle)]
  exact hfirst call hcall

/-- Where control goes from library code under a buffer, and what it has done
to the slots. -/
def ErrorState.StaysUnder (before : ErrorState) (buf : JmpBuf) (bound : ℕ)
    (after : ErrorState) : Option Exit → Prop
  | none => before.KeepsSlots bound after
  | some (.jumped target _) => target = buf ∧ before.KeepsSlots bound after
  | some .crashed => True

theorem ErrorState.StaysUnder.after {first second third : ErrorState} {buf : JmpBuf}
    {bound later : ℕ} {exit : Option Exit}
    (hsecond : second.StaysUnder buf later third exit)
    (hfirst : first.KeepsSlots bound second) (hle : bound ≤ later) :
    first.StaysUnder buf bound third exit := by
  cases exit with
  | none => exact hfirst.trans hsecond hle
  | some exit =>
      cases exit with
      | crashed => trivial
      | jumped target error =>
          exact ⟨hsecond.1, hfirst.trans hsecond.2 hle⟩

/-- The errors raised in a frame of library code are the one it ends with. -/
def Frame.Records (frame : Frame) (buf : JmpBuf) : Option Exit → Prop
  | none => frame.raised = []
  | some (.jumped _ error) =>
      (error.num = .external → frame.run.state.pending.isSome) ∧
        ∀ raised ∈ frame.raised, raised.error = error ∧
          raised.target = some buf ∧
          raised.pending = frame.run.state.pending
  | some .crashed => ∀ raised ∈ frame.raised, raised.context = none

/-- A call of the extension does not jump, and keeps the slots. -/
def ErrorState.KeepsOrCrashes (before : ErrorState) (bound : ℕ)
    (after : ErrorState) : Option Exit → Prop
  | none => before.KeepsSlots bound after
  | some exit => exit = .crashed

theorem ErrorState.KeepsOrCrashes.after {first second third : ErrorState}
    {bound later : ℕ} {exit : Option Exit}
    (hsecond : second.KeepsOrCrashes later third exit)
    (hfirst : first.KeepsSlots bound second) (hle : bound ≤ later) :
    first.KeepsOrCrashes bound third exit := by
  cases exit with
  | none => exact hfirst.trans hsecond hle
  | some exit => exact hsecond

structure Frame.Ready (frame : Frame) (buf : JmpBuf) : Prop where
  raised : frame.raised = []
  call : ∃ call, call < frame.run.state.calls ∧ buf.context = .call call
  held : frame.run.state.jmp buf.context = some buf

/-! ## Runs -/

def deliveryRelation : RunRelation where
  program buf frame out := frame.run.state.Consistent → frame.Ready buf →
    out.1.run.AllReports FrameReport.Converts →
    frame.run.AllReports FrameReport.Delivers →
      out.1.run.AllReports FrameReport.Delivers ∧
        frame.run.state.StaysUnder buf frame.run.state.calls
          out.1.run.state out.2 ∧
        out.1.Records buf out.2
  userCode run out := run.state.Consistent →
    out.1.AllReports FrameReport.Converts →
    run.AllReports FrameReport.Delivers →
      out.1.AllReports FrameReport.Delivers ∧
        run.state.KeepsOrCrashes run.state.calls out.1.state out.2.exit
  entry run out := run.state.Consistent →
    out.1.AllReports FrameReport.Converts →
    run.AllReports FrameReport.Delivers →
      out.1.AllReports FrameReport.Delivers ∧
        run.state.KeepsOrCrashes run.state.calls out.1.state out.2

section Throw

variable {frame : Frame} {buf : JmpBuf} {error : LibError}

theorem throw_held (hheld : frame.run.state.jmp buf.context = some buf) :
    (frame.throw (some buf.context) error).2 = .jumped buf error := by
  simp [Frame.throw, hheld]

theorem throw_stays (hheld : frame.run.state.jmp buf.context = some buf)
    (bound : ℕ) :
    frame.run.state.StaysUnder buf bound
      (frame.throw (some buf.context) error).1.run.state
      (some (frame.throw (some buf.context) error).2) := by
  rw [throw_held hheld]
  exact ⟨rfl, .refl _ _⟩

theorem throw_records (hheld : frame.run.state.jmp buf.context = some buf)
    (hraised : frame.raised = [])
    (herror : error.num = .external → frame.run.state.pending.isSome) :
    (frame.throw (some buf.context) error).1.Records buf
      (some (frame.throw (some buf.context) error).2) := by
  rw [throw_held hheld]
  refine ⟨herror, fun raised hmem => ?_⟩
  simp only [Frame.throw, hraised, List.nil_append, List.mem_singleton]
    at hmem
  subst raised
  exact ⟨rfl, hheld, rfl⟩

theorem throw_null_records (hraised : frame.raised = []) :
    (frame.throw none error).1.Records buf
      (some (frame.throw none error).2) := by
  intro raised hmem
  simp only [Frame.throw, hraised, List.nil_append, List.mem_singleton]
    at hmem
  subst raised
  rfl

end Throw

theorem Frame.Returns.delivered {userCode : UserCode} {frame back : Frame}
    {buf : JmpBuf}
    (hrun : ∀ run, deliveryRelation.userCode run (runUserCode userCode run))
    (hback : frame.Returns (runUserCode userCode) back)
    (hstate : frame.run.state.Consistent) (hready : frame.Ready buf)
    (hconverts : back.run.AllReports FrameReport.Converts)
    (hdelivers : frame.run.AllReports FrameReport.Delivers) :
    back.run.AllReports FrameReport.Delivers ∧ back.Ready buf ∧
      frame.run.state.KeepsSlots frame.run.state.calls back.run.state := by
  have hcontinues := hback.continues
    (slotRelation_respected.runUserCode userCode) hstate
  have hkept : back.run.AllReports FrameReport.Delivers ∧
      frame.run.state.KeepsSlots frame.run.state.calls back.run.state := by
    have hcode := hrun frame.run hstate
    cases hback with
    | skipped hpending => exact ⟨hdelivers, .refl _ _⟩
    | ret hpending run value hreturned =>
        rw [hreturned] at hcode
        exact hcode hconverts hdelivers
    | threw hpending run exception hthrown =>
        rw [hthrown] at hcode
        exact hcode hconverts hdelivers
  have hraised : back.raised = frame.raised := by
    cases hback <;> rfl
  obtain ⟨call, hcall, hcontext⟩ := hready.call
  refine ⟨hkept.1, ⟨hraised.trans hready.raised,
    ⟨call, hcall.trans_le hcontinues.precedes.calls, hcontext⟩, ?_⟩, hkept.2⟩
  have hheld := hready.held
  rw [hcontext] at hheld ⊢
  rw [hkept.2 call hcall]
  exact hheld

theorem callHandler_delivered {kind : HandlerKind} {userCode : UserCode}
    {next : Option Zval → Program}
    (hrun : ∀ run, deliveryRelation.userCode run (runUserCode userCode run))
    (hnext : ∀ value buf frame, deliveryRelation.program buf frame
      (runProgram (next value) buf frame))
    (buf : JmpBuf) (frame : Frame) :
    deliveryRelation.program buf frame
      (callHandler kind (runUserCode userCode)
        (fun value => runProgram (next value)) buf frame) := by
  intro hstate hready
  have houtcome := callHandler_outcome kind (runUserCode userCode)
    (fun value => runProgram (next value)) buf frame
  generalize callHandler kind (runUserCode userCode)
    (fun value => runProgram (next value)) buf frame = out at houtcome ⊢
  intro hconverts hdelivers
  cases houtcome with
  | left hpending run exit hleft =>
      have hcode := hrun frame.run hstate
      rw [hleft] at hcode
      obtain ⟨hcode, rfl⟩ := hcode hconverts hdelivers
      refine ⟨hcode, trivial, ?_⟩
      simp [Frame.Records, hready.raised]
  | failed back hback raisedOn error herror =>
      obtain ⟨hback', hready', hkept⟩ :=
        hback.delivered hrun hstate hready hconverts hdelivers
      refine ⟨hback', ?_⟩
      cases herror with
      | value error hnum =>
          exact ⟨(throw_stays hready'.held _).after hkept (Nat.le_refl _),
            throw_records hready'.held hready'.raised (by simp [hnum])⟩
      | external hpending =>
          exact ⟨(throw_stays hready'.held _).after hkept (Nat.le_refl _),
            throw_records hready'.held hready'.raised fun _ => hpending⟩
      | lookup error hnum =>
          exact ⟨trivial, throw_null_records hready'.raised⟩
  | continued back hback result =>
      have hcontinues := hback.continues
        (slotRelation_respected.runUserCode userCode) hstate
      have hgrows := growthRelation_respected.runProgram (next result) buf back
      obtain ⟨hback', hready', hkept⟩ := hback.delivered hrun hstate hready
        (hconverts.of_grows hgrows) hdelivers
      obtain ⟨hnext', hstays, hrecords⟩ := hnext result buf back
        hcontinues.consistent hready' hconverts hback'
      exact ⟨hnext', hstays.after hkept hcontinues.precedes.calls, hrecords⟩
  | refused exception hpending message =>
      exact ⟨hdelivers, throw_stays hready.held _,
        throw_records hready.held hready.raised fun _ => rfl⟩
  | crashed exception hpending =>
      refine ⟨hdelivers, trivial, ?_⟩
      simp [Frame.Records, hready.raised]

theorem Closes.of_stays {buf : JmpBuf} {cls : ExceptionClass}
    {done : ErrorState → ErrorState} {start state after : ErrorState}
    {bound : ℕ} {exit : Option Exit} {ended : FrameEnd}
    (hcloses : Closes buf cls done state exit after ended)
    (hstays : start.StaysUnder buf bound state exit) :
    ended = .left .crashed ∨
      ended.exit = none ∧ start.KeepsSlots bound state ∧
        ∃ pending, after = done { state with pending := pending } := by
  cases hcloses with
  | passed => exact .inr ⟨rfl, hstays, state.pending, rfl⟩
  | caught error => exact .inr ⟨rfl, hstays.2, _, rfl⟩
  | left exit hother =>
      cases exit with
      | crashed => exact .inl rfl
      | jumped target error =>
          obtain ⟨rfl, -⟩ := hstays
          exact absurd rfl (hother error)

theorem Frame.report_unargued (frame : Frame) (buf : JmpBuf)
    (before after : ErrorState) (ended : FrameEnd) :
    (frame.report buf none before after ended).Converts ∧
      (frame.report buf none before after ended).Delivers :=
  ⟨fun _ hgiven => by simp [Frame.report] at hgiven,
    fun _ hgiven => by simp [Frame.report] at hgiven⟩

theorem closeFrame_delivers {body : Frame × Option Exit}
    (hbody : body.1.run.AllReports FrameReport.Delivers) (buf : JmpBuf)
    (before : ErrorState) (cls : ExceptionClass)
    (done : ErrorState → ErrorState) :
    (closeFrame buf none before cls done body.1 body.2).1.AllReports
      FrameReport.Delivers := by
  obtain ⟨after, ended, -, hreport⟩ :=
    closeFrame_closes buf none before cls done body.1 body.2
  rw [hreport]
  exact hbody.append (Frame.report_unargued ..).2 after

theorem install_keeps {bound : ℕ} {context : Context}
    (hother : ∀ call, call < bound → Context.call call ≠ context)
    (state : ErrorState) (jmp : Option JmpBuf) :
    state.KeepsSlots bound (state.install context jmp) :=
  fun call hcall => install_of_ne (hother call hcall) state jmp

theorem newBuf_setjmp_keeps {run entered : ErrorRun} {owner : Owner}
    {context : Context} {buf : JmpBuf} {bound : ℕ}
    (hnew : run.newBuf owner context = (buf, entered))
    (hother : ∀ call, call < bound → Context.call call ≠ context) :
    run.state.KeepsSlots bound (entered.frame.setjmp buf).run.state := by
  have hjmp := newBuf_jmp hnew
  have hbuf := newBuf_buf hnew
  intro call hcall
  change (entered.state.install buf.context (some buf)).jmp _ = _
  rw [install_of_ne (by rw [hbuf]; exact hother call hcall), hjmp]

theorem setjmp_ready {run : ErrorRun} {buf : JmpBuf} {call : ℕ}
    (hcontext : buf.context = .call call) (hcall : call < run.state.calls) :
    (run.frame.setjmp buf).Ready buf :=
  ⟨rfl, ⟨call, hcall, hcontext⟩, install_self _ _ _⟩

theorem RegistryBody.delivered {destructors : UserCode} {buf : JmpBuf}
    {frame : Frame} {body : Frame × Option Exit} {bound : ℕ}
    (hbody : RegistryBody (runUserCode destructors) buf frame body)
    (hrun : ∀ run,
      deliveryRelation.userCode run (runUserCode destructors run))
    (hstate : frame.run.state.Consistent)
    (hheld : frame.run.state.jmp buf.context = some buf)
    (hle : bound ≤ frame.run.state.calls)
    (hconverts : body.1.run.AllReports FrameReport.Converts)
    (hdelivers : frame.run.AllReports FrameReport.Delivers) :
    body.1.run.AllReports FrameReport.Delivers ∧
      frame.run.state.StaysUnder buf bound body.1.run.state body.2 := by
  have hcode := hrun frame.run hstate
  cases hbody with
  | raised error hnum => exact ⟨hdelivers, throw_stays hheld _⟩
  | left run' exit hleft =>
      rw [hleft] at hcode
      obtain ⟨hcode, rfl⟩ := hcode hconverts hdelivers
      exact ⟨hcode, trivial⟩
  | ret run' value hreturned =>
      rw [hreturned] at hcode
      obtain ⟨hcode, hkeeps⟩ := hcode hconverts hdelivers
      exact ⟨hcode, (KeepsSlots.refl _ _).trans hkeeps hle⟩
  | threw run' exception hthrown =>
      rw [hthrown] at hcode
      obtain ⟨hcode, hkeeps⟩ := hcode hconverts hdelivers
      exact ⟨hcode, (KeepsSlots.refl _ _).trans hkeeps hle⟩

theorem setRegistry_delivered {destructors : UserCode}
    (hrun : ∀ run,
      deliveryRelation.userCode run (runUserCode destructors run))
    (partials : Bool) (vm : ℕ) (value : Zval) (run : ErrorRun) :
    deliveryRelation.entry run
      (run.setRegistry partials vm value (runUserCode destructors)) := by
  intro hstate
  obtain hcrash | ⟨owner, entered, buf, body, howner, hnew, hbody, hclose⟩ :=
    setRegistry_cases run partials vm value (runUserCode destructors)
  · rw [hcrash]
    exact fun _ hdelivers => ⟨hdelivers, rfl⟩
  rw [hclose]
  intro hconverts hdelivers
  replace hconverts := hconverts.of_grows (closeFrame_grows buf none
    run.state .runtimeException (ErrorRun.clearJmp buf) body)
  have hstart := newBuf_setjmp_continues hstate hnew
  have hother : ∀ call, call < run.state.calls →
      Context.call call ≠ .vmObject vm := by simp
  have hkept := newBuf_setjmp_keeps hnew hother
  have hframe : body.1.run.AllReports FrameReport.Delivers ∧
      (entered.frame.setjmp buf).run.state.StaysUnder buf run.state.calls
        body.1.run.state body.2 := by
    have hentry := newBuf_allReports hnew hdelivers
    exact hbody.delivered hrun hstart.consistent (install_self _ _ _)
      hstart.precedes.calls hconverts hentry
  refine ⟨closeFrame_delivers hframe.1 _ _ _ _, ?_⟩
  obtain ⟨after, ended, hcloses, hreport⟩ := closeFrame_closes buf none
    run.state .runtimeException (ErrorRun.clearJmp buf) body.1 body.2
  rw [hreport]
  obtain rfl | ⟨hended, hkeeps, pending, rfl⟩ := hcloses.of_stays hframe.2
  · rfl
  · simp only [endEntry, Frame.report, hended]
    refine (hkept.trans hkeeps (Nat.le_refl _)).trans
      (install_keeps ?_ _ none) (Nat.le_refl _)
    rw [newBuf_buf hnew]
    exact hother

theorem CompileBody.delivered {configuration : Program} {buf : JmpBuf}
    {frame : Frame} {cls : ExceptionClass} {body : Frame × Option Exit}
    {call : ℕ}
    (hbody : CompileBody (runProgram configuration) buf frame cls body)
    (hrun : ∀ buf frame, deliveryRelation.program buf frame
      (runProgram configuration buf frame))
    (hstate : frame.run.state.Consistent) (hready : frame.Ready buf)
    (hcontext : buf.context = .call call) (hcall : call < frame.run.state.calls)
    (hconverts : body.1.run.AllReports FrameReport.Converts)
    (hdelivers : frame.run.AllReports FrameReport.Delivers) :
    body.1.run.AllReports FrameReport.Delivers ∧
      frame.run.state.StaysUnder buf call body.1.run.state body.2 := by
  have hconfiguration := hrun buf frame hstate hready
  have hother : ∀ other, other < call → Context.call other ≠ buf.context := by
    intro other hlt
    rw [hcontext]
    simpa using hlt.ne
  have hle : call ≤ frame.run.state.calls := hcall.le
  cases hbody with
  | stopped back exit hback =>
      rw [hback] at hconfiguration
      obtain ⟨hbefore, hstays, -⟩ := hconfiguration hconverts hdelivers
      exact ⟨hbefore, hstays.after (.refl _ _) hle⟩
  | parsed back hback =>
      rw [hback] at hconfiguration
      obtain ⟨hbefore, hkeeps, -⟩ := hconfiguration hconverts hdelivers
      exact ⟨hbefore, ((KeepsSlots.refl _ _).trans hkeeps hle).trans
        (install_keeps hother _ _) (Nat.le_refl _)⟩
  | failed back hback error =>
      rw [hback] at hconfiguration
      obtain ⟨hbefore, hkeeps, -⟩ := hconfiguration hconverts hdelivers
      have hset : frame.run.state.KeepsSlots call
          (back.setjmp buf).run.state :=
        ((KeepsSlots.refl _ _).trans hkeeps hle).trans
          (install_keeps hother _ _) (Nat.le_refl _)
      have hheld : (back.setjmp buf).run.state.jmp buf.context = some buf :=
        install_self _ _ _
      exact ⟨hbefore, (throw_stays hheld call).after hset (Nat.le_refl _)⟩

theorem compile_delivered {configuration : Program}
    (hrun : ∀ buf frame, deliveryRelation.program buf frame
      (runProgram configuration buf frame))
    {call : ℕ} (parsing : Option OwnError) {run : ErrorRun}
    (hstate : run.state.Consistent) (hcall : call < run.state.calls)
    (hconverts : (run.compile call (runProgram configuration)
      parsing).1.AllReports FrameReport.Converts)
    (hdelivers : run.AllReports FrameReport.Delivers) :
    (run.compile call (runProgram configuration) parsing).1.AllReports
        FrameReport.Delivers ∧
      run.state.KeepsOrCrashes call
        (run.compile call (runProgram configuration) parsing).1.state
        (run.compile call (runProgram configuration) parsing).2.ended.exit := by
  obtain ⟨entered, buf, cls, body, hnew, hbody, hclose⟩ :=
    compile_cases run call (runProgram configuration) parsing
  rw [hclose] at hconverts ⊢
  replace hconverts := hconverts.of_grows
    (closeFrame_grows buf none run.state cls id body)
  have hstart := newBuf_setjmp_continues hstate hnew
  have hbuf := newBuf_buf hnew
  have hcontext : buf.context = .call call := by rw [hbuf]
  have hentered := (newBuf_continues hstate hnew).precedes.calls
  have hentry := newBuf_allReports hnew hdelivers
  have hframe := hbody.delivered hrun hstart.consistent
    (setjmp_ready hcontext (by omega)) hcontext
    (hcall.trans_le hstart.precedes.calls) hconverts hentry
  refine ⟨closeFrame_delivers hframe.1 _ _ _ _, ?_⟩
  obtain ⟨after, ended, hcloses, hreport⟩ := closeFrame_closes buf none
    run.state cls id body.1 body.2
  rw [hreport]
  obtain rfl | ⟨hended, hkeeps, pending, rfl⟩ := hcloses.of_stays hframe.2
  · rfl
  · simp only [Frame.report, hended]
    exact (newBuf_setjmp_keeps hnew fun other hlt => by
      simpa using hlt.ne).trans hkeeps (Nat.le_refl _)

theorem newCall_keeps {run made : ErrorRun} {call : ℕ}
    (hcall : run.newCall = (call, made)) (bound : ℕ) :
    run.state.KeepsSlots bound made.state := by
  obtain ⟨rfl, rfl⟩ := Prod.mk.inj hcall
  exact .refl _ _

theorem vmCompile_delivered {configuration : Program}
    (hrun : ∀ buf frame, deliveryRelation.program buf frame
      (runProgram configuration buf frame))
    (parsing : Option OwnError) (run : ErrorRun) :
    deliveryRelation.entry run
      (run.vmCompile (runProgram configuration) parsing) := by
  intro hstate
  obtain ⟨call, made, run', report, hcall, hcompile, hclose⟩ :=
    vmCompile_cases run (runProgram configuration) parsing
  obtain ⟨rfl, hmade, -, hstart⟩ := newCall_continues hstate hcall
  have hkept := newCall_keeps hcall run.state.calls
  have hlast : run.state.calls < made.state.calls := by omega
  have hdelivered := compile_delivered hrun parsing hstart.consistent hlast
  rw [hcompile] at hdelivered
  obtain hclose | ⟨hended, hclose⟩ := hclose
  · rw [hclose]
    intro hconverts hdelivers
    obtain ⟨hreports, hkeeps⟩ := hdelivered hconverts
      (newCall_allReports hcall hdelivers)
    exact ⟨hreports, hkeeps.after hkept (Nat.le_refl _)⟩
  · rw [hclose]
    intro hconverts hdelivers
    obtain ⟨hreports, hkeeps⟩ := hdelivered hconverts
      (newCall_allReports hcall hdelivers)
    rw [hended] at hkeeps
    exact ⟨hreports, hkept.trans hkeeps (Nat.le_refl _)⟩

theorem ExecuteBody.delivered {execution : Program} {buf : JmpBuf}
    {call : ℕ} {run : ErrorRun} {escaped : List Exception}
    {body : Frame × Option Exit}
    (hbody : ExecuteBody (runProgram execution) buf
      (executionFrame buf call run escaped) body)
    (hrun : ∀ buf frame, deliveryRelation.program buf frame
      (runProgram execution buf frame))
    (hstate : (executionFrame buf call run escaped).run.state.Consistent)
    (hcontext : buf.context = .call call) (hcall : call < run.state.calls)
    (hconverts : body.1.run.AllReports FrameReport.Converts)
    (hdelivers : run.AllReports FrameReport.Delivers) :
    body.1.run.AllReports FrameReport.Delivers ∧
      run.state.StaysUnder buf call body.1.run.state body.2 := by
  have hset : run.state.KeepsSlots call
      (executionFrame buf call run escaped).run.state := by
    refine install_keeps (fun other hlt => ?_) (run.state.execute call) _
    rw [hcontext]
    simpa using hlt.ne
  cases hbody with
  | raised error hnum =>
      have hheld : (executionFrame buf call run escaped).run.state.jmp
          buf.context = some buf := install_self _ _ _
      exact ⟨hdelivers, (throw_stays hheld call).after hset (Nat.le_refl _)⟩
  | executed =>
      obtain ⟨hreports, hstays, -⟩ := hrun buf
        (executionFrame buf call run escaped) hstate
        ⟨rfl, ⟨call, hcall, hcontext⟩, install_self _ _ _⟩ hconverts hdelivers
      exact ⟨hreports, hstays.after hset hcall.le⟩

theorem RenderBody.delivered {configuration execution : Program}
    {parsing : Option OwnError} {buf : JmpBuf} {call : ℕ}
    {entered : ErrorRun} {body : Frame × Option Exit}
    (hbody : RenderBody (runProgram configuration) parsing
      (runProgram execution) buf call entered body)
    (hconfiguration : ∀ buf frame, deliveryRelation.program buf frame
      (runProgram configuration buf frame))
    (hexecution : ∀ buf frame, deliveryRelation.program buf frame
      (runProgram execution buf frame))
    (hstate : entered.state.Consistent)
    (hcontext : buf.context = .call call)
    (hcall : call < entered.state.calls)
    (hserial : buf.serial < entered.state.serial)
    (hconverts : body.1.run.AllReports FrameReport.Converts)
    (hdelivers : entered.AllReports FrameReport.Delivers) :
    body.1.run.AllReports FrameReport.Delivers ∧
      entered.state.StaysUnder buf call body.1.run.state body.2 := by
  have hcompile := compile_delivered hconfiguration parsing hstate hcall
  cases hbody with
  | failed pending => exact ⟨hdelivers, KeepsSlots.refl _ _⟩
  | loaded body hbody =>
      have hframe := executionFrame_continues hstate.continues hcall
        hserial []
      exact hbody.delivered hexecution hframe.consistent hcontext hcall
        hconverts hdelivers
  | stopped run report hrun hended =>
      rw [hrun] at hcompile
      obtain ⟨hreports, hkeeps⟩ := hcompile hconverts hdelivers
      refine ⟨hreports, ?_⟩
      cases hexit : report.ended.exit with
      | none => rwa [hexit] at hkeeps
      | some exit =>
          rw [hexit] at hkeeps
          obtain rfl : exit = .crashed := hkeeps
          trivial
  | compiled run report hrun hended body hbody =>
      have hcontinues := compile_continues
        (slotRelation_respected.runProgram configuration) call parsing hstate
      rw [hrun, hended] at hcontinues
      rw [hrun, hended] at hcompile
      obtain ⟨hreports, hkeeps⟩ := hcompile
        (hconverts.of_grows (hbody.grows
          (growthRelation_respected.runProgram execution))) hdelivers
      have hframe := executionFrame_continues hcontinues hcall hserial
        report.escaped
      obtain ⟨hafter, hstays⟩ := hbody.delivered hexecution hframe.consistent
        hcontext (hcall.trans_le hcontinues.precedes.calls) hconverts hreports
      exact ⟨hafter, hstays.after hkeeps (Nat.le_refl _)⟩

theorem render_delivered {configuration execution : Program}
    (hconfiguration : ∀ buf frame, deliveryRelation.program buf frame
      (runProgram configuration buf frame))
    (hexecution : ∀ buf frame, deliveryRelation.program buf frame
      (runProgram execution buf frame))
    (start : RenderStart) (parsing : Option OwnError)
    (context : Option Zval) (run : ErrorRun) :
    deliveryRelation.entry run
      (run.render start (runProgram configuration) parsing context
        (runProgram execution)) := by
  intro hstate
  obtain ⟨call, made, buf, entered, body, hcall, hnew, hbody, hclose⟩ :=
    render_cases run start (runProgram configuration) parsing context
      (runProgram execution)
  rw [hclose]
  intro hconverts hdelivers
  replace hconverts := hconverts.of_grows (closeFrame_grows buf none
    run.state .runtimeException (fun state => state.free call) body)
  obtain ⟨rfl, hmade, -, hcontinues⟩ := newCall_continues hstate hcall
  have hentered := newBuf_continues hcontinues.consistent hnew
  have hbuf := newBuf_buf hnew
  have hserial : buf.serial < entered.state.serial := by
    obtain ⟨rfl, rfl⟩ := Prod.mk.inj hnew
    exact Nat.lt_succ_self _
  have hcalls := hentered.precedes.calls
  have hframe := hbody.delivered hconfiguration hexecution
    hentered.consistent (by rw [hbuf]) (by omega) hserial hconverts
    (newBuf_allReports hnew (newCall_allReports hcall hdelivers))
  refine ⟨closeFrame_delivers hframe.1 buf run.state .runtimeException
    (fun state => state.free run.state.calls), ?_⟩
  obtain ⟨after, ended, hcloses, hreport⟩ := closeFrame_closes buf none
    run.state .runtimeException (fun state => state.free run.state.calls)
    body.1 body.2
  rw [hreport]
  obtain rfl | ⟨hended, hkeeps, pending, rfl⟩ := hcloses.of_stays hframe.2
  · rfl
  · simp only [endEntry, Frame.report, hended]
    have hkept : run.state.KeepsSlots run.state.calls entered.state := by
      intro call _
      rw [newBuf_jmp hnew]
      exact newCall_keeps hcall (call + 1) call (Nat.lt_succ_self _)
    exact hkept.trans hkeeps (Nat.le_refl _)

theorem phpHandlebarsThrow_isSome
    {cls : ExceptionClass} {error : LibError} {pending : Option Exception}
    (hpending : error.num = .external → pending.isSome) :
    (phpHandlebarsThrow cls error pending).isSome := by
  unfold phpHandlebarsThrow
  split
  next => exact zendThrowException_isSome _ _ _ _
  next hexternal => exact hpending (by simpa using hexternal)

theorem Closes.delivers {buf : JmpBuf} {frame : Frame}
    {before start after : ErrorState} {bound : ℕ} {exit : Option Exit}
    {ended : FrameEnd} {arguments : OptionsArguments}
    (hcloses : Closes buf .runtimeException
      (ErrorRun.restoreJmp buf (before.jmp buf.context)) frame.run.state exit
      after ended)
    (hstays : start.StaysUnder buf bound frame.run.state exit)
    (hrecords : frame.Records buf exit)
    (hconverts : (frame.report buf (some arguments) before after
      ended).Converts) :
    (frame.report buf (some arguments) before after ended).Delivers := by
  intro given hgiven
  cases hcloses with
  | passed =>
      refine ⟨fun _ => install_self _ _ _, fun raised hraised => ?_⟩
      simp [Frame.report, show frame.raised = [] from hrecords] at hraised
  | caught error =>
      refine ⟨fun _ => install_self _ _ _, fun raised hraised => ?_⟩
      obtain ⟨herror, htarget, hpending⟩ := hrecords.2 raised hraised
      refine ⟨htarget, by rw [herror]; rfl, by rw [herror, hpending]; rfl, ?_⟩
      exact Option.isSome_iff_ne_none.mp
        (phpHandlebarsThrow_isSome hrecords.1)
  | left exit hother =>
      cases exit with
      | crashed =>
          refine ⟨fun hended => by simp [Frame.report, FrameEnd.exit] at hended,
            fun raised hraised => ?_⟩
          exact absurd (hrecords raised hraised)
            ((hconverts given hgiven).2 raised hraised)
      | jumped target error =>
          obtain ⟨rfl, -⟩ := hstays
          exact absurd rfl (hother error)

theorem restoreJmp_keeps {before entered state : ErrorState} {buf : JmpBuf}
    {bound later : ℕ} (hjmp : entered.jmp = before.jmp)
    (hkeeps : (entered.install buf.context (some buf)).KeepsSlots later state)
    (hle : bound ≤ later) :
    before.KeepsSlots bound
      (ErrorRun.restoreJmp buf (before.jmp buf.context) state) := by
  intro call hcall
  by_cases hsame : Context.call call = buf.context
  · rw [hsame]
    exact install_self _ _ _
  · have hstate := hkeeps call (hcall.trans_le hle)
    rw [install_of_ne hsame, hjmp] at hstate
    rw [ErrorRun.restoreJmp, install_of_ne hsame]
    exact hstate

theorem optionsCall_delivered {program : Program}
    (hrun : ∀ buf frame, deliveryRelation.program buf frame
      (runProgram program buf frame))
    (call : ℕ) (programGuid : ℤ) (arguments : OptionsArguments)
    (run : ErrorRun) :
    deliveryRelation.entry run
      (run.optionsCall call programGuid arguments (runProgram program)) := by
  intro hstate
  have houtcome := optionsCall_outcome run call programGuid arguments
    (runProgram program)
  generalize run.optionsCall call programGuid arguments (runProgram program) =
    out at houtcome ⊢
  intro hconverts hdelivers
  cases houtcome with
  | unset pending => exact ⟨hdelivers, KeepsSlots.refl _ _⟩
  | noProgram => exact ⟨hdelivers, KeepsSlots.refl _ _⟩
  | unconverted hexecuting error hconvert buf entered hnew =>
      obtain ⟨after, ended, hcloses, hreport⟩ := closeFrame_closes buf
        (some arguments) run.state .runtimeException id
        (entered.frame.throw (some buf.context) error).1
        (some (entered.frame.throw (some buf.context) error).2)
      rw [hreport] at hconverts
      have hconverted := (hconverts.of_append arguments rfl).1
      simp [hconvert] at hconverted
  | called hexecuting hconvert buf entered hnew =>
      have hstart := newBuf_setjmp_continues hstate hnew
      have hbuf := newBuf_buf hnew
      have hcontext : buf.context = .call call := by rw [hbuf]
      have hcall : call < run.state.calls := by
        by_contra hle
        simp [(hstate.unused call (by omega)).1] at hexecuting
      have hentry := newBuf_allReports hnew hdelivers
      have hjmp := newBuf_jmp hnew
      obtain ⟨after, ended, hcloses, hreport⟩ := closeFrame_closes buf
        (some arguments) run.state .runtimeException
        (ErrorRun.restoreJmp buf (entered.state.jmp buf.context))
        (runProgram program buf (entered.frame.setjmp buf)).1
        (runProgram program buf (entered.frame.setjmp buf)).2
      rw [hreport] at hconverts ⊢
      rw [hjmp] at hcloses
      obtain ⟨hbefore, hconverted⟩ := ErrorRun.allReports_append.mp hconverts
      obtain ⟨hreports, hstays, hrecords⟩ := hrun buf
        (entered.frame.setjmp buf) hstart.consistent
        ⟨rfl, ⟨call, hcall.trans_le hstart.precedes.calls, hcontext⟩,
          install_self _ _ _⟩ hbefore hentry
      refine ⟨hreports.append
        (hcloses.delivers hstays hrecords hconverted) after, ?_⟩
      obtain rfl | ⟨hended, hkeeps, pending, rfl⟩ := hcloses.of_stays hstays
      · rfl
      · simp only [endEntry, Frame.report, hended]
        exact restoreJmp_keeps hjmp hkeeps hstart.precedes.calls

theorem deliveryRelation_respected : deliveryRelation.Respected where
  finish _ _ _ hready _ hdelivers :=
    ⟨hdelivers, KeepsSlots.refl _ _, hready.raised⟩
  raise _ error _ _ hready _ hdelivers :=
    ⟨hdelivers, throw_stays hready.held _, throw_records hready.held
      hready.raised fun hexternal => absurd hexternal error.own⟩
  handler _ _ _ hrun hnext := callHandler_delivered hrun hnext
  ret _ _ _ _ hdelivers := ⟨hdelivers, KeepsSlots.refl _ _⟩
  threw _ _ _ _ hdelivers := ⟨hdelivers, KeepsSlots.refl _ _⟩
  call entry next hentry hnext run := by
    intro hstate
    have hserved := hentry run hstate
    have hcontinues := runEntry_continues entry hstate
    unfold callEntry
    cases hrun : runEntry entry run with
    | mk run' exit =>
        rw [hrun] at hserved hcontinues
        intro hconverts hdelivers
        cases exit with
        | some exit => exact hserved hconverts hdelivers
        | none =>
            have hgrows := growthRelation_respected.runUserCode
              (next run'.state.pending) (run'.setPending none)
            obtain ⟨hreports, hkeeps⟩ := hserved
              (hconverts.of_grows hgrows) hdelivers
            obtain ⟨hafter, hkept⟩ := hnext run'.state.pending
              (run'.setPending none) (hcontinues.consistent.withPending none)
              hconverts hreports
            exact ⟨hafter, hkept.after hkeeps hcontinues.precedes.calls⟩
  newVm _ _ _ hdelivers := ⟨hdelivers, KeepsSlots.refl _ _⟩
  setRegistry partials vm value _ hrun :=
    setRegistry_delivered hrun partials vm value
  vmCompile _ parsing hrun := vmCompile_delivered hrun parsing
  render start _ parsing context _ hconfiguration hexecution :=
    render_delivered hconfiguration hexecution start parsing context
  optionsCall call programGuid arguments _ hrun :=
    optionsCall_delivered hrun call programGuid arguments

theorem moduleInit_delivers (failsPending : Bool)
    (cacheError : Option OwnError) :
    (moduleInit failsPending cacheError).AllReports FrameReport.Delivers := by
  intro report hreport given hgiven
  obtain rfl := List.mem_singleton.mp hreport
  cases cacheError <;> simp at hgiven

/-! ## Delivery -/

theorem FrameReport.Lawful.converts_of_delivers {report : FrameReport}
    (hlawful : report.Lawful) (hdelivers : report.Delivers) :
    report.Converts := by
  intro arguments harguments
  obtain ⟨-, hraised⟩ := hdelivers arguments harguments
  constructor
  · cases hconvert : arguments.convert with
    | ok converted => rfl
    | error error =>
        obtain ⟨raised, hmem, htarget⟩ :=
          hlawful.misdirects arguments harguments error hconvert
        exact absurd (hraised raised hmem).1 htarget
  · intro raised hmem hnull
    have htarget := (hraised raised hmem).1
    rw [raised.null hnull] at htarget
    simp at htarget

/-- In every process, however its calls are nested: every error raised in a
call of `fn` or `inverse` comes to the handler of that call, which leaves one
exception and the handler before it, exactly when the arguments of all these
calls convert and the value handlers under them read nothing which does
not. -/
theorem errors_delivered_iff (failsPending : Bool)
    (cacheError : Option OwnError)
    (script : UserCode) :
    (∀ report ∈ (runProcess failsPending cacheError script).1.reports,
        report.Delivers) ↔
      ∀ report ∈ (runProcess failsPending cacheError script).1.reports,
        report.Converts := by
  constructor
  · intro hdelivers report hreport
    exact (runProcess_lawful failsPending cacheError script report
      hreport).converts_of_delivers (hdelivers report hreport)
  · intro hconverts
    exact (deliveryRelation_respected.runUserCode script
      (moduleInit failsPending cacheError)
      (moduleInit_consistent failsPending cacheError) hconverts
      (moduleInit_delivers failsPending cacheError)).1

def resourceArgument : UserCode :=
  .call (.render .loaded .finish none none
    (.handler (.call closure)
      (.call (.optionsCall 0 0 ⟨some (.resource 1), none⟩ .finish)
        fun _ => .ret .null)
      fun _ => .finish))
    fun _ => .ret .null

/-- The error of the conversion goes to the buffer of `render`, past the
helper which has made the call. -/
theorem conversion_error_passes_call :
    ∃ report ∈ (runProcess false none resourceArgument).1.reports,
      report.buf.owner = .optionsCall ∧ ¬ report.Delivers ∧
        ∃ raised ∈ report.raised,
          raised.target.map JmpBuf.owner = some .render := by
  refine ⟨_, .tail _ (.head _), rfl, fun hdelivers => ?_, _, .head _, rfl⟩
  have htarget := ((hdelivers _ rfl).2 _ (.head _)).1
  have howner := congrArg (Option.map JmpBuf.owner) htarget
  exact absurd howner (by decide)

end PhpHandlebars
