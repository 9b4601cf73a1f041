import PhpHandlebars.CompilerOptions
import Mathlib.Logic.Function.Basic
import Mathlib.Tactic

/-!
# Error handlers

Every `handlebars_context` has one slot for a `jmp_buf`, which the parser, the
compiler and the VM made from it share.  Library errors go to the buffer in
the slot, wherever its owner is on the stack.  Library code reaches user code
through the value handlers, and user code calls the extension again; both are
kept as trees, and a run keeps a report for each C function which owns a
buffer.
-/

namespace PhpHandlebars

/-- The context of the module globals, those of VM objects, and those which
`render` and `VM::compile` make for one call. -/
inductive Context where
  | global
  | vmObject (number : ℕ)
  | call (number : ℕ)
  deriving DecidableEq

/-- The functions which own a `jmp_buf`. -/
inductive Owner where
  | minit
  | compile
  | render
  | setHelpers
  | setPartials
  | optionsCall
  deriving DecidableEq

structure JmpBuf where
  owner : Owner
  context : Context
  serial : ℕ
  deriving DecidableEq

/-- `executing` says whether the VM of a call has begun to execute: before
that there is no `Options` object of it. -/
structure ErrorState where
  /-- `e->jmp` of each context -/
  jmp : Context → Option JmpBuf
  vmObjects : ℕ
  calls : ℕ
  executing : ℕ → Bool
  freed : ℕ → Bool
  serial : ℕ
  /-- `EG(exception)` -/
  pending : Option Exception
  /-- whether `zend_call_function` reports a failure while an exception is
  pending, as it does under PHP 7 -/
  failsPending : Bool

def ErrorState.Alive (state : ErrorState) : Context → Prop
  | .global => True
  | .vmObject number => number < state.vmObjects
  | .call number => number < state.calls ∧ state.freed number = false

/-- An error the library raises by itself: `HANDELBARS_EXTERNAL_ERROR` belongs
to the extension. -/
structure OwnError where
  error : LibError
  own : error.num ≠ .external

/-- What `handlebars_std_zval_call` says of a helper it could not call. -/
structure Callable where
  className : String
  constructor : Option String
  deriving DecidableEq

/-- The class of closures has a private constructor. -/
def closure : Callable where
  className := "Closure"
  constructor := some "__construct"

/-- The callbacks through which an execution gets to user code. -/
inductive HandlerKind where
  | call (callable : Callable)
  | mapFind
  | arrayFind
  | iterate
  | count
  | log
  deriving DecidableEq

/-- How `render` gets its module. -/
inductive RenderStart where
  | failed (cls : ExceptionClass) (message : String)
  | loaded
  | compiled

structure OptionsArguments where
  context : Option Zval
  options : Option Zval

def internedBlockParams : Bytes := ascii "blockParams"

def convertArgument : Option Zval → Except LibError Unit
  | some value => (handlebarsValueFromZval value .null).map fun _ => ()
  | none => return ()

/-- The conversions of `php_handlebars_options_call`, in its order. -/
def OptionsArguments.convert (arguments : OptionsArguments) :
    Except LibError Unit := do
  convertArgument arguments.context
  match arguments.options with
  | some (.array table) => do
      convertArgument (zendHashFind table internedData)
      convertArgument (zendHashFind table internedBlockParams)
  | _ => return ()

mutual

/-- Library code under a handler: it ends, raises an error, or reaches user
code through a value handler, from which it gets a value or NULL. -/
inductive Program where
  | finish
  | raise (error : OwnError)
  | handler (kind : HandlerKind) (userCode : UserCode)
      (next : Option Zval → Program)

/-- User code: it returns, throws, or calls the extension, after which it may
catch what the call has thrown. -/
inductive UserCode where
  | ret (value : Zval)
  | throw (exception : Exception)
  | call (entry : Entry) (next : Option Exception → UserCode)

/-- A call from user code.  `configuration` is what the compiler does until
the template is parsed, `parsing` the error of the rest of it. -/
inductive Entry where
  | newVm
  | setRegistry (partials : Bool) (vm : ℕ) (value : Zval)
      (destructors : UserCode)
  | vmCompile (configuration : Program) (parsing : Option OwnError)
  | render (start : RenderStart) (configuration : Program)
      (parsing : Option OwnError) (context : Option Zval)
      (execution : Program)
  | optionsCall (call : ℕ) (programGuid : ℤ) (arguments : OptionsArguments)
      (program : Program)

end

/-! ## Frames -/

/-- Leaving a function other than by its end. -/
inductive Exit where
  | jumped (target : JmpBuf) (error : LibError)
  | crashed

/-- An error raised while a frame is the innermost one.  The context may be
NULL, and then there is no slot to find a buffer in. -/
structure Raised where
  error : LibError
  context : Option Context
  target : Option JmpBuf
  pending : Option Exception
  null : context = none → target = none

inductive FrameEnd where
  | passed
  | caught (error : LibError)
  | left (exit : Exit)

/-- What became of one function which owns a buffer: the states it found and
left, the exceptions user code threw into it, the errors raised in it, and the
exceptions which were pending when PHP refused to call a helper. -/
structure FrameReport where
  buf : JmpBuf
  arguments : Option OptionsArguments
  before : ErrorState
  after : ErrorState
  escaped : List Exception
  raised : List Raised
  refused : List Exception
  ended : FrameEnd

structure ErrorRun where
  state : ErrorState
  reports : List FrameReport

structure Frame where
  run : ErrorRun
  escaped : List Exception
  raised : List Raised
  refused : List Exception

def ErrorState.install (state : ErrorState) (context : Context)
    (jmp : Option JmpBuf) : ErrorState :=
  { state with jmp := Function.update state.jmp context jmp }

def ErrorState.free (state : ErrorState) (call : ℕ) : ErrorState :=
  { state with freed := Function.update state.freed call true }

def ErrorState.execute (state : ErrorState) (call : ℕ) : ErrorState :=
  { state with executing := Function.update state.executing call true }

def ErrorRun.setPending (run : ErrorRun) (pending : Option Exception) :
    ErrorRun :=
  { run with state := { run.state with pending := pending } }

/-- The `jmp_buf` of a function which is entered. -/
def ErrorRun.newBuf (run : ErrorRun) (owner : Owner) (context : Context) :
    JmpBuf × ErrorRun :=
  (⟨owner, context, run.state.serial⟩,
    { run with state := { run.state with serial := run.state.serial + 1 } })

/-- `handlebars_context_ctor_ex` for one call. -/
def ErrorRun.newCall (run : ErrorRun) : ℕ × ErrorRun :=
  (run.state.calls,
    { run with state := { run.state with calls := run.state.calls + 1 } })

def ErrorRun.frame (run : ErrorRun) : Frame := ⟨run, [], [], []⟩

/-- `handlebars_setjmp_ex`, returning 0. -/
def Frame.setjmp (frame : Frame) (buf : JmpBuf) : Frame :=
  { frame with
    run := { frame.run with
      state := frame.run.state.install buf.context (some buf) } }

/-- `handlebars_throw`: without a buffer the process ends. -/
def Frame.throw (frame : Frame) (context : Option Context)
    (error : LibError) : Frame × Exit :=
  let target := context.bind frame.run.state.jmp
  ({ frame with
      raised := frame.raised ++
        [⟨error, context, target, frame.run.state.pending,
          by rintro rfl; rfl⟩] },
    match target with
    | some buf => .jumped buf error
    | none => .crashed)

/-- The end of a frame: an error which has come to its own buffer becomes an
exception, and goes on to the label `done`. -/
def closeFrame (buf : JmpBuf) (arguments : Option OptionsArguments)
    (before : ErrorState) (cls : ExceptionClass)
    (done : ErrorState → ErrorState) (frame : Frame) (exit : Option Exit) :
    ErrorRun × FrameReport :=
  let close (after : ErrorState) (ended : FrameEnd) :
      ErrorRun × FrameReport :=
    let report : FrameReport := ⟨buf, arguments, before, after,
      frame.escaped, frame.raised, frame.refused, ended⟩
    (⟨after, frame.run.reports ++ [report]⟩, report)
  let state := frame.run.state
  match exit with
  | none => close (done state) .passed
  | some .crashed => close state (.left .crashed)
  | some (.jumped target error) =>
      if target = buf then
        let pending := phpHandlebarsThrow cls error state.pending
        close (done { state with pending := pending }) (.caught error)
      else
        close state (.left (.jumped target error))

def FrameEnd.exit : FrameEnd → Option Exit
  | .passed => none
  | .caught _ => none
  | .left exit => some exit

def endEntry : ErrorRun × FrameReport → ErrorRun × Option Exit
  | (run, report) => (run, report.ended.exit)

/-! ## Value handlers -/

inductive UserCodeEnd where
  | ret (value : Zval)
  | threw (exception : Exception)
  | left (exit : Exit)

/-- Back from user code: an exception it threw is pending. -/
def Frame.returnFrom (frame : Frame) : ErrorRun × UserCodeEnd →
    Frame × Except Exit Zval
  | (run, .ret value) => ({ frame with run := run }, .ok value)
  | (run, .threw exception) =>
      ({ frame with
          run := run.setPending (some exception)
          escaped := frame.escaped ++ [exception] }, .ok .undef)
  | (run, .left exit) => ({ frame with run := run }, .error exit)

/-- The exception which `handlebars_std_zval_call` throws over the pending
one. -/
def Frame.refuse (frame : Frame) (exception : Exception) (message : String) :
    Frame :=
  { frame with
    run := frame.run.setPending
      (zendThrowException .exception message (.other 0) (some exception))
    refused := frame.refused ++ [exception] }

/-- User code which is not run, because an exception is pending.  Only
`handlebars_std_zval_call` looks whether that is a failure, and it reads the
name of a constructor which the class need not have. -/
def Frame.callFails (frame : Frame) (exception : Exception) :
    HandlerKind → Frame × Except Exit Zval
  | .call callable =>
      if frame.run.state.failsPending then
        match callable.constructor with
        | some name =>
            (frame.refuse exception ("Could not execute " ++
              callable.className ++ "::" ++ name ++ "()"), .ok .undef)
        | none =>
            ({ frame with refused := frame.refused ++ [exception] },
              .error .crashed)
      else
        (frame, .ok .undef)
  | _ => (frame, .ok .undef)

def Frame.fail {Out : Type} (frame : Frame) (context : Option Context)
    (error : LibError) : Frame × Except Exit Out :=
  let (frame, exit) := frame.throw context error
  (frame, .error exit)

/-- The value handlers behind the call of user code.  Only
`handlebars_std_zval_call` looks at the pending exception; the others give
NULL.  Their conversion errors are raised on `user.ctx`, which is NULL. -/
def handlerReturn (kind : HandlerKind) (context : Context) (value : Zval)
    (frame : Frame) : Frame × Except Exit (Option Zval) :=
  match kind with
  | .call _ =>
      match handlebarsValueFromZval value .null with
      | .error error => frame.fail (some context) error
      | .ok _ =>
          if frame.run.state.pending.isSome then
            frame.fail (some context) externalError
          else
            (frame, .ok (some value))
  | .count => (frame, .ok (some value))
  | .log => (frame, .ok (some value))
  | .mapFind | .arrayFind | .iterate =>
      if frame.run.state.pending.isSome then
        (frame, .ok none)
      else
        match handlebarsValueFromZval value .null with
        | .error error => frame.fail none error
        | .ok _ => (frame, .ok (some value))

/-! ## Entry points

A part of the run which belongs to a tree below is an argument. -/

abbrev RunsUserCode := ErrorRun → ErrorRun × UserCodeEnd

abbrev RunsProgram := JmpBuf → Frame → Frame × Option Exit

def raiseError (buf : JmpBuf) (error : OwnError) (frame : Frame) :
    Frame × Option Exit :=
  let (frame, exit) := frame.throw (some buf.context) error.error
  (frame, some exit)

/-- The way to user code and back: PHP does not run it while an exception is
pending. -/
def Frame.reach (frame : Frame) (kind : HandlerKind)
    (userCode : RunsUserCode) : Frame × Except Exit Zval :=
  match frame.run.state.pending with
  | some exception => frame.callFails exception kind
  | none => frame.returnFrom (userCode frame.run)

/-- A value handler, and the library code behind it. -/
def callHandler (kind : HandlerKind) (userCode : RunsUserCode)
    (next : Option Zval → RunsProgram) : RunsProgram :=
  fun buf frame =>
    match frame.reach kind userCode with
    | (frame, .error exit) => (frame, some exit)
    | (frame, .ok value) =>
        match handlerReturn kind buf.context value frame with
        | (frame, .error exit) => (frame, some exit)
        | (frame, .ok result) => next result buf frame

def callEntry (entry : ErrorRun → ErrorRun × Option Exit)
    (next : Option Exception → RunsUserCode) : RunsUserCode :=
  fun run =>
    match entry run with
    | (run, some exit) => (run, .left exit)
    | (run, none) => next run.state.pending (run.setPending none)

namespace ErrorRun

def newVm (run : ErrorRun) : ErrorRun :=
  { run with state := { run.state with vmObjects := run.state.vmObjects + 1 } }

/-- `done` of `setHelpers` and `setPartials`. -/
def clearJmp (buf : JmpBuf) (state : ErrorState) : ErrorState :=
  state.install buf.context none

/-- `php_handlebars_vm_set_helpers` and `php_handlebars_vm_set_partials`:
the value before may have destructors. -/
def setRegistry (run : ErrorRun) (partials : Bool) (vm : ℕ) (value : Zval)
    (destructors : RunsUserCode) : ErrorRun × Option Exit :=
  if run.state.vmObjects ≤ vm then
    (run, some .crashed)
  else
    let owner := if partials then .setPartials else .setHelpers
    let (buf, entered) := run.newBuf owner (.vmObject vm)
    let frame := entered.frame.setjmp buf
    let close (frame : Frame) (exit : Option Exit) :=
      endEntry (closeFrame buf none run.state .runtimeException
        (clearJmp buf) frame exit)
    match handlebarsValueFromZval value .null with
    | .error error =>
        let (frame, exit) := frame.throw (some buf.context) error
        close frame (some exit)
    | .ok _ =>
        match frame.returnFrom (destructors frame.run) with
        | (frame, .error exit) => close frame (some exit)
        | (frame, .ok _) => close frame none

/-- `compile`, on the context of a call. -/
def compile (run : ErrorRun) (call : ℕ) (configuration : RunsProgram)
    (parsing : Option OwnError) : ErrorRun × FrameReport :=
  let (buf, entered) := run.newBuf .compile (.call call)
  match configuration buf (entered.frame.setjmp buf) with
  | (frame, some exit) =>
      closeFrame buf none run.state .runtimeException id frame (some exit)
  | (frame, none) =>
      let frame := frame.setjmp buf
      match parsing with
      | none =>
          closeFrame buf none run.state .compileException id frame none
      | some error =>
          let (frame, exit) := raiseError buf error frame
          closeFrame buf none run.state .compileException id frame exit

/-- The method `VM::compile`. -/
def vmCompile (run : ErrorRun) (configuration : RunsProgram)
    (parsing : Option OwnError) : ErrorRun × Option Exit :=
  let (call, made) := run.newCall
  let (run, report) := made.compile call configuration parsing
  match report.ended with
  | .left exit => (run, some exit)
  | _ => ({ run with state := run.state.free call }, none)

/-- `render` with a module. -/
def executeModule (buf : JmpBuf) (call : ℕ) (context : Option Zval)
    (execution : RunsProgram) (run : ErrorRun) (escaped : List Exception) :
    Frame × Option Exit :=
  let executing : ErrorRun := { run with state := run.state.execute call }
  let frame := (Frame.mk executing escaped [] []).setjmp buf
  match convertArgument (context.map Zval.deref) with
  | .error error =>
      let (frame, exit) := frame.throw (some buf.context) error
      (frame, some exit)
  | .ok _ => execution buf frame

/-- The methods `render`, `renderFile` and `renderFromBinaryString`.  What
became of the `compile` they call counts as theirs. -/
def render (run : ErrorRun) (start : RenderStart)
    (configuration : RunsProgram) (parsing : Option OwnError)
    (context : Option Zval) (execution : RunsProgram) :
    ErrorRun × Option Exit :=
  let (call, made) := run.newCall
  let (buf, entered) := made.newBuf .render (.call call)
  let close : Frame × Option Exit → ErrorRun × Option Exit
    | (frame, exit) => endEntry (closeFrame buf none run.state
        .runtimeException (fun state => state.free call) frame exit)
  match start with
  | .failed cls message =>
      let pending := zendThrowException cls message (.other 0)
        entered.state.pending
      close ((entered.setPending pending).frame, none)
  | .loaded => close (executeModule buf call context execution entered [])
  | .compiled =>
      let (run, report) := entered.compile call configuration parsing
      match report.ended with
      | .left exit =>
          close (⟨run, report.escaped, report.raised, report.refused⟩,
            some exit)
      | .caught _ =>
          close (⟨run, report.escaped, report.raised, report.refused⟩, none)
      | .passed =>
          close (executeModule buf call context execution run report.escaped)

/-- `done` of `php_handlebars_options_call`. -/
def restoreJmp (buf : JmpBuf) (prev : Option JmpBuf) (state : ErrorState) :
    ErrorState :=
  state.install buf.context prev

/-- `php_handlebars_options_call`. -/
def optionsCall (run : ErrorRun) (call : ℕ) (programGuid : ℤ)
    (arguments : OptionsArguments) (program : RunsProgram) :
    ErrorRun × Option Exit :=
  if run.state.executing call = false ∨ run.state.freed call then
    -- the destructor of the VM has cleared `intern->vm`
    (run.setPending (zendThrowException .runtimeException "fn is not set"
      (.other 0) run.state.pending), none)
  else if programGuid < 0 then
    (run, none)
  else
    let (buf, entered) := run.newBuf .optionsCall (.call call)
    match arguments.convert with
    | .error error =>
        let (frame, exit) := entered.frame.throw (some buf.context) error
        endEntry (closeFrame buf (some arguments) run.state
          .runtimeException id frame (some exit))
    | .ok _ =>
        let prev := entered.state.jmp buf.context
        let (frame, exit) := program buf (entered.frame.setjmp buf)
        endEntry (closeFrame buf (some arguments) run.state
          .runtimeException (restoreJmp buf prev) frame exit)

end ErrorRun

/-! ## Runs -/

mutual

def runProgram : Program → RunsProgram
  | .finish => fun _ frame => (frame, none)
  | .raise error => fun buf frame => raiseError buf error frame
  | .handler kind userCode next =>
      callHandler kind (runUserCode userCode)
        fun value => runProgram (next value)

def runUserCode : UserCode → RunsUserCode
  | .ret value => fun run => (run, .ret value)
  | .throw exception => fun run => (run, .threw exception)
  | .call entry next =>
      callEntry (runEntry entry) fun pending => runUserCode (next pending)

def runEntry : Entry → ErrorRun → ErrorRun × Option Exit
  | .newVm => fun run => (run.newVm, none)
  | .setRegistry partials vm value destructors => fun run =>
      run.setRegistry partials vm value (runUserCode destructors)
  | .vmCompile configuration parsing => fun run =>
      run.vmCompile (runProgram configuration) parsing
  | .render start configuration parsing context execution => fun run =>
      run.render start (runProgram configuration) parsing context
        (runProgram execution)
  | .optionsCall call programGuid arguments program => fun run =>
      run.optionsCall call programGuid arguments (runProgram program)

end

/-- `PHP_MINIT_FUNCTION(handlebars)`: an error of the cache constructor comes
back to the same buffer, and disables the cache. -/
def moduleInit (failsPending : Bool) (cacheError : Option OwnError) :
    ErrorRun :=
  let buf : JmpBuf := ⟨.minit, .global, 0⟩
  let before : ErrorState :=
    { jmp := fun _ => none
      vmObjects := 0
      calls := 0
      executing := fun _ => false
      freed := fun _ => false
      serial := 0
      pending := none
      failsPending := failsPending }
  let after := { before with serial := 1 }.install .global (some buf)
  let report : FrameReport := match cacheError with
    | none => ⟨buf, none, before, after, [], [], [], .passed⟩
    | some error => ⟨buf, none, before, after, [],
        [⟨error.error, some .global, some buf, none, by simp⟩], [],
        .caught error.error⟩
  ⟨after, [report]⟩

/-- A process: module initialisation, and the PHP script. -/
def runProcess (failsPending : Bool) (cacheError : Option OwnError)
    (script : UserCode) : ErrorRun × UserCodeEnd :=
  runUserCode script (moduleInit failsPending cacheError)

end PhpHandlebars
