import PhpHandlebars.Guarded
import PhpHandlebars.PrecompiledRender
import Mathlib.Tactic

/-!
# The two compile pipelines

`Compiler::compile` and `VM::compile` each write out the way from a template
to a compiled program.  All `php_handlebars_try` of one function give the same
`jmp_buf`, so that an error comes to the last of them, whichever context it is
raised on.
-/

namespace PhpHandlebars

/-- The calls which can raise an error, with their inputs. -/
inductive PipelineCall (Ast : Type) where
  | processOptions (options : Option Zval)
  | preprocessDelimiters (tmpl : Bytes)
  | parseEx (tmpl : Bytes) (flags : Flags)
  | compileEx (ast : Ast) (flags : Flags) (knownHelpers : Option (List Bytes))

abbrev Pipeline (lib : Library) (Out : Type) : Type :=
  Guarded (PipelineCall lib.Ast) ExceptionClass Stop Out

inductive CompileFailure where
  | fault (fault : Fault)
  | thrown (exception : Option Exception)
  deriving DecidableEq

def phpHandlebarsTry {lib : Library} (cls : ExceptionClass) :
    Pipeline lib Unit :=
  Guarded.install cls

def catchError (cls : ExceptionClass) : Stop → CompileFailure
  | .fault fault => .fault fault
  | .raised error => .thrown (phpHandlebarsThrow cls error none)

/-- `php_handlebars_compile`, behind its first `php_handlebars_try`. -/
def phpHandlebarsCompile (lib : Library) (tmpl : Bytes)
    (options : Option Zval) : Pipeline lib lib.Program := do
  let options := options.map Zval.deref
  let (flags, compiler, _) ← Guarded.call (.processOptions options) <|
    processOptionsZval ⟨∅, some lib.builtinHelpers⟩ none options
  phpHandlebarsTry .compileException
  let tmpl ← if .compat ∈ flags then
      Guarded.call (.preprocessDelimiters tmpl) <|
        orRaise (lib.preprocessDelimiters tmpl)
    else pure tmpl
  phpHandlebarsTry .compileException
  let ast ← Guarded.call (.parseEx tmpl flags) <|
    orRaise (lib.parseEx tmpl flags)
  phpHandlebarsTry .compileException
  Guarded.call (.compileEx ast compiler.flags compiler.knownHelpers) <|
    orRaise (lib.compileEx ast compiler.flags compiler.knownHelpers)

/-- `compile` of the VM class, behind its first `php_handlebars_try` and up to
the compiled program. -/
def vmCompileProgram (lib : Library) (vm : Option VmConfig)
    (helpers : Option Registry) (tmpl : Bytes) (options : Option Zval) :
    Pipeline lib lib.Program := do
  let (flags, compiler, _) ← Guarded.call (.processOptions options) <|
    lib.configure vm helpers options
  let tmpl ← if .compat ∈ flags then
      Guarded.call (.preprocessDelimiters tmpl) <|
        orRaise (lib.preprocessDelimiters tmpl)
    else pure tmpl
  phpHandlebarsTry .compileException
  -- the flags come back from `handlebars_compiler_get_flags`
  let ast ← Guarded.call (.parseEx tmpl compiler.flags) <|
    orRaise (lib.parseEx tmpl compiler.flags)
  phpHandlebarsTry .compileException
  Guarded.call (.compileEx ast compiler.flags compiler.knownHelpers) <|
    orRaise (lib.compileEx ast compiler.flags compiler.knownHelpers)

/-- The calls of a pipeline with their inputs, and the program or the
exception. -/
abbrev PipelineReport (lib : Library) : Type :=
  Traced (PipelineCall lib.Ast) CompileFailure lib.Program

def compilerReport (lib : Library) (tmpl : Bytes) (options : Option Zval) :
    PipelineReport lib :=
  (phpHandlebarsCompile lib tmpl options).report catchError .runtimeException

/-- `VM::compile` has neither a VM nor helpers for `compile`. -/
def vmReport (lib : Library) (tmpl : Bytes) (options : Option Zval) :
    PipelineReport lib :=
  (vmCompileProgram lib none none tmpl options).report catchError
    .runtimeException

/-! ## Behind the options -/

def parseAndCompile (lib : Library) (tmpl : Bytes) (compiler : Compiler) :
    Pipeline lib lib.Program := do
  phpHandlebarsTry .compileException
  let ast ← Guarded.call (.parseEx tmpl compiler.flags) <|
    orRaise (lib.parseEx tmpl compiler.flags)
  phpHandlebarsTry .compileException
  Guarded.call (.compileEx ast compiler.flags compiler.knownHelpers) <|
    orRaise (lib.compileEx ast compiler.flags compiler.knownHelpers)

/-- Both pipelines from the preprocessor on. -/
def compileStages (lib : Library) (tmpl : Bytes) (flags : Flags)
    (compiler : Compiler) : Pipeline lib lib.Program := do
  let tmpl ← if .compat ∈ flags then
      Guarded.call (.preprocessDelimiters tmpl) <|
        orRaise (lib.preprocessDelimiters tmpl)
    else pure tmpl
  parseAndCompile lib tmpl compiler

theorem catchError_eq_iff (error : LibError) :
    catchError .compileException (.raised error) =
        catchError .runtimeException (.raised error) ↔
      error.num = .external := by
  unfold catchError phpHandlebarsThrow
  by_cases hexternal : error.num = .external <;>
    simp [hexternal, zendThrowException]

/-- From the preprocessor on, the handler installed before matters to an error
of the preprocessor alone. -/
theorem compileStages_report_eq_iff (lib : Library) (tmpl : Bytes)
    (flags : Flags) (compiler : Compiler) (first second : ExceptionClass) :
    (compileStages lib tmpl flags compiler).report catchError first =
        (compileStages lib tmpl flags compiler).report catchError second ↔
      (.compat ∈ flags → ∀ error, lib.preprocessDelimiters tmpl = .error error →
        catchError first (.raised error) =
          catchError second (.raised error)) := by
  unfold compileStages parseAndCompile phpHandlebarsTry
  by_cases hcompat : CompilerFlag.compat ∈ flags
  · simp only [hcompat, if_true, forall_const]
    rw [Guarded.report_call_bind_eq_iff]
    constructor
    · intro hagree error herror
      apply hagree.2
      rw [herror, orRaise_error]
    · intro hagree
      constructor
      · intro out _
        rw [Guarded.report_install_bind, Guarded.report_install_bind]
      · intro stop hstop
        cases hresult : lib.preprocessDelimiters tmpl with
        | ok out => simp [hresult] at hstop
        | error error =>
            rw [hresult, orRaise_error] at hstop
            obtain rfl := Except.error.inj hstop
            exact hagree error hresult
  · simp only [hcompat, if_false, false_implies, iff_true]
    rw [Guarded.report_pure_bind, Guarded.report_pure_bind,
      Guarded.report_install_bind, Guarded.report_install_bind]

/-- `Compiler::compile` runs the preprocessor under the handler for compile
errors. -/
theorem compilerReport_eq (lib : Library) (tmpl : Bytes)
    (options : Option HashTable) :
    compilerReport lib tmpl (options.map .array) =
      Traced.call (.processOptions (options.map .array)) (.ok ()) >>= fun _ =>
        (compileStages lib tmpl (optionFlags (options.map .array))
          (lib.optionCompiler (options.map .array))).report catchError
            .compileException := by
  have hderef : (options.map Zval.array).map Zval.deref =
      options.map Zval.array := by
    cases options <;> rfl
  unfold compilerReport phpHandlebarsCompile phpHandlebarsTry
  rw [hderef]
  dsimp only
  rw [processOptionsZval_without_vm, Guarded.report_call_bind]
  rfl

/-- `VM::compile` still has the handler for runtime errors there. -/
theorem vmReport_eq (lib : Library) (tmpl : Bytes) (options : Option Zval) :
    vmReport lib tmpl options =
      Traced.call (.processOptions options) (.ok ()) >>= fun _ =>
        (compileStages lib tmpl (optionFlags options)
          (lib.optionCompiler options)).report catchError
            .runtimeException := by
  unfold vmReport vmCompileProgram
  rw [configure_without_vm, Guarded.report_call_bind]
  rfl

/-! ## Behind the compiled program -/

/-- What `VM::compile` makes of the end of its pipeline. -/
def vmResult (lib : Library) (now : ℕ) :
    Except CompileFailure lib.Program → Except Fault CallResult
  | .error (.fault fault) => .error fault
  | .error (.thrown exception) => .ok ⟨none, exception⟩
  | .ok program =>
      match lib.serialize program with
      | .error error =>
          .ok ⟨none, phpHandlebarsThrow .compileException error none⟩
      | .ok image =>
          .ok ⟨some (enc lib.format (lib.normalizePointers image now).bytes),
            none⟩

/-- The same of the end of `Library.pipeline`. -/
def pipelineResult (lib : Library) (now : ℕ) :
    Except (ExceptionClass × LibError) Bytes → Except Fault CallResult
  | .error (cls, error) => .ok ⟨none, phpHandlebarsThrow cls error none⟩
  | .ok image =>
      .ok ⟨some (enc lib.format (lib.normalizePointers image now).bytes), none⟩

theorem pipelineResult_parse (lib : Library) (now : ℕ) (tmpl : Bytes)
    (compiler : Compiler) (cls : ExceptionClass) :
    pipelineResult lib now (do
        let ast ← Except.mapError (Prod.mk .compileException) <|
          lib.parseEx tmpl compiler.flags
        let program ← Except.mapError (Prod.mk .compileException) <|
          lib.compileEx ast compiler.flags compiler.knownHelpers
        Except.mapError (Prod.mk .compileException) <|
          lib.serialize program) =
      vmResult lib now
        ((parseAndCompile lib tmpl compiler).report catchError cls).result := by
  unfold parseAndCompile phpHandlebarsTry
  rw [Guarded.report_install_bind, Guarded.report_call_bind]
  cases lib.parseEx tmpl compiler.flags with
  | error error => rfl
  | ok ast =>
      rw [orRaise_ok, Traced.bind_of_ok rfl, Guarded.report_install_bind,
        Guarded.report_call]
      cases hcompile :
          lib.compileEx ast compiler.flags compiler.knownHelpers with
      | error error =>
          simp only [Except.mapError, bind, Except.bind, hcompile]
          rfl
      | ok program =>
          simp only [Except.mapError, bind, Except.bind, hcompile]
          cases hserialize : lib.serialize program <;>
            simp [pipelineResult, vmResult, hserialize]

theorem vmCompile_eq_vmResult (lib : Library) (now : ℕ) (tmpl : Bytes)
    (options : Option Zval) :
    vmCompile lib now tmpl options =
      vmResult lib now (vmReport lib tmpl options).result := by
  have hresult : vmCompile lib now tmpl options =
      pipelineResult lib now (lib.pipeline tmpl (optionFlags options)
        (lib.optionCompiler options)) := by
    rw [vmCompile_eq]
    cases lib.pipeline tmpl (optionFlags options)
      (lib.optionCompiler options) <;> rfl
  rw [hresult, vmReport_eq, Traced.bind_of_ok rfl]
  unfold Library.pipeline compileStages
  by_cases hcompat : CompilerFlag.compat ∈ optionFlags options
  · simp only [hcompat, if_true]
    rw [Guarded.report_call_bind]
    cases lib.preprocessDelimiters tmpl with
    | error error => rfl
    | ok source =>
        rw [orRaise_ok, Traced.bind_of_ok rfl]
        exact pipelineResult_parse lib now source _ .runtimeException
  · simp only [hcompat, if_false]
    exact pipelineResult_parse lib now tmpl _ .runtimeException

/-! ## Agreement -/

/-- The option `compat` is there and `true`. -/
def CompatGiven (options : Option HashTable) : Prop :=
  ∃ table ∈ options, ∃ entry,
    zendHashFind table internedCompat = some entry ∧ entry.isTrue

theorem mem_setIfTrue (table : HashTable) (name : Bytes)
    (flag set : CompilerFlag) (flags : Flags) :
    flag ∈ setIfTrue table name set flags ↔
      flag ∈ flags ∨ flag = set ∧ ∃ entry,
        zendHashFind table name = some entry ∧ entry.isTrue := by
  unfold setIfTrue
  cases zendHashFind table name with
  | none => simp
  | some entry =>
      by_cases htrue : entry.isTrue
      · simp [htrue, or_comm]
      · simp [htrue]

theorem compat_mem_dataFlag (table : HashTable) (flags : Flags) :
    .compat ∈ dataFlag table flags ↔ .compat ∈ flags := by
  unfold dataFlag
  split
  · simp
  · simp [mem_setIfTrue]

theorem compat_mem_optionFlags (options : Option HashTable) :
    .compat ∈ optionFlags (options.map .array) ↔ CompatGiven options := by
  unfold CompatGiven
  cases options with
  | none => simp [optionFlags, optionTable]
  | some table =>
      simp only [optionFlags, optionTable, Option.map_some]
      simp [mem_setIfTrue, compat_mem_dataFlag]

/-- The pipelines make the same calls with the same inputs and end alike
exactly when the preprocessor raises no error which becomes an exception. -/
theorem pipelines_agree_iff (lib : Library) (tmpl : Bytes)
    (options : Option HashTable) :
    compilerReport lib tmpl (options.map .array) =
        vmReport lib tmpl (options.map .array) ↔
      (CompatGiven options → ∀ error,
        lib.preprocessDelimiters tmpl = .error error →
          error.num = .external) := by
  rw [compilerReport_eq, vmReport_eq, Traced.bind_of_ok rfl,
    Traced.bind_of_ok rfl, Traced.mk.injEq, List.append_cancel_left_eq,
    ← Traced.ext_iff, compileStages_report_eq_iff, compat_mem_optionFlags]
  simp only [catchError_eq_iff]

def compatOptions : HashTable := [(.string internedCompat, .true)]

/-- A library whose preprocessor rejects every template. -/
def rejectingPreprocessor : Library :=
  { sampleLibrary with
    preprocessDelimiters := fun _ => .error ⟨.error, "Invalid delimiters"⟩ }

/-- One error of the preprocessor, as two classes of exceptions. -/
theorem preprocessor_error_classes :
    (compilerReport rejectingPreprocessor (ascii "{{=}}")
        ((some compatOptions).map .array)).result =
      .error (.thrown (some
        (.made .compileException "Invalid delimiters" .error))) ∧
    (vmReport rejectingPreprocessor (ascii "{{=}}")
        ((some compatOptions).map .array)).result =
      .error (.thrown (some
        (.made .runtimeException "Invalid delimiters" .error))) ∧
    compilerReport rejectingPreprocessor (ascii "{{=}}")
        ((some compatOptions).map .array) ≠
      vmReport rejectingPreprocessor (ascii "{{=}}")
        ((some compatOptions).map .array) := by
  have hcompiler : (compilerReport rejectingPreprocessor (ascii "{{=}}")
      ((some compatOptions).map .array)).result =
        .error (.thrown (some
          (.made .compileException "Invalid delimiters" .error))) := rfl
  have hvm : (vmReport rejectingPreprocessor (ascii "{{=}}")
      ((some compatOptions).map .array)).result =
        .error (.thrown (some
          (.made .runtimeException "Invalid delimiters" .error))) := rfl
  constructor
  · exact hcompiler
  constructor
  · exact hvm
  · intro hagree
    rw [hagree, hvm] at hcompiler
    simp at hcompiler

end PhpHandlebars
