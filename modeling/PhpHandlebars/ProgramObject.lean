import PhpHandlebars.CompilerOptions
import Mathlib.Data.List.Forall2
import Mathlib.Tactic

/-!
# Compiled programs as PHP objects

`Compiler::compile` returns the program as objects of the classes
`Handlebars\Program` and `Handlebars\Opcode`, which hold one another by value.
-/

namespace PhpHandlebars

inductive ProgramClass where
  | opcode
  | program
  deriving DecidableEq

/-- A PHP value with everything it holds. -/
inductive PhpValue where
  | null
  | bool (value : Bool)
  | long (value : ℤ)
  | string (value : Bytes)
  | list (items : List PhpValue)
  | object (cls : ProgramClass) (properties : List (String × PhpValue))

def assignProperty (properties : List (String × PhpValue)) (name : String)
    (value : PhpValue) : List (String × PhpValue) :=
  match properties with
  | [] => [(name, value)]
  | (other, old) :: rest =>
      if other = name then (other, value) :: rest
      else (other, old) :: assignProperty rest name value

theorem assignProperty_self (name : String) (old value : PhpValue)
    (rest : List (String × PhpValue)) :
    assignProperty ((name, old) :: rest) name value = (name, value) :: rest := by
  simp [assignProperty]

theorem assignProperty_of_ne {other name : String} (hne : other ≠ name)
    (old value : PhpValue) (rest : List (String × PhpValue)) :
    assignProperty ((other, old) :: rest) name value =
      (other, old) :: assignProperty rest name value := by
  simp [assignProperty, hne]

def zendUpdateProperty (object : PhpValue) (name : String)
    (value : PhpValue) : PhpValue :=
  match object with
  | .object cls properties =>
      .object cls (assignProperty properties name value)
  | value => value

/-- `object_init_ex` with the declared properties. -/
def objectInitEx : ProgramClass → PhpValue
  | .opcode => .object .opcode [("opcode", .null), ("args", .null)]
  | .program =>
      .object .program
        [("opcodes", .null), ("children", .null), ("decorators", .null),
          ("isSimple", .bool false), ("useDepths", .bool false),
          ("usePartial", .bool false), ("useDecorators", .bool false),
          ("blockParams", .long 0), ("stringParams", .bool false),
          ("trackIds", .bool false)]

/-- `HandlebarsOpcode::__construct`. -/
def opcodeConstruct (this : PhpValue) (opcode : Bytes)
    (args : List PhpValue) : PhpValue :=
  let this := zendUpdateProperty this "opcode" (.string opcode)
  zendUpdateProperty this "args" (.list args)

/-- `HandlebarsProgram::__construct`. -/
def programConstruct (this : PhpValue) (opcodes children : List PhpValue)
    (blockParams : ℤ) : PhpValue :=
  let this := zendUpdateProperty this "opcodes" (.list opcodes)
  let this := zendUpdateProperty this "children" (.list children)
  zendUpdateProperty this "blockParams" (.long blockParams)

/-! ## Opcodes -/

def intMax : ℕ := 2 ^ 31 - 1

/-- A `size_t` which is assigned to an `int`. -/
def intOfSize (size : ℕ) : ℤ :=
  (size : ℤ).bmod (2 ^ 32)

inductive HandlebarsOperand where
  | null
  | boolean (boolval : Bool)
  | long (longval : ℤ)
  | string (string : Bytes)
  | array (array : {array : List Bytes // array.length ≤ intMax})

structure HandlebarsOpcode (Kind : Type) where
  type : Kind
  op1 : HandlebarsOperand
  op2 : HandlebarsOperand
  op3 : HandlebarsOperand
  op4 : HandlebarsOperand

/-- What the library says about the types of opcodes. -/
structure OpcodeTable (Kind : Type) where
  readableType : Kind → Bytes
  numOperands : Kind → ℕ
  invokeAmbiguous : Kind
  readableType_injective : Function.Injective readableType

def HandlebarsOperand.isNull : HandlebarsOperand → Bool
  | .null => true
  | _ => false

def phpHandlebarsOperandAppendZval (operand : HandlebarsOperand)
    (arr : List PhpValue) : List PhpValue :=
  match operand with
  | .null => arr ++ [.null]
  | .boolean boolval => arr ++ [.bool boolval]
  | .long longval => arr ++ [.long longval]
  | .string string => arr ++ [.string string]
  | .array array =>
      let len := intOfSize array.val.length
      arr ++ [.list ((array.val.take len.toNat).map .string)]

section

variable {Kind : Type} [DecidableEq Kind] (table : OpcodeTable Kind)

def phpHandlebarsOpcodeToZval (opcode : HandlebarsOpcode Kind) : PhpValue :=
  let num := table.numOperands opcode.type
  let args := []
  let args := if num ≥ 1 then
      phpHandlebarsOperandAppendZval opcode.op1 args else args
  let args := if num ≥ 2 then
      phpHandlebarsOperandAppendZval opcode.op2 args else args
  let args := if num ≥ 3 then
      if opcode.type = table.invokeAmbiguous ∧ opcode.op3.isNull then args
      else phpHandlebarsOperandAppendZval opcode.op3 args
    else args
  let args := if num ≥ 4 then
      phpHandlebarsOperandAppendZval opcode.op4 args else args
  opcodeConstruct (objectInitEx .opcode) (table.readableType opcode.type) args

def phpHandlebarsOpcodesToZval (opcodes : List (HandlebarsOpcode Kind)) :
    List PhpValue :=
  opcodes.map (phpHandlebarsOpcodeToZval table)

end

/-! ## Programs -/

/-- `enum handlebars_compiler_result_flag`. -/
inductive ResultFlag where
  | useDepths
  | usePartial
  | isSimple
  | useDecorators
  deriving DecidableEq

structure HandlebarsProgram (Kind : Type) where
  opcodes : List (HandlebarsOpcode Kind)
  children : List (HandlebarsProgram Kind)
  decorators : List (HandlebarsProgram Kind)
  blockParams : ℤ
  flags : Flags
  resultFlags : Finset ResultFlag

/-- One of the blocks which set a property for a flag. -/
def updateFlag (set : Bool) (current : PhpValue) (name : String) : PhpValue :=
  if set then zendUpdateProperty current name (.bool true) else current

section

variable {Kind : Type} [DecidableEq Kind] (table : OpcodeTable Kind)

mutual

def phpHandlebarsProgramToZval : HandlebarsProgram Kind → PhpValue
  | ⟨opcodes, children, decorators, blockParams, flags, resultFlags⟩ =>
      let current := programConstruct (objectInitEx .program)
        (phpHandlebarsOpcodesToZval table opcodes)
        (phpHandlebarsProgramsToZval children) blockParams
      let current := updateFlag (.useDepths ∈ resultFlags) current "useDepths"
      let current :=
        updateFlag (.usePartial ∈ resultFlags) current "usePartial"
      let current :=
        updateFlag (.useDecorators ∈ resultFlags) current "useDecorators"
      let current := updateFlag (.stringParams ∈ flags) current "stringParams"
      let current := updateFlag (.trackIds ∈ flags) current "trackIds"
      if .alternateDecorators ∈ flags then
        zendUpdateProperty current "decorators"
          (.list (phpHandlebarsProgramsToZval decorators))
      else current

def phpHandlebarsProgramsToZval : List (HandlebarsProgram Kind) →
    List PhpValue
  | [] => []
  | child :: rest =>
      phpHandlebarsProgramToZval child :: phpHandlebarsProgramsToZval rest

end

end

/-! ## Operands -/

theorem intOfSize_of_le {size : ℕ} (hsize : size ≤ intMax) :
    intOfSize size = size := by
  unfold intMax at hsize
  unfold intOfSize
  apply Int.bmod_eq_of_le <;> omega

/-- The value which is appended for an operand. -/
def operandZval : HandlebarsOperand → PhpValue
  | .null => .null
  | .boolean boolval => .bool boolval
  | .long longval => .long longval
  | .string string => .string string
  | .array array => .list (array.val.map .string)

theorem operandAppend_eq (operand : HandlebarsOperand) (arr : List PhpValue) :
    phpHandlebarsOperandAppendZval operand arr =
      arr ++ [operandZval operand] := by
  cases operand with
  | array array =>
      have hlen := intOfSize_of_le array.property
      simp only [phpHandlebarsOperandAppendZval, operandZval, hlen,
        Int.toNat_natCast, List.take_length]
  | _ => rfl

theorem operandAppend_if (p : Prop) [Decidable p] (operand : HandlebarsOperand)
    (args : List PhpValue) :
    (if p then phpHandlebarsOperandAppendZval operand args else args) =
      args ++ if p then [operandZval operand] else [] := by
  by_cases hp : p
  · rw [if_pos hp, if_pos hp, operandAppend_eq]
  · rw [if_neg hp, if_neg hp, List.append_nil]

theorem operandZval_injective : Function.Injective operandZval := by
  intro first second heq
  have hstring : Function.Injective PhpValue.string := by
    intro left right hvalues
    exact PhpValue.string.inj hvalues
  cases first with
  | array array =>
      cases second with
      | array other =>
          have hitems := PhpValue.list.inj heq
          rw [(List.map_injective_iff.mpr hstring).eq_iff] at hitems
          rw [Subtype.ext hitems]
      | _ => simp [operandZval] at heq
  | _ => cases second <;> simp_all [operandZval]

theorem operandZval_eq_null_iff (operand : HandlebarsOperand) :
    operand.isNull = true ↔ operand = .null := by
  cases operand <;> simp [HandlebarsOperand.isNull]

/-! ## What an opcode object determines -/

section

variable {Kind : Type} [DecidableEq Kind] (table : OpcodeTable Kind)

/-- The third operand of `invoke_ambiguous` is left out when it is null. -/
def omitsThird (opcode : HandlebarsOpcode Kind) : Prop :=
  opcode.type = table.invokeAmbiguous ∧ opcode.op3 = .null

instance (opcode : HandlebarsOpcode Kind) :
    Decidable (omitsThird table opcode) :=
  decidable_of_iff
    (opcode.type = table.invokeAmbiguous ∧ opcode.op3.isNull = true) (by
      rw [operandZval_eq_null_iff]
      rfl)

def opcodeArgs (opcode : HandlebarsOpcode Kind) : List PhpValue :=
  let num := table.numOperands opcode.type
  (if num ≥ 1 then [operandZval opcode.op1] else []) ++
    ((if num ≥ 2 then [operandZval opcode.op2] else []) ++
      ((if num ≥ 3 ∧ ¬omitsThird table opcode then [operandZval opcode.op3]
          else []) ++
        if num ≥ 4 then [operandZval opcode.op4] else []))

theorem opcodeToZval_eq (opcode : HandlebarsOpcode Kind) :
    phpHandlebarsOpcodeToZval table opcode =
      .object .opcode
        [("opcode", .string (table.readableType opcode.type)),
          ("args", .list (opcodeArgs table opcode))] := by
  have homits : (opcode.type = table.invokeAmbiguous ∧
      opcode.op3.isNull = true) ↔ omitsThird table opcode := by
    rw [operandZval_eq_null_iff]
    rfl
  have hargs : ∀ args : List PhpValue,
      opcodeConstruct (objectInitEx .opcode)
          (table.readableType opcode.type) args =
        .object .opcode
          [("opcode", .string (table.readableType opcode.type)),
            ("args", .list args)] := by
    intro args
    rfl
  have hthird : ∀ args : List PhpValue,
      (if table.numOperands opcode.type ≥ 3 then
        if omitsThird table opcode then args
        else phpHandlebarsOperandAppendZval opcode.op3 args
      else args) =
        args ++ if table.numOperands opcode.type ≥ 3 ∧
            ¬omitsThird table opcode then [operandZval opcode.op3] else [] := by
    intro args
    rw [← operandAppend_if]
    by_cases homit : omitsThird table opcode <;> simp [homit]
  unfold phpHandlebarsOpcodeToZval opcodeArgs
  simp only [homits, hthird, operandAppend_if, hargs, List.nil_append,
    List.append_assoc]

/-- The same type, and the same operands as far as the type has them. -/
structure SameOpcode (first second : HandlebarsOpcode Kind) : Prop where
  type : first.type = second.type
  op1 : table.numOperands first.type ≥ 1 → first.op1 = second.op1
  op2 : table.numOperands first.type ≥ 2 → first.op2 = second.op2
  op3 : table.numOperands first.type ≥ 3 → first.op3 = second.op3
  op4 : table.numOperands first.type ≥ 4 → first.op4 = second.op4

variable {table} {first second : HandlebarsOpcode Kind}

/-- Where the third operand belongs, present or left out, it can be read off
the arguments. -/
theorem thirdOperand_eq_iff (htype : first.type = second.type)
    (rest rest' : List PhpValue) (hrest : rest.length = rest'.length) :
    (if ¬omitsThird table first then [operandZval first.op3] else []) ++ rest =
        (if ¬omitsThird table second then [operandZval second.op3] else []) ++
          rest' ↔
      first.op3 = second.op3 ∧ rest = rest' := by
  by_cases hfirst : omitsThird table first
  · by_cases hsecond : omitsThird table second
    · simp [hfirst, hsecond, hfirst.2, hsecond.2]
    · have hop : first.op3 ≠ second.op3 := by
        intro heq
        exact hsecond ⟨htype ▸ hfirst.1, heq ▸ hfirst.2⟩
      apply iff_of_false
      · intro heq
        have hlength := congrArg List.length heq
        simp [hfirst, hsecond] at hlength
        omega
      · simp [hop]
  · by_cases hsecond : omitsThird table second
    · have hop : first.op3 ≠ second.op3 := by
        intro heq
        exact hfirst ⟨htype ▸ hsecond.1, heq ▸ hsecond.2⟩
      apply iff_of_false
      · intro heq
        have hlength := congrArg List.length heq
        simp [hfirst, hsecond] at hlength
        omega
      · simp [hop]
    · simp [hfirst, hsecond, operandZval_injective.eq_iff]

theorem opcodeArgs_eq_iff (htype : first.type = second.type) :
    opcodeArgs table first = opcodeArgs table second ↔
      SameOpcode table first second := by
  have hsame : SameOpcode table first second ↔
      (table.numOperands first.type ≥ 1 → first.op1 = second.op1) ∧
        (table.numOperands first.type ≥ 2 → first.op2 = second.op2) ∧
        (table.numOperands first.type ≥ 3 → first.op3 = second.op3) ∧
        (table.numOperands first.type ≥ 4 → first.op4 = second.op4) := by
    constructor
    · intro hsame
      exact ⟨hsame.op1, hsame.op2, hsame.op3, hsame.op4⟩
    · intro hoperands
      obtain ⟨hop1, hop2, hop3, hop4⟩ := hoperands
      exact ⟨htype, hop1, hop2, hop3, hop4⟩
  rw [hsame]
  unfold opcodeArgs
  rw [← htype]
  generalize table.numOperands first.type = num
  have hnum : num = 0 ∨ num = 1 ∨ num = 2 ∨ num ≥ 3 := by omega
  rcases hnum with rfl | rfl | rfl | hthree
  · simp
  · simp [operandZval_injective.eq_iff]
  · simp [operandZval_injective.eq_iff]
  · have hone : num ≥ 1 := by omega
    have htwo : num ≥ 2 := by omega
    have hlength : ∀ op op' : HandlebarsOperand,
        (if num ≥ 4 then [operandZval op] else []).length =
          (if num ≥ 4 then [operandZval op'] else []).length := by
      intro op op'
      split <;> rfl
    simp only [hone, htwo, hthree, if_true, true_and, forall_const,
      List.cons_append, List.nil_append, List.cons.injEq,
      operandZval_injective.eq_iff]
    rw [thirdOperand_eq_iff htype _ _ (hlength first.op4 second.op4)]
    by_cases hfour : num ≥ 4
    · simp [hfour, operandZval_injective.eq_iff]
    · simp [hfour]

theorem opcodeToZval_eq_iff :
    phpHandlebarsOpcodeToZval table first =
        phpHandlebarsOpcodeToZval table second ↔
      SameOpcode table first second := by
  rw [opcodeToZval_eq, opcodeToZval_eq]
  constructor
  · intro heq
    simp only [PhpValue.object.injEq, List.cons.injEq, Prod.mk.injEq,
      PhpValue.string.injEq, PhpValue.list.injEq, true_and, and_true] at heq
    have htype := table.readableType_injective heq.1
    exact (opcodeArgs_eq_iff htype).mp heq.2
  · intro hsame
    rw [hsame.type, (opcodeArgs_eq_iff hsame.type).mpr hsame]

end

/-! ## What a program object determines -/

theorem map_eq_map_iff_forall₂ {α β : Type} {f : α → β} {R : α → α → Prop}
    {l l' : List α} (hf : ∀ a ∈ l, ∀ b, f a = f b ↔ R a b) :
    l.map f = l'.map f ↔ List.Forall₂ R l l' := by
  induction l generalizing l' with
  | nil => cases l' <;> simp
  | cons a rest ih =>
      cases l' with
      | nil => simp
      | cons b rest' =>
          have hrest : rest.map f = rest'.map f ↔ List.Forall₂ R rest rest' :=
            ih fun member hmember => hf member (List.mem_cons_of_mem a hmember)
          rw [List.map_cons, List.map_cons, List.cons.injEq,
            List.forall₂_cons, hf a List.mem_cons_self, hrest]

theorem programInduction {Kind : Type} {motive : HandlebarsProgram Kind → Prop}
    (node : ∀ program, (∀ child ∈ program.children, motive child) →
      (∀ decorator ∈ program.decorators, motive decorator) → motive program)
    (program : HandlebarsProgram Kind) : motive program := by
  apply HandlebarsProgram.rec (motive_1 := motive)
    (motive_2 := fun programs => ∀ member ∈ programs, motive member)
  · intro opcodes children decorators blockParams flags resultFlags hchildren
      hdecorators
    exact node _ hchildren hdecorators
  · intro member hmember
    exact absurd hmember List.not_mem_nil
  · intro head tail hhead htail member hmember
    rcases List.mem_cons.mp hmember with rfl | htailed
    · exact hhead
    · exact htail member htailed

section

variable {Kind : Type} [DecidableEq Kind] (table : OpcodeTable Kind)

theorem programsToZval_eq (programs : List (HandlebarsProgram Kind)) :
    phpHandlebarsProgramsToZval table programs =
      programs.map (phpHandlebarsProgramToZval table) := by
  induction programs with
  | nil => rfl
  | cons program rest ih =>
      rw [phpHandlebarsProgramsToZval, List.map_cons, ih]

def markProperty (set : Bool) (properties : List (String × PhpValue))
    (name : String) : List (String × PhpValue) :=
  if set then assignProperty properties name (.bool true) else properties

theorem updateFlag_object (set : Bool) (cls : ProgramClass)
    (properties : List (String × PhpValue)) (name : String) :
    updateFlag set (.object cls properties) name =
      .object cls (markProperty set properties name) := by
  cases set <;> rfl

theorem markProperty_self (set : Bool) (rest : List (String × PhpValue))
    (name : String) :
    markProperty set ((name, .bool false) :: rest) name =
      (name, .bool set) :: rest := by
  cases set <;> simp [markProperty, assignProperty_self]

theorem markProperty_of_ne (set : Bool) {other name : String}
    (hne : other ≠ name) (old : PhpValue) (rest : List (String × PhpValue)) :
    markProperty set ((other, old) :: rest) name =
      (other, old) :: markProperty set rest name := by
  cases set <;> simp [markProperty, assignProperty_of_ne hne]

/-- Every property of a program object. -/
theorem programToZval_eq (program : HandlebarsProgram Kind) :
    phpHandlebarsProgramToZval table program =
      .object .program
        [("opcodes", .list (phpHandlebarsOpcodesToZval table program.opcodes)),
          ("children", .list
            (program.children.map (phpHandlebarsProgramToZval table))),
          ("decorators",
            if .alternateDecorators ∈ program.flags then .list
              (program.decorators.map (phpHandlebarsProgramToZval table))
            else .null),
          ("isSimple", .bool false),
          ("useDepths", .bool (.useDepths ∈ program.resultFlags)),
          ("usePartial", .bool (.usePartial ∈ program.resultFlags)),
          ("useDecorators", .bool (.useDecorators ∈ program.resultFlags)),
          ("blockParams", .long program.blockParams),
          ("stringParams", .bool (.stringParams ∈ program.flags)),
          ("trackIds", .bool (.trackIds ∈ program.flags))] := by
  obtain ⟨opcodes, children, decorators, blockParams, flags, resultFlags⟩ :=
    program
  rw [phpHandlebarsProgramToZval, programsToZval_eq, programsToZval_eq]
  simp only [programConstruct, objectInitEx, zendUpdateProperty,
    updateFlag_object]
  simp (disch := simp) only [assignProperty_self, assignProperty_of_ne,
    markProperty_self, markProperty_of_ne]
  by_cases halternate : CompilerFlag.alternateDecorators ∈ flags
  · rw [if_pos halternate, if_pos halternate]
  · rw [if_neg halternate, if_neg halternate]

/-- Two programs which agree in everything the object of a program shows; the
decorators count only under the flag. -/
inductive SameProgram :
    HandlebarsProgram Kind → HandlebarsProgram Kind → Prop where
  | intro {first second : HandlebarsProgram Kind}
      (opcodes : List.Forall₂ (SameOpcode table) first.opcodes second.opcodes)
      (children : List.Forall₂ SameProgram first.children second.children)
      (blockParams : first.blockParams = second.blockParams)
      (useDepths : .useDepths ∈ first.resultFlags ↔
        .useDepths ∈ second.resultFlags)
      (usePartial : .usePartial ∈ first.resultFlags ↔
        .usePartial ∈ second.resultFlags)
      (useDecorators : .useDecorators ∈ first.resultFlags ↔
        .useDecorators ∈ second.resultFlags)
      (stringParams : .stringParams ∈ first.flags ↔
        .stringParams ∈ second.flags)
      (trackIds : .trackIds ∈ first.flags ↔ .trackIds ∈ second.flags)
      (alternateDecorators : .alternateDecorators ∈ first.flags ↔
        .alternateDecorators ∈ second.flags)
      (decorators : .alternateDecorators ∈ first.flags →
        List.Forall₂ SameProgram first.decorators second.decorators) :
      SameProgram first second

theorem decoratorsZval_eq_iff {first second : HandlebarsProgram Kind}
    (hdecorators : first.decorators.map (phpHandlebarsProgramToZval table) =
        second.decorators.map (phpHandlebarsProgramToZval table) ↔
      List.Forall₂ (SameProgram table) first.decorators second.decorators) :
    (if .alternateDecorators ∈ first.flags then PhpValue.list
        (first.decorators.map (phpHandlebarsProgramToZval table))
      else .null) =
        (if .alternateDecorators ∈ second.flags then PhpValue.list
          (second.decorators.map (phpHandlebarsProgramToZval table))
        else .null) ↔
      (.alternateDecorators ∈ first.flags ↔
          .alternateDecorators ∈ second.flags) ∧
        (.alternateDecorators ∈ first.flags →
          List.Forall₂ (SameProgram table) first.decorators
            second.decorators) := by
  by_cases hfirst : CompilerFlag.alternateDecorators ∈ first.flags <;>
    by_cases hsecond : CompilerFlag.alternateDecorators ∈ second.flags <;>
    simp [hfirst, hsecond, hdecorators]

/-- The object which `Compiler::compile` returns determines the program, and
nothing but what it determines makes two objects differ. -/
theorem programToZval_eq_iff (first second : HandlebarsProgram Kind) :
    phpHandlebarsProgramToZval table first =
        phpHandlebarsProgramToZval table second ↔
      SameProgram table first second := by
  induction first using programInduction generalizing second with
  | node first hchild hdecorator =>
      have hopcodes : phpHandlebarsOpcodesToZval table first.opcodes =
            phpHandlebarsOpcodesToZval table second.opcodes ↔
          List.Forall₂ (SameOpcode table) first.opcodes second.opcodes :=
        map_eq_map_iff_forall₂ fun _ _ _ => opcodeToZval_eq_iff
      have hchildren : first.children.map (phpHandlebarsProgramToZval table) =
            second.children.map (phpHandlebarsProgramToZval table) ↔
          List.Forall₂ (SameProgram table) first.children second.children :=
        map_eq_map_iff_forall₂ hchild
      have hmembers :
          first.decorators.map (phpHandlebarsProgramToZval table) =
              second.decorators.map (phpHandlebarsProgramToZval table) ↔
            List.Forall₂ (SameProgram table) first.decorators
              second.decorators :=
        map_eq_map_iff_forall₂ hdecorator
      have hdecorators := decoratorsZval_eq_iff table hmembers
      rw [programToZval_eq, programToZval_eq]
      simp only [PhpValue.object.injEq, List.cons.injEq, Prod.mk.injEq,
        PhpValue.list.injEq, PhpValue.bool.injEq, PhpValue.long.injEq,
        decide_eq_decide, true_and, and_true, hopcodes, hchildren, hdecorators]
      constructor
      · rintro ⟨hop, hch, ⟨halternate, hdec⟩, hdepths, hpartial, huse, hparams,
          hstring, htrack⟩
        exact .intro hop hch hparams hdepths hpartial huse hstring htrack
          halternate hdec
      · rintro ⟨hop, hch, hparams, hdepths, hpartial, huse, hstring, htrack,
          halternate, hdec⟩
        exact ⟨hop, hch, ⟨halternate, hdec⟩, hdepths, hpartial, huse, hparams,
          hstring, htrack⟩

end

end PhpHandlebars
