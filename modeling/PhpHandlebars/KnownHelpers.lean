import PhpHandlebars.ArrayFill
import PhpHandlebars.CompilerOptions
import PhpHandlebars.Render
import Mathlib.Data.List.TakeWhile
import Mathlib.Tactic

/-!
# The list of known helpers

`php_handlebars_fetch_known_helpers` counts the names the compiler has and
those a first pass over the registry delivers, allocates one slot more, and
fills the array from the compiler's list and from a second pass.
-/

namespace PhpHandlebars

/-! ## The stores -/

/-- The loop over the names which the compiler has. -/
def copyBuiltins (output : ArrayFill (Option Bytes)) :
    List Bytes → ArrayFill (Option Bytes)
  | [] => output
  | name :: rest => copyBuiltins (output.store (some name)) rest

/-- The loop over the second pass.  The key is read before the store. -/
def copyHelpers (output : ArrayFill (Option Bytes)) :
    List (Option Bytes) → ArrayFill (Option Bytes) × Except Fault Unit
  | [] => (output, .ok ())
  | key :: rest =>
      match derefKey key with
      | .error fault => (output, .error fault)
      | .ok name => copyHelpers (output.store (some (strndup name))) rest

/-- The array `php_handlebars_fetch_known_helpers` fills, unless it comes to
grief before it allocates one. -/
def fillKnownHelpers (compiler : Compiler) (helpers : Registry) :
    Option (ArrayFill (Option Bytes)) :=
  match compiler.knownHelpers, helpers.firstPass.finish with
  | some orig, .ok () =>
      let num := orig.length + helpers.firstPass.keys.length
      let output := copyBuiltins (.allocate (num + 1)) orig
      let (output, copied) := copyHelpers output helpers.secondPass.keys
      match copied, helpers.secondPass.finish with
      | .ok (), .ok () => some (output.store none)
      | _, _ => some output
  | _, _ => none

theorem copyBuiltins_eq (output : ArrayFill (Option Bytes))
    (names : List Bytes) :
    copyBuiltins output names = output.storeAll (names.map some) := by
  induction names generalizing output with
  | nil => rfl
  | cons name rest ih => exact ih (output.store (some name))

/-- The keys in front of the first which is NULL. -/
def leadingNames (keys : List (Option Bytes)) : List Bytes :=
  (keys.takeWhile Option.isSome).reduceOption

theorem copyHelpers_eq (output : ArrayFill (Option Bytes))
    (keys : List (Option Bytes)) :
    copyHelpers output keys =
      (output.storeAll ((leadingNames keys).map fun name =>
          some (strndup name)),
        if none ∈ keys then .error .nullKey else .ok ()) := by
  induction keys generalizing output with
  | nil => rfl
  | cons key rest ih =>
      cases key with
      | none => simp [copyHelpers, derefKey, leadingNames]
      | some name =>
          have hstep : copyHelpers output (some name :: rest) =
              copyHelpers (output.store (some (strndup name))) rest := rfl
          have hnames : leadingNames (some name :: rest) =
              name :: leadingNames rest := rfl
          rw [hstep, ih, hnames]
          simp

theorem leadingNames_of_named {keys : List (Option Bytes)}
    (hnamed : none ∉ keys) : leadingNames keys = keys.reduceOption := by
  have hall : keys.takeWhile Option.isSome = keys := by
    apply List.takeWhile_eq_self_iff.mpr
    intro key hkey
    cases key with
    | none => exact absurd hkey hnamed
    | some name => rfl
  rw [leadingNames, hall]

def Registry.Completes (helpers : Registry) : Prop :=
  none ∉ helpers.secondPass.keys ∧ helpers.secondPass.failed = false

instance (helpers : Registry) : Decidable helpers.Completes :=
  inferInstanceAs (Decidable (_ ∧ _))

/-- What is stored behind the compiler's own names. -/
def Registry.stored (helpers : Registry) : List (Option Bytes) :=
  (leadingNames helpers.secondPass.keys).map (fun name =>
      some (strndup name)) ++
    if helpers.Completes then [none] else []

theorem fillKnownHelpers_eq {compiler : Compiler} {helpers : Registry}
    {orig : List Bytes} (hknown : compiler.knownHelpers = some orig)
    (hfirst : helpers.firstPass.failed = false) :
    fillKnownHelpers compiler helpers =
      some ((ArrayFill.allocate
        (orig.length + helpers.firstPass.keys.length + 1)).storeAll
          (orig.map some ++ helpers.stored)) := by
  unfold fillKnownHelpers Pass.finish
  rw [hknown, hfirst]
  simp only [copyBuiltins_eq, copyHelpers_eq, ArrayFill.storeAll_append,
    Registry.stored, Registry.Completes]
  by_cases hnamed : none ∈ helpers.secondPass.keys
  · simp [hnamed, pure, Except.pure]
  · by_cases hsecond : helpers.secondPass.failed = true <;>
      simp [hnamed, hsecond, pure, Except.pure]

theorem fillKnownHelpers_eq_none {compiler : Compiler} {helpers : Registry}
    (hnone : compiler.knownHelpers = none ∨ helpers.firstPass.failed = true) :
    fillKnownHelpers compiler helpers = none := by
  unfold fillKnownHelpers Pass.finish
  rcases hnone with hknown | hfirst
  · rw [hknown]
  · rw [hfirst]
    cases compiler.knownHelpers <;> rfl

/-- What the compiler gets is what was stored. -/
theorem fetchKnownHelpers_stores
    {compiler compiler' : Compiler} {helpers : Registry}
    {array : KnownHelperArray}
    (hfetch : fetchKnownHelpers compiler helpers = .ok (compiler', array)) :
    ∃ fill, fillKnownHelpers compiler helpers = some fill ∧
      fill.slots = array.slots ∧ fill.stored = array.stored := by
  rw [fetchKnownHelpers_eq] at hfetch
  split at hfetch
  next => simp at hfetch
  next orig hknown =>
    split_ifs at hfetch with hfirst hnamed hsecond
    obtain ⟨_, rfl⟩ := Prod.mk.inj (Except.ok.inj hfetch)
    have hcompletes : helpers.Completes := by simp [Registry.Completes, *]
    have hfill := fillKnownHelpers_eq hknown (by simpa using hfirst)
    refine ⟨_, hfill, ?_, ?_⟩
    · rw [ArrayFill.storeAll_slots]
      rfl
    · rw [ArrayFill.allocate_stored, Registry.stored, if_pos hcompletes,
        leadingNames_of_named hnamed]
      simp

/-- How many slots behind the compiler's own names the second pass fills. -/
def Registry.filled (helpers : Registry) : ℕ :=
  (leadingNames helpers.secondPass.keys).length +
    if helpers.Completes then 1 else 0

/-- The stores are within the array exactly when the second pass delivers no
more elements than the first. -/
theorem fillKnownHelpers_inBounds_iff (compiler : Compiler)
    (helpers : Registry) :
    (∀ fill, fillKnownHelpers compiler helpers = some fill →
        fill.InBounds) ↔
      (compiler.knownHelpers ≠ none → helpers.firstPass.failed = false →
        helpers.filled ≤ helpers.firstPass.keys.length + 1) := by
  by_cases hknown : compiler.knownHelpers = none
  · simp [fillKnownHelpers_eq_none (.inl hknown), hknown]
  · by_cases hfirst : helpers.firstPass.failed = true
    · simp [fillKnownHelpers_eq_none (.inr hfirst), hfirst]
    · rw [Bool.not_eq_true] at hfirst
      obtain ⟨orig, hsome⟩ := Option.ne_none_iff_exists'.mp hknown
      have hlength : (orig.map some ++ helpers.stored).length =
          orig.length + helpers.filled := by
        unfold Registry.stored Registry.filled
        split <;> simp
      rw [fillKnownHelpers_eq hsome hfirst]
      simp only [Option.some.injEq, forall_eq', ArrayFill.inBounds_iff,
        hlength]
      constructor
      · intro hfits _ _
        omega
      · intro hfits
        have hle := hfits hknown hfirst
        omega

/-- A registry which has no helpers when it is iterated first and one when it
is iterated again, as one which loads them does. -/
def loadingRegistry : Registry where
  value := .user (.object 0)
  objectPass := .empty
  objectPass' := ⟨[some (ascii "fullName")], false, none⟩

theorem terminator_behind_array :
    ∃ fill, fillKnownHelpers ⟨∅, some [ascii "if"]⟩ loadingRegistry =
        some fill ∧
      fill.slots = 2 ∧ (2, none) ∈ fill.stores ∧ ¬ fill.InBounds := by
  refine ⟨_, rfl, ?_, ?_, ?_⟩ <;> decide

/-! ## Complete lists -/

/-- A string gives itself, anything else its key. -/
def givenName : ArrayKey × Zval → Option Bytes
  | (_, .string value) => some value
  | (.string name, _) => some name
  | (.index _, _) => none

/-- The names given in the option `knownHelpers`. -/
def givenNames (options : Option Zval) : List Bytes :=
  match (optionTable options).bind fun table =>
      zendHashFind table internedKnownHelpers with
  | some (.array buckets) => buckets.filterMap givenName
  | _ => []

/-- The list a template is to be compiled with, in an array of its size.  The
registry has the keys which either pass over it delivers. -/
def KnownHelpersComplete (lib : Library) (options : Option Zval)
    (compiler : Compiler) (helpers : Registry) : Prop :=
  ∃ compiler' array,
    fetchKnownHelpers compiler helpers = .ok (compiler', array) ∧
      array.stored.length ≤ array.slots ∧
      ∀ pass ∈ [helpers.firstPass, helpers.secondPass],
        let known := lib.builtinHelpers ++ givenNames options ++
          pass.keys.reduceOption
        compiler'.knownHelpers = some known ∧
          array.stored = known.map some ++ [none]

/-- The option `knownHelpers` is absent, and the passes agree on names which
are C strings. -/
structure KeepsKnownHelpers (options : Option Zval) (helpers : Registry) :
    Prop where
  absent : ∀ table, optionTable options = some table →
    zendHashFind table internedKnownHelpers = none
  counted : helpers.firstPass.failed = false
  completes : helpers.Completes
  plain : ∀ name, some name ∈ helpers.secondPass.keys → 0 ∉ name
  same : helpers.firstPass.keys.reduceOption =
    helpers.secondPass.keys.reduceOption

theorem bucketName_eq (bucket : ArrayKey × Zval) :
    bucketName bucket = (givenName bucket).map strndup := by
  obtain ⟨key, entry⟩ := bucket
  cases key <;> cases entry <;> rfl

theorem filterMap_bucketName (buckets : HashTable) :
    buckets.filterMap bucketName =
      (buckets.filterMap givenName).map strndup := by
  rw [List.map_filterMap]
  exact List.filterMap_congr fun bucket _ => bucketName_eq bucket

/-- With the option there are as many names as it gives, and those of the
compiler are gone. -/
theorem length_optionKnownHelpers
    {options : Option Zval} {table : HashTable} {entry : Zval}
    {builtin known : List Bytes} (htable : optionTable options = some table)
    (hentry : zendHashFind table internedKnownHelpers = some entry)
    (hknown : optionKnownHelpers options (some builtin) = some known) :
    known.length = (givenNames options).length := by
  unfold optionKnownHelpers at hknown
  unfold givenNames
  simp only [htable, hentry, Option.bind_some] at hknown ⊢
  cases entry with
  | array buckets =>
      cases buckets with
      | nil => simp [knownHelperList] at hknown
      | cons bucket rest =>
          obtain rfl := Option.some.inj hknown
          rw [filterMap_bucketName, List.length_map]
  | _ => simp [knownHelperList] at hknown

theorem optionKnownHelpers_of_absent
    {options : Option Zval} (known : Option (List Bytes))
    (habsent : ∀ table, optionTable options = some table →
      zendHashFind table internedKnownHelpers = none) :
    optionKnownHelpers options known = known ∧ givenNames options = [] := by
  unfold optionKnownHelpers givenNames
  cases htable : optionTable options with
  | none => simp
  | some table => simp [habsent table htable]

theorem map_strndup_eq_self_iff (names : List Bytes) :
    names.map strndup = names ↔ ∀ name ∈ names, 0 ∉ name := by
  induction names with
  | nil => simp
  | cons name rest ih =>
      rw [List.map_cons, List.cons.injEq, strndup_eq_self_iff, ih,
        List.forall_mem_cons]

theorem knownHelpersComplete_iff (lib : Library) (options : Option Zval)
    (compiler : Compiler) (helpers : Registry) :
    KnownHelpersComplete lib options compiler helpers ↔
      ∃ orig, compiler.knownHelpers = some orig ∧
        helpers.firstPass.failed = false ∧ helpers.Completes ∧
        helpers.firstPass.keys.reduceOption =
          helpers.secondPass.keys.reduceOption ∧
        orig ++ helpers.secondPass.keys.reduceOption.map strndup =
          lib.builtinHelpers ++ givenNames options ++
            helpers.secondPass.keys.reduceOption := by
  unfold KnownHelpersComplete
  rw [fetchKnownHelpers_eq]
  cases hknown : compiler.knownHelpers with
  | none => simp
  | some orig =>
      constructor
      · rintro ⟨compiler', array, hfetch, _, hcomplete⟩
        simp only at hfetch
        split_ifs at hfetch with hfirst hnamed hsecond
        obtain ⟨rfl, rfl⟩ := Prod.mk.inj (Except.ok.inj hfetch)
        have hnames := (hcomplete helpers.firstPass (by simp)).1
        have hnames' := (hcomplete helpers.secondPass (by simp)).1
        refine ⟨orig, rfl, by simpa using hfirst,
          ⟨hnamed, by simpa using hsecond⟩, ?_, Option.some.inj hnames'⟩
        exact List.append_cancel_left
          (Option.some.inj (hnames.symm.trans hnames'))
      · rintro ⟨_, ⟨rfl⟩, hfirst, ⟨hnamed, hsecond⟩, hsame, hnames⟩
        simp only [hfirst, hnamed, hsecond, Bool.false_eq_true, if_false]
        refine ⟨_, _, rfl, ?_, ?_⟩
        · have hfits := hsame ▸
            List.reduceOption_length_le helpers.firstPass.keys
          simp only [List.length_append, List.length_map, List.length_singleton]
          omega
        · simp only [List.mem_cons, List.not_mem_nil, or_false]
          rintro pass (rfl | rfl)
          · rw [hsame, hnames]
            exact ⟨rfl, rfl⟩
          · rw [hnames]
            exact ⟨rfl, rfl⟩

def noHelpers : Registry := ⟨.null, .empty, .empty⟩

/-- After the options have been processed, the list gets complete exactly when
they have no `knownHelpers` and the registry delivers the same names twice. -/
theorem known_helpers_complete_iff
    {lib : Library} (hbuiltin : lib.builtinHelpers ≠ [])
    {options : Option Zval} {flags : Flags} {compiler : Compiler}
    {vm : Option VmConfig}
    (hoptions : processOptionsZval ⟨∅, some lib.builtinHelpers⟩
      (some .fresh) options = .ok (flags, compiler, vm))
    (helpers : Registry) :
    KnownHelpersComplete lib options compiler helpers ↔
      KeepsKnownHelpers options helpers := by
  have hcompiler : compiler.knownHelpers =
      optionKnownHelpers options (some lib.builtinHelpers) := by
    rw [processOptionsZval_with_vm] at hoptions
    split at hoptions
    next => simp at hoptions
    next =>
      simp only [Except.ok.injEq, Prod.mk.injEq] at hoptions
      rw [← hoptions.2.1]
  rw [knownHelpersComplete_iff, hcompiler]
  constructor
  · rintro ⟨orig, horig, hfirst, hcompletes, hsame, hnames⟩
    have habsent : ∀ table, optionTable options = some table →
        zendHashFind table internedKnownHelpers = none := by
      intro table htable
      by_contra hentry
      obtain ⟨entry, hentry⟩ := Option.ne_none_iff_exists'.mp hentry
      have hlength := length_optionKnownHelpers htable hentry horig
      have heq := congrArg List.length hnames
      have hpos := List.length_pos_of_ne_nil hbuiltin
      simp only [List.length_append, List.length_map, hlength] at heq
      omega
    obtain ⟨hbuiltins, hgiven⟩ :=
      optionKnownHelpers_of_absent (some lib.builtinHelpers) habsent
    obtain rfl := Option.some.inj (horig.symm.trans hbuiltins)
    rw [hgiven, List.append_nil, List.append_cancel_left_eq,
      map_strndup_eq_self_iff] at hnames
    have hplain : ∀ name, some name ∈ helpers.secondPass.keys →
        0 ∉ name := by
      intro name hname
      exact hnames name (List.reduceOption_mem_iff.mpr hname)
    exact ⟨habsent, hfirst, hcompletes, hplain, hsame⟩
  · rintro ⟨habsent, hfirst, hcompletes, hplain, hsame⟩
    obtain ⟨hbuiltins, hgiven⟩ :=
      optionKnownHelpers_of_absent (some lib.builtinHelpers) habsent
    refine ⟨lib.builtinHelpers, hbuiltins, hfirst, hcompletes, hsame, ?_⟩
    rw [hgiven, List.append_nil, List.append_cancel_left_eq,
      map_strndup_eq_self_iff]
    intro name hname
    exact hplain name (List.reduceOption_mem_iff.mp hname)

/-- `['compat' => true, 'knownHelpersOnly' => true]` -/
def strictHelpers : Option Zval :=
  some (.array [(.string internedCompat, .true),
    (.string internedKnownHelpersOnly, .true)])

/-- A registry of its own class with two helpers. -/
def twoHelpers : Registry where
  value := .user (.object 0)
  objectPass := ⟨[some (ascii "fullName"), some (ascii "link")], false, none⟩
  objectPass' := ⟨[some (ascii "fullName"), some (ascii "link")], false, none⟩

theorem registry_known_beside_builtins :
    ∃ flags compiler vm, processOptionsZval
        ⟨∅, some sampleLibrary.builtinHelpers⟩ (some .fresh) strictHelpers =
          .ok (flags, compiler, vm) ∧
      KnownHelpersComplete sampleLibrary strictHelpers compiler
        twoHelpers := by
  refine ⟨_, _, _, rfl, ?_⟩
  refine (known_helpers_complete_iff (by decide) rfl twoHelpers).mpr
    ⟨?_, rfl, by decide, ?_, rfl⟩
  · rintro table ⟨rfl⟩
    decide
  · have hplain : ∀ name ∈ twoHelpers.secondPass.keys.reduceOption,
        0 ∉ name := by decide
    intro name hname
    exact hplain name (List.reduceOption_mem_iff.mpr hname)

def helperOption (entry : Zval) : Option Zval :=
  some (.array [(.string internedKnownHelpers, entry)])

/-- The names of the compiler are lost when the option gives others, and all
names when it is just `true`. -/
theorem option_replaces_builtins :
    (∃ flags compiler vm, processOptionsZval
        ⟨∅, some sampleLibrary.builtinHelpers⟩ (some .fresh)
        (helperOption (.array [(.string (ascii "list"), .true)])) =
          .ok (flags, compiler, vm) ∧
      compiler.knownHelpers = some [ascii "list"] ∧
      ¬ KnownHelpersComplete sampleLibrary
        (helperOption (.array [(.string (ascii "list"), .true)])) compiler
        noHelpers) ∧
    ∃ flags compiler vm, processOptionsZval
        ⟨∅, some sampleLibrary.builtinHelpers⟩ (some .fresh)
        (helperOption .true) = .ok (flags, compiler, vm) ∧
      fetchKnownHelpers compiler noHelpers = .error .nullKnownHelpers := by
  constructor
  · refine ⟨_, _, _, rfl, rfl, ?_⟩
    rw [knownHelpersComplete_iff]
    rintro ⟨orig, horig, _, _, _, hnames⟩
    obtain rfl := Option.some.inj horig
    exact absurd hnames (by decide)
  · exact ⟨_, _, _, rfl, rfl⟩

/-! ## The array made of the option -/

/-- The loop of `php_handlebars_compiler_known_helpers_from_zval`.  Elements
which are no strings and have no string key are skipped. -/
def copyOption (output : ArrayFill (Option Bytes)) :
    HashTable → Except Fault (ArrayFill (Option Bytes))
  | [] => return output
  | (key, entry) :: rest =>
      if entry.zType = .isString then do
        copyOption (output.store (some (strndup (← entry.strval)))) rest
      else
        match key with
        | .string name => copyOption (output.store (some (strndup name))) rest
        | .index _ => copyOption output rest

/-- The array allocated for all elements and the terminator. -/
def fillFromZval (arr : Zval) :
    Except Fault (Option (ArrayFill (Option Bytes))) :=
  if arr.zType ≠ .isArray then
    return none
  else do
    let dataHash ← arr.arrval
    let count := dataHash.length
    if count = 0 then
      return none
    else
      let output ← copyOption (.allocate (count + 1)) dataHash
      return some (output.store none)

theorem copyOption_eq (output : ArrayFill (Option Bytes))
    (buckets : HashTable) :
    copyOption output buckets =
      .ok (output.storeAll ((buckets.filterMap bucketName).map some)) := by
  induction buckets generalizing output with
  | nil => rfl
  | cons bucket rest ih =>
      obtain ⟨key, entry⟩ := bucket
      cases entry with
      | string value =>
          have hname : bucketName (key, .string value) =
              some (strndup value) := by cases key <;> rfl
          rw [List.filterMap_cons_some hname]
          exact ih (output.store (some (strndup value)))
      | _ =>
          cases key with
          | string name => exact ih (output.store (some (strndup name)))
          | index number => exact ih output

/-- The names which the option gives, each up to its first NUL byte.  What is
no array, or has no elements, gives no list. -/
def optionNames : Zval → Option (List Bytes)
  | .array [] => none
  | .array buckets => some ((buckets.filterMap givenName).map cString)
  | _ => none

/-- How the array of the option stands for a list of names: no store is beyond
its end, and read up to its terminator, through slots which are all written,
it is the list. -/
def StandsFor : Option (ArrayFill (Option Bytes)) → Option (List Bytes) → Prop
  | none, none => True
  | some output, some names =>
      output.InBounds ∧ output.readTerminated = some names
  | _, _ => False

/-- Whatever is given as the option, its array stands for the names in it, and
the compiler is to know these. -/
theorem option_array_stands_for_names (arr : Zval) :
    ∃ output, fillFromZval arr = .ok output ∧
      compilerKnownHelpersFromZval arr = .ok (optionNames arr) ∧
      StandsFor output (optionNames arr) := by
  rw [compilerKnownHelpersFromZval_eq]
  cases arr with
  | array buckets =>
      cases buckets with
      | nil => exact ⟨none, rfl, rfl, trivial⟩
      | cons bucket rest =>
          have hcopy := copyOption_eq
            (.allocate ((bucket :: rest).length + 1)) (bucket :: rest)
          have hlength := List.length_filterMap_le bucketName (bucket :: rest)
          have hfill : fillFromZval (.array (bucket :: rest)) =
              .ok (some ((ArrayFill.allocate
                ((bucket :: rest).length + 1)).storeAll
                (((bucket :: rest).filterMap bucketName).map some ++
                  [none]))) := by
            rw [ArrayFill.storeAll_append]
            change (copyOption _ (bucket :: rest) >>= _) = _
            rw [hcopy]
            rfl
          have hnames : optionNames (.array (bucket :: rest)) =
              some ((bucket :: rest).filterMap bucketName) := by
            rw [filterMap_bucketName]
            rfl
          rw [hnames]
          refine ⟨_, hfill, rfl, ?_, ?_⟩
          · rw [ArrayFill.inBounds_iff, List.length_append, List.length_map]
            exact Nat.succ_le_succ hlength
          · exact ArrayFill.readTerminated_storeAll
              (Nat.lt_succ_of_le hlength)
  | _ => exact ⟨none, rfl, rfl, trivial⟩

end PhpHandlebars
