import PhpHandlebars.DataRoundTrip
import Mathlib.Tactic

/-!
# Paths through a context

The value of a path in a template is looked up step by step, each lookup on
what the one before it has converted.  PHP would go through the arrays
themselves.
-/

namespace PhpHandlebars

open DecimalText

/-- A path looked up in a context, which is converted into a fresh slot
first. -/
def contextLookup (objects : ObjectHandlers) (context : Zval)
    (path : List PathStep) : Except LibError (Option Value) :=
  (handlebarsValueFromZval context .null).bind fun value =>
    lookupPath objects value path

/-- The elements which PHP finds with one subscript after the other. -/
inductive Subscripts : Zval → List PathStep → Zval → Prop where
  | here (val : Zval) : Subscripts val [] val
  | key (array : PhpArray) {name : Bytes} {entry final : Zval}
      {path : List PathStep} (hentry : array.element name = some entry)
      (hrest : Subscripts entry path final) :
      Subscripts (.array array.buckets) (.key name :: path) final
  | index (array : PhpArray) {number : UInt64} {entry final : Zval}
      {path : List PathStep} (hnumber : number.toNat ≤ longMax)
      (hentry : zendHashIndexFind array.buckets number.toNat = some entry)
      (hrest : Subscripts entry path final) :
      Subscripts (.array array.buckets) (.index number :: path) final

/-- The keys of an array with which a step may be answered: the name itself,
or the number read from it, or the index as a signed number. -/
def PathStep.keys : PathStep → List ArrayKey
  | .key name => [.string name, .index (strtol longMin longMax name).1]
  | .index number => [.index number.toInt64.toInt]

/-- The elements within a context, with the steps for which they stand. -/
inductive Holds (objects : ObjectHandlers) :
    Zval → List PathStep → Zval → Prop where
  | here (val : Zval) : Holds objects val [] val
  | element (table : HashTable) {step : PathStep} {key : ArrayKey}
      {entry final : Zval} {path : List PathStep} (hkey : key ∈ step.keys)
      (hentry : zendHashLookup table key = some entry)
      (hrest : Holds objects entry path final) :
      Holds objects (.array table) (step :: path) final
  | handler (handle : ℕ) {name : Bytes} {entry final : Zval}
      {path : List PathStep}
      (hentry : objectEntry objects handle name = some entry)
      (hrest : Holds objects entry path final) :
      Holds objects (.object handle) (.key name :: path) final

/-! ## One step -/

theorem contextLookup_nil (objects : ObjectHandlers) (context : Zval) :
    contextLookup objects context [] =
      (handlebarsValueFromZval context .null).map some := by
  unfold contextLookup
  cases handlebarsValueFromZval context .null <;> rfl

def lookupEntry (objects : ObjectHandlers) (path : List PathStep) :
    Option Zval → Except LibError (Option Value)
  | some entry => contextLookup objects entry path
  | none => .ok none

theorem convertEntry_bind (objects : ObjectHandlers) (entry : Option Zval)
    (path : List PathStep) :
    ((convertEntry entry .null).bind fun
      | some child => lookupPath objects child path
      | none => .ok none) = lookupEntry objects path entry := by
  cases entry with
  | none => rfl
  | some entry =>
      simp only [convertEntry, lookupEntry, contextLookup]
      cases handlebarsValueFromZval entry .null <;> rfl

def stepEntry (objects : ObjectHandlers) : Zval → PathStep → Option Zval
  | .array table, .key name => arrayEntry table name
  | .array table, .index number => indexEntry (.array table) number
  | .object handle, .key name => objectEntry objects handle name
  | _, _ => none

theorem contextLookup_cons (objects : ObjectHandlers) {context : Zval}
    (hcontext : context.zType.Convertible) (step : PathStep)
    (path : List PathStep) :
    contextLookup objects context (step :: path) =
      lookupEntry objects path (stepEntry objects context step) := by
  rw [← convertEntry_bind]
  cases context <;> cases step <;> first
    | rfl
    | simp [ZvalType.Convertible, Zval.zType] at hcontext

theorem arrayEntry_key {table : HashTable} {name : Bytes} {entry : Zval}
    (hentry : arrayEntry table name = some entry) :
    ∃ key ∈ (PathStep.key name).keys,
      zendHashLookup table key = some entry := by
  unfold arrayEntry at hentry
  cases hfind : zendHashFind table name with
  | some found =>
      rw [hfind] at hentry
      refine ⟨.string name, by simp [PathStep.keys], ?_⟩
      rw [← zendHashFind_eq_lookup, hfind, ← hentry]
  | none =>
      rw [hfind] at hentry
      refine ⟨.index (strtol longMin longMax name).1, by simp [PathStep.keys],
        ?_⟩
      by_cases hnul : AtNul (strtol longMin longMax name).2
      · simpa [hnul, zendHashIndexFind] using hentry
      · simp [hnul] at hentry

theorem Holds.of_stepEntry {objects : ObjectHandlers} {context : Zval}
    {step : PathStep} {entry : Zval}
    (hentry : stepEntry objects context step = some entry)
    {path : List PathStep} {final : Zval}
    (hrest : Holds objects entry path final) :
    Holds objects context (step :: path) final := by
  cases context with
  | array table =>
      cases step with
      | key name =>
          obtain ⟨key, hkey, hfound⟩ := arrayEntry_key hentry
          exact .element table hkey hfound hrest
      | index number =>
          exact .element table (List.mem_singleton_self _) hentry hrest
  | object handle =>
      cases step with
      | key name => exact .handler handle hentry hrest
      | index number => simp [stepEntry] at hentry
  | _ => simp [stepEntry] at hentry

/-! ## Paths -/

/-- What subscripts reach, a path reaches, and it goes on from there. -/
theorem Subscripts.lookup {objects : ObjectHandlers}
    {context final : Zval} {path : List PathStep}
    (hpath : Subscripts context path final) (more : List PathStep) :
    contextLookup objects context (path ++ more) =
      contextLookup objects final more := by
  induction hpath with
  | here val => rfl
  | key array hentry hrest ih =>
      rw [List.cons_append, contextLookup_cons objects
        (by simp [Zval.zType, ZvalType.Convertible])]
      simp only [stepEntry, array.arrayEntry_of_element hentry, lookupEntry]
      exact ih
  | index array hnumber hentry hrest ih =>
      rw [← toInt_toInt64_of_le hnumber] at hentry
      rw [List.cons_append, contextLookup_cons objects
        (by simp [Zval.zType, ZvalType.Convertible])]
      simp only [stepEntry, indexEntry, hentry, lookupEntry]
      exact ih

theorem holds_of_contextLookup {objects : ObjectHandlers} {context : Zval}
    {path : List PathStep} {value : Value}
    (hlookup : contextLookup objects context path = .ok (some value)) :
    ∃ final, Holds objects context path final ∧
      handlebarsValueFromZval final .null = .ok value := by
  induction path generalizing context with
  | nil =>
      rw [contextLookup_nil] at hlookup
      refine ⟨context, .here context, ?_⟩
      cases hconvert : handlebarsValueFromZval context .null with
      | error error => simp [hconvert, Except.map] at hlookup
      | ok out => simpa [hconvert, Except.map] using hlookup
  | cons step path ih =>
      -- a context which cannot be converted ends the lookup before any step
      have hcontext : context.zType.Convertible := by
        by_contra hnot
        have hfails := (handlebarsValueFromZval_error_iff context .null _).mpr
          ⟨hnot, rfl⟩
        simp [contextLookup, hfails, Except.bind] at hlookup
      rw [contextLookup_cons objects hcontext] at hlookup
      cases hentry : stepEntry objects context step with
      | none => simp [hentry, lookupEntry] at hlookup
      | some entry =>
          rw [hentry] at hlookup
          obtain ⟨final, hrest, hvalue⟩ := ih hlookup
          exact ⟨final, .of_stepEntry hentry hrest, hvalue⟩

/-- Every element which PHP reaches by subscripts is found, also by the paths
which go on from it, and whatever is found is an element of the context, or an
answer of its objects, under keys which stand for the steps. -/
theorem context_paths (objects : ObjectHandlers) (context : Zval) :
    (∀ path more final, Subscripts context path final →
      contextLookup objects context (path ++ more) =
        contextLookup objects final more) ∧
    ∀ path value, contextLookup objects context path = .ok (some value) →
      ∃ final, Holds objects context path final ∧
        handlebarsValueFromZval final .null = .ok value :=
  ⟨fun _ more _ hpath => hpath.lookup more,
    fun _ _ hlookup => holds_of_contextLookup hlookup⟩

/-- A reference on the way is an error, whatever it refers to. -/
theorem reference_on_path {objects : ObjectHandlers} {context target : Zval}
    {path : List PathStep} (hpath : Subscripts context path (.reference target))
    (more : List PathStep) :
    contextLookup objects context (path ++ more) =
      .error (unimplementedConversion .isReference) := by
  rw [hpath.lookup more]
  rfl

end PhpHandlebars
