import PhpHandlebars.Ledger
import PhpHandlebars.Zval
import Mathlib.Tactic

/-!
# Context paths

`Utils::appendContextPath` puts a dot and an id behind the context path of a
data frame, an object or a string, and returns the id itself where there is no
path yet.  A path is built by calling it for one id after the other.
-/

namespace PhpHandlebars

def internedContextPath : Bytes := ascii "contextPath"

/-- A `zend_string` with its place in memory; interned strings have no
reference count. -/
structure IdString where
  bytes : Bytes
  address : ℕ
  interned : Bool

inductive ReturnedString where
  | made (value : Bytes)
  | same (id : IdString)

def ReturnedString.bytes : ReturnedString → Bytes
  | .made value => value
  | .same id => id.bytes

/-- `(int) ZSTR_LEN(...)` -/
def intLength (length : ℕ) : ℤ :=
  (BitVec.ofNat 32 length).toInt

/-- `%.*s`; a negative precision is as if there was none. -/
def formatPrecision (precision : ℤ) (value : Bytes) : Bytes :=
  cString (if precision < 0 then value else value.take precision.toNat)

def dot : UInt8 := 46

def contextPathString (readProperty : ℕ → Zval) (contextPath : Zval) :
    Option Bytes :=
  let entry := match contextPath with
    | .array table => zendHashFind table internedContextPath
    | .object handle => some (readProperty handle)
    | .string value => some (.string value)
    | _ => none
  match entry with
  | some (.string tmp) => some tmp
  | _ => none

def appendContextPath (readProperty : ℕ → Zval) (contextPath : Zval)
    (id : IdString) : ReturnedString :=
  match contextPathString readProperty contextPath with
  | some tmp =>
      if 0 < tmp.length then
        .made (formatPrecision (intLength tmp.length) tmp ++
          dot :: formatPrecision (intLength id.bytes.length) id.bytes)
      else .same id
  | none => .same id

/-! ## Building a path -/

/-- How a path is handed to the next call. -/
structure PathCarrier where
  properties : Bytes → ℕ → Zval
  wrap : Bytes → Zval
  carries : ∀ path, contextPathString (properties path) (wrap path) = some path

namespace PathCarrier

def string : PathCarrier where
  properties := fun _ _ => .null
  wrap := .string
  carries := fun _ => rfl

/-- A data frame with other entries. -/
def frame (table : HashTable) : PathCarrier where
  properties := fun _ _ => .null
  wrap := fun path =>
    .array ((.string internedContextPath, .string path) :: table)
  carries := fun path => by simp [contextPathString, zendHashFind]

def object (handle : ℕ) : PathCarrier where
  properties := fun path _ => .string path
  wrap := fun _ => .object handle
  carries := fun _ => rfl

end PathCarrier

structure PathCall where
  carrier : PathCarrier
  id : IdString

inductive StringKey where
  | id (address : ℕ)
  | made (call : ℕ)
  deriving DecidableEq

def IdString.entry (id : IdString)
    (make : StringKey → LedgerEntry StringKey) : Ledger StringKey :=
  if id.interned then [] else [make (.id id.address)]

/-- The references of a call: the argument holds the id until the call ends,
and the caller releases what is returned.  `RETVAL_STR` takes no reference. -/
def callRefs (call : ℕ) (id : IdString) : ReturnedString → Ledger StringKey
  | .made _ =>
      id.entry .acquire ++ [.acquire (.made call)] ++ id.entry .release ++
        [.release (.made call)]
  | .same returned =>
      id.entry .acquire ++ id.entry .release ++ returned.entry .release

def buildPath : ℕ → Bytes → List PathCall → Bytes × Ledger StringKey
  | _, path, [] => (path, [])
  | call, path, ⟨carrier, id⟩ :: rest =>
      let returned :=
        appendContextPath (carrier.properties path) (carrier.wrap path) id
      let (final, refs) := buildPath (call + 1) returned.bytes rest
      (final, callRefs call id returned ++ refs)

theorem appendContextPath_carrier (carrier : PathCarrier) (path : Bytes)
    (id : IdString) :
    appendContextPath (carrier.properties path) (carrier.wrap path) id =
      if path = [] then .same id
      else .made (formatPrecision (intLength path.length) path ++
        dot :: formatPrecision (intLength id.bytes.length) id.bytes) := by
  rw [appendContextPath, carrier.carries]
  cases path <;> simp

/-! ## The path -/

theorem formatPrecision_of_short {value : Bytes}
    (hshort : value.length < 2 ^ 31) :
    formatPrecision (intLength value.length) value = cString value := by
  have hint : intLength value.length = value.length := by
    unfold intLength
    rw [BitVec.toInt_ofNat', Int.bmod_eq_of_le] <;> omega
  unfold formatPrecision
  rw [hint, if_neg (by omega), Int.toNat_natCast, List.take_length]

theorem length_cString_le (bytes : Bytes) :
    (cString bytes).length ≤ bytes.length :=
  List.Sublist.length_le (List.takeWhile_sublist _)

theorem cString_eq_of_length {bytes : Bytes}
    (hlength : bytes.length ≤ (cString bytes).length) :
    cString bytes = bytes :=
  (List.takeWhile_prefix _).eq_of_length_le hlength

def joinDots (ids : List Bytes) : Bytes :=
  [dot].intercalate ids

theorem joinDots_singleton (id : Bytes) : joinDots [id] = id :=
  List.intercalate_singleton

theorem joinDots_cons (first second : Bytes) (rest : List Bytes) :
    joinDots (first :: second :: rest) =
      first ++ dot :: joinDots (second :: rest) := by
  simp [joinDots, List.intercalate_cons_cons]

theorem joinDots_join (first second : Bytes) (rest : List Bytes) :
    joinDots ((first ++ dot :: second) :: rest) =
      joinDots (first :: second :: rest) := by
  cases rest with
  | nil => simp [joinDots_cons, joinDots_singleton]
  | cons third rest => simp [joinDots_cons]

theorem length_joinDots (ids : List Bytes) :
    (joinDots ids).length = (ids.map List.length).sum + (ids.length - 1) := by
  induction ids with
  | nil => rfl
  | cons first rest ih =>
      cases rest with
      | nil => simp [joinDots_singleton]
      | cons second rest =>
          rw [joinDots_cons, List.length_append, List.length_cons, ih]
          simp only [List.map_cons, List.sum_cons, List.length_cons]
          omega

theorem length_joinDots_cString_le (ids : List Bytes) :
    (joinDots (ids.map cString)).length ≤ (joinDots ids).length := by
  rw [length_joinDots, length_joinDots, List.length_map, List.map_map]
  have hsum := List.sum_le_sum (l := ids)
    (fun id _ => length_cString_le id)
  simpa [Function.comp_def] using hsum

/-- What is built: empty ids at the start vanish, and ids end at their first
NUL byte once a path is put together. -/
def pathText : List Bytes → Bytes
  | [] => []
  | [id] => id
  | first :: second :: rest =>
      if first = [] then pathText (second :: rest)
      else joinDots ((first :: second :: rest).map cString)

theorem short_of_joinDots {ids : List Bytes}
    (hshort : (joinDots ids).length < 2 ^ 31) {id : Bytes} (hid : id ∈ ids) :
    id.length < 2 ^ 31 := by
  rw [length_joinDots] at hshort
  have hle := List.le_sum_of_mem (List.mem_map_of_mem (f := List.length) hid)
  omega

def PathCall.bytes (made : PathCall) : Bytes :=
  made.id.bytes

theorem appendContextPath_of_short (carrier : PathCarrier) {path : Bytes}
    (hpath : path ≠ []) (hshort : path.length < 2 ^ 31) {id : IdString}
    (hid : id.bytes.length < 2 ^ 31) :
    appendContextPath (carrier.properties path) (carrier.wrap path) id =
      .made (cString path ++ dot :: cString id.bytes) := by
  rw [appendContextPath_carrier, if_neg hpath,
    formatPrecision_of_short hshort, formatPrecision_of_short hid]

theorem length_joinDots_step (path id : Bytes) (rest : List Bytes) :
    (joinDots ((cString path ++ dot :: cString id) :: rest)).length ≤
      (joinDots (path :: id :: rest)).length := by
  have hpath := length_cString_le path
  have hid := length_cString_le id
  rw [joinDots_join, length_joinDots, length_joinDots]
  simp only [List.map_cons, List.sum_cons, List.length_cons]
  omega

/-- Behind a path without NUL bytes the ids are joined. -/
theorem buildPath_of_path (calls : List PathCall) {path : Bytes}
    (hpath : path ≠ []) (hzero : 0 ∉ path)
    (hshort : (joinDots (path :: calls.map PathCall.bytes)).length < 2 ^ 31)
    (call : ℕ) :
    (buildPath call path calls).1 =
      joinDots (path :: (calls.map PathCall.bytes).map cString) := by
  induction calls generalizing path call with
  | nil => simp [buildPath, joinDots_singleton]
  | cons made rest ih =>
      -- a path which was put together has no NUL byte, which the next step needs
      have hid : made.id.bytes ∈
          path :: (made :: rest).map PathCall.bytes := by
        simp [PathCall.bytes]
      have hstep := appendContextPath_of_short made.carrier hpath
        (short_of_joinDots hshort (by simp)) (short_of_joinDots hshort hid)
      have hnext : 0 ∉ cString path ++ dot :: cString made.id.bytes := by
        simp [zero_not_mem_cString, dot]
      have hrest := ih (by simp) hnext
        (lt_of_le_of_lt (length_joinDots_step _ _ _) hshort) (call + 1)
      simp only [buildPath, hstep, ReturnedString.bytes]
      rw [hrest, joinDots_join, cString_of_not_mem hzero]
      rfl

theorem buildPath_eq (calls : List PathCall)
    (hshort : (joinDots (calls.map PathCall.bytes)).length < 2 ^ 31)
    (call : ℕ) :
    (buildPath call [] calls).1 = pathText (calls.map PathCall.bytes) := by
  induction calls generalizing call with
  | nil => rfl
  | cons first rest ih =>
      have hfirst : appendContextPath (first.carrier.properties [])
          (first.carrier.wrap []) first.id = .same first.id := by
        rw [appendContextPath_carrier, if_pos rfl]
      simp only [buildPath, hfirst, ReturnedString.bytes]
      cases rest with
      | nil => rfl
      | cons second rest =>
          by_cases hempty : first.id.bytes = []
          · rw [hempty, ih]
            · simp [pathText, PathCall.bytes, hempty]
            · rw [List.map_cons, List.map_cons, joinDots_cons] at hshort
              rw [List.map_cons]
              simp only [List.length_append, List.length_cons] at hshort
              omega
          · have hsecond : second.id.bytes ∈
                (first :: second :: rest).map PathCall.bytes := by
              simp [PathCall.bytes]
            have hstep := appendContextPath_of_short second.carrier hempty
              (short_of_joinDots hshort (by simp [PathCall.bytes]))
              (short_of_joinDots hshort hsecond)
            have hnext : 0 ∉ cString first.id.bytes ++
                dot :: cString second.id.bytes := by
              simp [zero_not_mem_cString, dot]
            have hrest := buildPath_of_path rest (by simp) hnext
              (lt_of_le_of_lt (length_joinDots_step _ _ _) hshort)
              (call + 1 + 1)
            simp only [buildPath, hstep, ReturnedString.bytes]
            rw [hrest, joinDots_join]
            simp [pathText, PathCall.bytes, hempty]

/-! ## Reading a path back -/

theorem not_mem_of_mem_splitOn {α : Type} [BEq α] [LawfulBEq α] {sep : α}
    {text part : List α} (hpart : part ∈ text.splitOn sep) : sep ∉ part := by
  induction text generalizing part with
  | nil => simp_all
  | cons first rest ih =>
      rw [List.splitOn_cons_eq_if_modifyHead] at hpart
      split at hpart
      next =>
        rcases List.mem_cons.mp hpart with rfl | hrest
        · simp
        · exact ih hrest
      next hfirst =>
        obtain ⟨head, tail, hsplit⟩ := List.exists_cons_of_ne_nil
          (List.splitOn_ne_nil sep rest)
        rw [hsplit, List.modifyHead_cons] at hpart
        rw [hsplit] at ih
        rcases List.mem_cons.mp hpart with rfl | htail
        · have hhead := ih (List.mem_cons_self ..)
          have hne : sep ≠ first := by
            rintro rfl
            simp at hfirst
          simp [hhead, hne]
        · exact ih (List.mem_cons_of_mem _ htail)

/-- Ids which have no dot are read back from what joins them. -/
theorem splitOn_eq_iff {text : Bytes} {ids : List Bytes} (hids : ids ≠ []) :
    text.splitOn dot = ids ↔ text = joinDots ids ∧ ∀ id ∈ ids, dot ∉ id := by
  constructor
  · rintro rfl
    exact ⟨(List.intercalate_splitOn dot).symm,
      fun id hid => not_mem_of_mem_splitOn hid⟩
  · rintro ⟨rfl, hdots⟩
    exact List.splitOn_intercalate dot hdots hids

theorem length_pathText_le (ids : List Bytes) :
    (pathText ids).length ≤ (joinDots ids).length := by
  induction ids with
  | nil => rfl
  | cons first rest ih =>
      cases rest with
      | nil => simp [pathText, joinDots_singleton]
      | cons second rest =>
          rw [pathText]
          split
          next hempty =>
            rw [joinDots_cons, List.length_append, List.length_cons]
            omega
          next => exact length_joinDots_cString_le _

theorem joinDots_cString_eq_iff (ids : List Bytes) :
    joinDots (ids.map cString) = joinDots ids ↔ ∀ id ∈ ids, 0 ∉ id := by
  constructor
  · intro heq id hid hzero
    have hlt : (cString id).length < id.length := by
      by_contra hle
      have hsame := cString_eq_of_length (Nat.le_of_not_lt hle)
      exact (cString_eq_self_iff id).mp hsame hzero
    have hsum := List.sum_lt_sum (fun id => (cString id).length) List.length
      (fun id _ => length_cString_le id) ⟨id, hid, hlt⟩
    have hlength := congrArg List.length heq
    rw [length_joinDots, length_joinDots, List.length_map, List.map_map]
      at hlength
    simp only [Function.comp_def] at hlength
    omega
  · intro hids
    rw [List.map_congr_left fun id hid => cString_of_not_mem (hids id hid),
      List.map_id']

/-- Nothing is lost of a single id, and of several ones when the first is not
empty and none has a NUL byte. -/
theorem pathText_eq_joinDots_iff (first : Bytes) (rest : List Bytes) :
    pathText (first :: rest) = joinDots (first :: rest) ↔
      (rest ≠ [] → first ≠ [] ∧ ∀ id ∈ first :: rest, 0 ∉ id) := by
  cases rest with
  | nil => simp [pathText, joinDots_singleton]
  | cons second rest =>
      rw [pathText]
      by_cases hempty : first = []
      · have hle := length_pathText_le (second :: rest)
        simp only [hempty, if_true, ne_eq, not_true_eq_false, false_and,
          reduceCtorEq, not_false_eq_true, forall_const, iff_false]
        intro heq
        rw [heq, joinDots_cons] at hle
        simp at hle
      · rw [if_neg hempty, joinDots_cString_eq_iff]
        simp [hempty]

/-- The ids of a path can be read back exactly when none of them has a dot
and, unless there is only one, the first is not empty and none has a NUL
byte. -/
theorem contextPath_read_back_iff {first : PathCall} {rest : List PathCall}
    (hshort :
      (joinDots ((first :: rest).map PathCall.bytes)).length < 2 ^ 31) :
    (buildPath 0 [] (first :: rest)).1.splitOn dot =
        (first :: rest).map PathCall.bytes ↔
      (∀ made ∈ first :: rest, dot ∉ made.bytes) ∧
        (rest ≠ [] → first.bytes ≠ [] ∧
          ∀ made ∈ first :: rest, 0 ∉ made.bytes) := by
  rw [buildPath_eq _ hshort, splitOn_eq_iff (by simp), List.map_cons,
    pathText_eq_joinDots_iff]
  simp only [List.mem_cons, List.mem_map, List.map_eq_nil_iff, ne_eq,
    forall_eq_or_imp, forall_exists_index, and_imp,
    forall_apply_eq_imp_iff₂]
  rw [and_comm]

/-- The path of an object which is handed on in a data frame. -/
def framedCalls : List PathCall :=
  [⟨.string, ⟨ascii "foo", 0, false⟩⟩,
    ⟨.frame [(.string (ascii "index"), .long 0)], ⟨ascii "10", 1, false⟩⟩]

theorem framed_path_read_back :
    (buildPath 0 [] framedCalls).1.splitOn dot = [ascii "foo", ascii "10"] :=
  (contextPath_read_back_iff (by decide)).mpr (by decide)

/-! ## References -/

theorem callRefs_made_balanced (call : ℕ) (id : IdString) (value : Bytes) :
    Ledger.Balanced (callRefs call id (.made value)) := by
  cases hinterned : id.interned <;>
    simp [callRefs, IdString.entry, hinterned, Ledger.Balanced,
      Ledger.settle, Multiset.erase_cons_tail]

/-- The ids up to the first which is not empty. -/
def InternedStart : List IdString → Prop
  | [] => True
  | id :: rest => id.interned = true ∧ (id.bytes = [] → InternedStart rest)

theorem buildPath_balanced_iff (calls : List PathCall) (call : ℕ)
    (path : Bytes) :
    Ledger.Balanced (buildPath call path calls).2 ↔
      (path = [] → InternedStart (calls.map PathCall.id)) := by
  induction calls generalizing call path with
  | nil => simp [buildPath, InternedStart]
  | cons made rest ih =>
      simp only [buildPath, appendContextPath_carrier]
      by_cases hempty : path = []
      · simp only [hempty, if_true, ReturnedString.bytes, callRefs,
          List.map_cons, InternedStart, forall_const]
        cases hinterned : made.id.interned with
        | true =>
            simp only [IdString.entry, hinterned, if_true, List.nil_append,
              true_and]
            exact ih _ _
        | false =>
            simp [IdString.entry, hinterned, Ledger.Balanced, Ledger.settle]
      · simp only [hempty, if_false, false_implies, iff_true]
        rw [(callRefs_made_balanced _ _ _).append_iff, ih]
        simp [ReturnedString.bytes]

/-- Over the calls which build a path, every reference taken is released once
exactly when each id returned as it is, those up to the first which is not
empty, is an interned string. -/
theorem contextPath_references_iff (calls : List PathCall) :
    Ledger.Balanced (buildPath 0 [] calls).2 ↔
      InternedStart (calls.map PathCall.id) := by
  rw [buildPath_balanced_iff]
  simp

end PhpHandlebars
