import PhpHandlebars.FramedRecord
import PhpHandlebars.Zval
import Mathlib.Tactic

/-!
# The binary template format

`VM::compile` returns eight bytes of hash followed by a normalized module, and
`verify_and_load_module` takes such a string apart again.  The hash and the
header layout belong to libhandlebars and are parameters.  What a read past
the end of the string finds is a parameter too, so that nothing proved here
can depend on it.
-/

namespace PhpHandlebars

def hashLen : ℕ := 8

/-- What the extension knows about a module in memory: a fixed-size header
with the size and the version at fixed places. -/
structure ModuleFormat where
  xxh3 : Bytes → UInt64
  headerSize : ℕ
  sizeOffset : ℕ
  versionOffset : ℕ
  decodeSize : Bytes → ℕ
  decodeVersion : Bytes → ℤ
  /-- `handlebars_version()`. -/
  version : ℤ
  one_lt_headerSize : 1 < headerSize
  size_in_header : sizeOffset + 8 ≤ headerSize
  version_in_header : versionOffset + 4 ≤ headerSize

/-- The bytes at `offset` of a memory block; beyond its end, whatever the
process has there. -/
def readField (pastEnd : ℕ → UInt8) (data : Bytes) (offset width : ℕ) : Bytes :=
  (List.range width).map fun i =>
    (data[offset + i]?).getD (pastEnd (offset + i))

def ModuleFormat.getSize (format : ModuleFormat) (pastEnd : ℕ → UInt8)
    (data : Bytes) : ℕ :=
  format.decodeSize (readField pastEnd data format.sizeOffset 8)

def ModuleFormat.getVersion (format : ModuleFormat) (pastEnd : ℕ → UInt8)
    (data : Bytes) : ℤ :=
  format.decodeVersion (readField pastEnd data format.versionOffset 4)

theorem readField_congr
    {pastEnd : ℕ → UInt8} {first second : Bytes} {offset width bound : ℕ}
    (hbound : offset + width ≤ bound)
    (htake : first.take bound = second.take bound) :
    readField pastEnd first offset width =
      readField pastEnd second offset width := by
  unfold readField
  apply List.map_congr_left
  intro i hi
  have hlt : offset + i < bound := by
    have := List.mem_range.mp hi
    omega
  have hget := congrArg (fun l => l[offset + i]?) htake
  simp only [List.getElem?_take, if_pos hlt] at hget
  rw [hget]

theorem readField_of_long
    (pastEnd pastEnd' : ℕ → UInt8) {data : Bytes} {offset width : ℕ}
    (hlong : offset + width ≤ data.length) :
    readField pastEnd data offset width =
      readField pastEnd' data offset width := by
  unfold readField
  apply List.map_congr_left
  intro i hi
  have hlt : offset + i < data.length := by
    have := List.mem_range.mp hi
    omega
  simp [List.getElem?_eq_getElem hlt]

/-- `hash_pack`: the eight bytes of the hash, most significant first. -/
def hashPack (val : UInt64) : Bytes :=
  [ ((val >>> 56) &&& 0xFF).toUInt8, ((val >>> 48) &&& 0xFF).toUInt8,
    ((val >>> 40) &&& 0xFF).toUInt8, ((val >>> 32) &&& 0xFF).toUInt8,
    ((val >>> 24) &&& 0xFF).toUInt8, ((val >>> 16) &&& 0xFF).toUInt8,
    ((val >>> 8) &&& 0xFF).toUInt8, (val &&& 0xFF).toUInt8 ]

@[simp] theorem hashPack_length (val : UInt64) :
    (hashPack val).length = hashLen := rfl

def hashBin2hex (packed : Bytes) : String :=
  let hexconvtab := "0123456789abcdef".toList
  String.ofList ((packed.take hashLen).flatMap fun (byte : UInt8) =>
    [hexconvtab.getD (byte >>> 4).toNat '0',
      hexconvtab.getD (byte &&& 15).toNat '0'])

inductive LoadError where
  | bufferNotLongEnough
  | hashMismatch (actual expected : Bytes)
  | sizeMismatch (size expected : ℕ)
  | versionMismatch (compiledWith current : ℤ)
  deriving DecidableEq

def LoadError.message : LoadError → String
  | .bufferNotLongEnough =>
      "Failed to validate precompiled template: buffer not long enough"
  | .hashMismatch actual expected =>
      "Failed to validate precompiled template: template hash was " ++
        hashBin2hex actual ++ ", expected " ++ hashBin2hex expected
  | .sizeMismatch size expected =>
      "Failed to validate precompiled template: template data segment was " ++
        toString size ++ " bytes, expected " ++ toString expected
  | .versionMismatch compiledWith current =>
      "Failed to validate precompiled template: template was compiled with " ++
        "handlebars " ++ toString compiledWith ++ ", current version is " ++
        toString current

/-- Places where `verify_and_load_module` relies on the module header. -/
inductive HeaderAccess where
  | size
  | version
  | patchPointers
  deriving DecidableEq

/-- `verify_and_load_module`: the header accesses made, in order, and the
bytes copied or the error. -/
def verifyAndLoadModule (format : ModuleFormat) (pastEnd : ℕ → UInt8)
    (buf : Bytes) : List HeaderAccess × Except LoadError Bytes :=
  if buf.length ≤ hashLen then
    ([], .error .bufferNotLongEnough)
  else
    let data := buf.drop hashLen
    let hashArr := hashPack (format.xxh3 data)
    if hashArr ≠ buf.take hashLen then
      ([], .error (.hashMismatch hashArr (buf.take hashLen)))
    else if format.getSize pastEnd data ≠ data.length then
      -- the size is read a second time for the message
      ([.size, .size],
        .error (.sizeMismatch data.length (format.getSize pastEnd data)))
    else if format.getVersion pastEnd data ≠ format.version then
      ([.size, .version, .version],
        .error (.versionMismatch (format.getVersion pastEnd data)
          format.version))
    else
      ([.size, .version, .patchPointers], .ok data)

/-- What `VM::compile` returns for a normalized module. -/
def enc (format : ModuleFormat) (module : Bytes) : Bytes :=
  hashPack (format.xxh3 module) ++ module

/-! ## The format as a framed record -/

def ModuleFormat.record (format : ModuleFormat) (pastEnd : ℕ → UInt8) :
    FramedRecord UInt8 where
  digestLength := hashLen
  digest := fun data => hashPack (format.xxh3 data)
  digest_length := fun _ => rfl
  headerLength := format.headerSize
  size := format.getSize pastEnd
  size_of_header := fun _ _ htake =>
    congrArg format.decodeSize (readField_congr format.size_in_header htake)

@[simp] theorem record_body
    (format : ModuleFormat) (pastEnd : ℕ → UInt8) (buf : Bytes) :
    (format.record pastEnd).body buf = buf.drop hashLen := rfl

theorem record_frame
    (format : ModuleFormat) (pastEnd : ℕ → UInt8) (module : Bytes) :
    (format.record pastEnd).frame module = enc format module := rfl

theorem enc_drop (format : ModuleFormat) (module : Bytes) :
    (enc format module).drop hashLen = module := rfl

def Loads (format : ModuleFormat) (pastEnd : ℕ → UInt8)
    (buf module : Bytes) : Prop :=
  (verifyAndLoadModule format pastEnd buf).2 = .ok module

theorem loads_iff
    (format : ModuleFormat) (pastEnd : ℕ → UInt8) (buf module : Bytes) :
    Loads format pastEnd buf module ↔
      hashLen < buf.length ∧ (format.record pastEnd).Accepts buf ∧
        format.getVersion pastEnd (buf.drop hashLen) = format.version ∧
        module = buf.drop hashLen := by
  unfold Loads verifyAndLoadModule
  constructor
  · intro hload
    split at hload
    next => simp at hload
    next hlong =>
      simp only at hload
      split at hload
      next => simp at hload
      next hhash =>
        split at hload
        next => simp at hload
        next hsize =>
          split at hload
          next => simp at hload
          next hversion =>
            refine ⟨by omega, ⟨?_, ?_⟩, ?_, ?_⟩
            · exact not_not.mp hhash
            · exact not_not.mp hsize
            · exact not_not.mp hversion
            · simpa using hload.symm
  · rintro ⟨hlong, ⟨hhash, hsize⟩, hversion, rfl⟩
    change hashPack (format.xxh3 (buf.drop hashLen)) = buf.take hashLen at hhash
    change format.getSize pastEnd (buf.drop hashLen) =
      (buf.drop hashLen).length at hsize
    rw [if_neg (by omega)]
    simp only [hhash, hsize, hversion, ne_eq, not_true_eq_false, if_false]

/-- A module whose header says what it is: the image that
`handlebars_module_normalize_pointers` leaves. -/
structure WellFormedModule (format : ModuleFormat) where
  bytes : Bytes
  headerSize_le : format.headerSize ≤ bytes.length
  size_eq : ∀ pastEnd, format.getSize pastEnd bytes = bytes.length
  version_eq : ∀ pastEnd, format.getVersion pastEnd bytes = format.version

theorem loads_enc
    {format : ModuleFormat} (module : WellFormedModule format)
    (pastEnd : ℕ → UInt8) :
    Loads format pastEnd (enc format module.bytes) module.bytes := by
  rw [loads_iff, enc_drop]
  refine ⟨?_, ?_, module.version_eq pastEnd, rfl⟩
  · have hheader := format.one_lt_headerSize
    have hmodule := module.headerSize_le
    simp only [enc, List.length_append, hashPack_length]
    omega
  · rw [← record_frame format pastEnd]
    exact FramedRecord.accepts_frame _ (module.size_eq pastEnd)

/-- The data part holds the module header. -/
def HoldsHeader (format : ModuleFormat) (buf : Bytes) : Prop :=
  format.headerSize ≤ (buf.drop hashLen).length

/-- Round trip, uniqueness of the encoding, and no accepted string inside
another one, for any hash. -/
theorem binary_format (format : ModuleFormat) (pastEnd : ℕ → UInt8) :
    (∀ module : WellFormedModule format,
      Loads format pastEnd (enc format module.bytes) module.bytes) ∧
    (∀ buf module, Loads format pastEnd buf module →
      buf = enc format (buf.drop hashLen) ∧ module = buf.drop hashLen) ∧
    (∀ buf module head, Loads format pastEnd buf module →
      head.length = hashLen → head ≠ buf.take hashLen →
      ∀ module', ¬ Loads format pastEnd (head ++ buf.drop hashLen) module') ∧
    (∀ first second module module', HoldsHeader format first →
      Loads format pastEnd first module →
      Loads format pastEnd second module' →
      first <+: second → first = second) := by
  refine ⟨fun module => loads_enc module pastEnd, ?_, ?_, ?_⟩
  · intro buf module hload
    obtain ⟨_, haccepts, _, hmodule⟩ := (loads_iff _ _ _ _).mp hload
    exact ⟨haccepts.eq_frame, hmodule⟩
  · intro buf module head hload hlength hhead module' hload'
    obtain ⟨_, haccepts, _, _⟩ := (loads_iff _ _ _ _).mp hload
    obtain ⟨_, haccepts', _, _⟩ := (loads_iff _ _ _ _).mp hload'
    have hbody : (format.record pastEnd).body (head ++ buf.drop hashLen) =
        (format.record pastEnd).body buf := by
      rw [record_body, record_body, List.drop_left' hlength]
    have hsame := haccepts'.eq_of_body_eq haccepts hbody
    have htake := congrArg (List.take hashLen) hsame
    rw [List.take_left' hlength] at htake
    exact hhead htake
  · intro first second module module' hheader hfirst hsecond hinitial
    obtain ⟨_, haccepts, _, _⟩ := (loads_iff _ _ _ _).mp hfirst
    obtain ⟨_, haccepts', _, _⟩ := (loads_iff _ _ _ _).mp hsecond
    exact haccepts.eq_of_prefix haccepts' hheader hinitial

/-! ## Header accesses -/

/-- Past the length check and the hash check the header is always used. -/
theorem verifyAndLoadModule_accesses
    (format : ModuleFormat) (pastEnd : ℕ → UInt8) (buf : Bytes) :
    (verifyAndLoadModule format pastEnd buf).1 = [] ↔
      buf.length ≤ hashLen ∨
        hashPack (format.xxh3 (buf.drop hashLen)) ≠ buf.take hashLen := by
  unfold verifyAndLoadModule
  by_cases hshort : buf.length ≤ hashLen
  · simp [hshort]
  · by_cases hhash :
        hashPack (format.xxh3 (buf.drop hashLen)) = buf.take hashLen
    · simp only [hshort, hhash, if_false, ne_eq, not_true_eq_false, or_self,
        iff_false]
      split
      next => simp
      next => split <;> simp
    · simp [hshort, hhash]

/-- The header is used only where the string holds it, except on strings
with too few bytes of data for a header which carry the hash of these bytes:
the length check does not know the header size. -/
theorem header_access_in_bounds_iff
    (format : ModuleFormat) (pastEnd : ℕ → UInt8) (buf : Bytes) :
    (∀ access ∈ (verifyAndLoadModule format pastEnd buf).1,
        HoldsHeader format buf) ↔
      ¬ (hashLen < buf.length ∧ buf.length < hashLen + format.headerSize ∧
        hashPack (format.xxh3 (buf.drop hashLen)) = buf.take hashLen) := by
  have haccesses := verifyAndLoadModule_accesses format pastEnd buf
  have hholds : HoldsHeader format buf ↔
      hashLen + format.headerSize ≤ buf.length := by
    have hheader := format.one_lt_headerSize
    unfold HoldsHeader
    rw [List.length_drop]
    omega
  constructor
  · rintro hbounds ⟨hlong, hshort, hhash⟩
    have hused : (verifyAndLoadModule format pastEnd buf).1 ≠ [] := by
      intro hempty
      rcases haccesses.mp hempty with hlength | hmismatch
      · omega
      · exact hmismatch hhash
    obtain ⟨access, hmem⟩ := List.exists_mem_of_ne_nil _ hused
    have hlength := hholds.mp (hbounds access hmem)
    omega
  · intro hcases access hmem
    rw [hholds]
    by_contra hshort
    refine hcases ⟨?_, by omega, ?_⟩
    · by_contra hlong
      simp [haccesses.mpr (.inl (by omega))] at hmem
    · by_contra hhash
      simp [haccesses.mpr (.inr hhash)] at hmem

/-! ## A sample format -/

def littleEndian (bytes : Bytes) : ℕ :=
  bytes.foldr (fun byte value => byte.toNat + 256 * value) 0

/-- A header of sixteen bytes: size, version, four bytes of padding. -/
def sampleFormat : ModuleFormat where
  xxh3 := fun data => data.foldl (fun hash byte => hash * 31 + byte.toUInt64) 7
  headerSize := 16
  sizeOffset := 0
  versionOffset := 8
  decodeSize := littleEndian
  decodeVersion := fun bytes => littleEndian bytes
  version := 10000
  one_lt_headerSize := by decide
  size_in_header := by decide
  version_in_header := by decide

def sampleHeader : Bytes :=
  [17, 0, 0, 0, 0, 0, 0, 0, 16, 39, 0, 0, 0, 0, 0, 0]

theorem readField_sampleHeader
    (pastEnd : ℕ → UInt8) (rest : Bytes) {offset width : ℕ}
    (hbound : offset + width ≤ sampleFormat.headerSize) :
    readField pastEnd (sampleHeader ++ rest) offset width =
      readField (fun _ => 0) sampleHeader offset width := by
  have hheader : readField pastEnd (sampleHeader ++ rest) offset width =
      readField pastEnd sampleHeader offset width :=
    readField_congr hbound (List.take_left' rfl)
  rw [hheader]
  exact readField_of_long pastEnd (fun _ => 0) hbound

def sampleModule (byte : UInt8) : WellFormedModule sampleFormat where
  bytes := sampleHeader ++ [byte]
  headerSize_le := by simp [sampleHeader, sampleFormat]
  size_eq := by
    intro pastEnd
    rw [ModuleFormat.getSize,
      readField_sampleHeader pastEnd [byte] sampleFormat.size_in_header,
      List.length_append, List.length_singleton]
    decide
  version_eq := by
    intro pastEnd
    rw [ModuleFormat.getVersion,
      readField_sampleHeader pastEnd [byte] sampleFormat.version_in_header]
    decide

/-- One data byte behind its hash: the size field is read all the same. -/
theorem header_read_past_short_string :
    HeaderAccess.size ∈
        (verifyAndLoadModule sampleFormat (fun _ => 0)
          (enc sampleFormat [0])).1 ∧
      ¬ HoldsHeader sampleFormat (enc sampleFormat [0]) := by
  unfold HoldsHeader
  decide

end PhpHandlebars
