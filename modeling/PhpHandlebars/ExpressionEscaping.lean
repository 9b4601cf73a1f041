import PhpHandlebars.ArrayFill
import PhpHandlebars.PhpArray
import PhpHandlebars.SymbolCode
import Mathlib.Tactic

/-!
# `Utils::escapeExpressionCompat`

The engine escapes `&`, `<`, `>` and the double quote; a copying loop over the
result, which is read as a C string, then replaces backquotes and apostrophes.
-/

namespace PhpHandlebars

open SymbolCode

/-- What the engine does with values which are no strings. -/
structure StringEngine where
  convertToString : Zval → Bytes
  /-- `php_implode` with a comma -/
  implode : HashTable → Bytes
  /-- whether the class of an object has `__toString` -/
  hasToString : ℕ → Bool
  /-- the property `value` of a `Handlebars\SafeString` -/
  safeString : ℕ → Option Zval

def runtimeException (message : String) : Exception :=
  .made .runtimeException message (.other 0)

def phpHandlebarsExpression (engine : StringEngine) (val : Zval) :
    Except Exception Bytes :=
  match val with
  | .true => .ok (ascii "true")
  | .false => .ok (ascii "false")
  | .array table =>
      if phpHandlebarsIsIntArray (.array table) then
        .ok (engine.implode table)
      else
        .error (runtimeException "Trying to stringify assoc array")
  | .object handle =>
      if engine.hasToString handle then
        .ok (engine.convertToString (.object handle))
      else
        .error (runtimeException "Trying to stringify object")
  | .string value => .ok value
  | val => .ok (engine.convertToString val)

/-- What `ENT_COMPAT` makes `php_escape_html_entities_ex` replace. -/
def compatEntities : Table UInt8 :=
  [(38, ascii "&amp;"), (60, ascii "&lt;"), (62, ascii "&gt;"),
    (34, ascii "&quot;")]

/-- `php_escape_html_entities_ex` with `ENT_COMPAT`, UTF-8 and double
encoding; a string which is not UTF-8 becomes the empty string. -/
def phpEscapeHtmlEntities (old : Bytes) : Bytes :=
  if old.toByteArray.validateUTF8 then substitute compatEntities old else []

def backquote : UInt8 := 96

def apostrophe : UInt8 := 39

/-- The counting loop of `php_handlebars_escape_expression_replace_helper`. -/
def countOccurrences (occurrences : ℕ) : Bytes → ℕ
  | [] => occurrences
  | c :: source =>
      if c = backquote ∨ c = apostrophe then
        countOccurrences (occurrences + 1) source
      else
        countOccurrences occurrences source

/-- The copying loop; each store is one `*target++ = …`. -/
def replaceCopy (output : ArrayFill UInt8) : Bytes → ArrayFill UInt8
  | [] => output.store 0
  | c :: source =>
      if c = backquote then
        replaceCopy ((((((output.store 38).store 35).store 120).store 54).store
          48).store 59) source
      else if c = apostrophe then
        replaceCopy ((((((output.store 38).store 35).store 120).store 50).store
          55).store 59) source
      else
        replaceCopy (output.store c) source

/-- What the helper returns: `estrdup` of its input, or the buffer it has
filled. -/
inductive ReplaceResult where
  | duplicate (input : Bytes)
  | buffer (output : ArrayFill UInt8)

/-- The input ends at its first NUL byte. -/
def escapeExpressionReplaceHelper (input : Bytes) : ReplaceResult :=
  let source := cString input
  let oldlen := source.length
  if oldlen = 0 then .duplicate source
  else
    let occurrences := countOccurrences 0 source
    if occurrences = 0 then .duplicate source
    else
      let newlen := oldlen + occurrences * 5 + 1
      .buffer (replaceCopy (.allocate newlen) source)

def ReplaceResult.bytes : ReplaceResult → Bytes
  | .duplicate input => cString input
  | .buffer output => cString output.stored

def escapeExpressionCompat (engine : StringEngine) (val : Zval) :
    Except Exception Zval :=
  let safe := match val with
    | .object handle => engine.safeString handle
    | _ => none
  match safe with
  | some value => .ok value
  | none => do
      let tmp ← phpHandlebarsExpression engine val
      let replaced := phpEscapeHtmlEntities tmp
      return .string (escapeExpressionReplaceHelper replaced).bytes

/-! ## The copying loop -/

def quoteEntities : Table UInt8 :=
  [(backquote, ascii "&#x60;"), (apostrophe, ascii "&#x27;")]

theorem replaceCopy_eq (output : ArrayFill UInt8) (source : Bytes) :
    replaceCopy output source =
      output.storeAll (substitute quoteEntities source ++ [0]) := by
  induction source generalizing output with
  | nil => rfl
  | cons c source ih =>
      rw [substitute_cons, List.append_assoc, ArrayFill.storeAll_append]
      by_cases hback : c = backquote
      · rw [replaceCopy, if_pos hback, ih, hback]
        rfl
      · by_cases hapostrophe : c = apostrophe
        · rw [replaceCopy, if_neg hback, if_pos hapostrophe, ih, hapostrophe]
          rfl
        · have hword : substituteSymbol quoteEntities c = [c] := by
            simp [substituteSymbol, word, quoteEntities, Ne.symm hback,
              Ne.symm hapostrophe]
          rw [replaceCopy, if_neg hback, if_neg hapostrophe, ih, hword]
          rfl

theorem countOccurrences_eq (occurrences : ℕ) (source : Bytes) :
    countOccurrences occurrences source = occurrences +
      source.countP fun c => c = backquote ∨ c = apostrophe := by
  induction source generalizing occurrences with
  | nil => rfl
  | cons c source ih =>
      by_cases hquote : c = backquote ∨ c = apostrophe
      · rw [countOccurrences, if_pos hquote, ih,
          List.countP_cons_of_pos (by simpa using hquote)]
        omega
      · rw [countOccurrences, if_neg hquote, ih,
          List.countP_cons_of_neg (by simpa using hquote)]

theorem zero_not_mem_substitute {table : Table UInt8}
    (hwords : ∀ entry ∈ table, 0 ∉ entry.2) {bytes : Bytes}
    (hbytes : 0 ∉ bytes) : 0 ∉ substitute table bytes :=
  fun hmem => hbytes (mem_of_mem_substitute hwords hmem)

/-- Whatever branch it takes, the helper replaces the quotes of the C
string. -/
theorem replaceHelper_bytes (input : Bytes) :
    (escapeExpressionReplaceHelper input).bytes =
      substitute quoteEntities (cString input) := by
  have hzero := zero_not_mem_cString input
  have hkeep : cString (cString input) = cString input :=
    cString_of_not_mem hzero
  simp only [escapeExpressionReplaceHelper]
  split
  next hempty =>
    rw [List.length_eq_zero_iff] at hempty
    rw [ReplaceResult.bytes, hkeep, hempty]
    rfl
  next =>
    split
    next hnone =>
      rw [countOccurrences_eq, zero_add, List.countP_eq_zero] at hnone
      rw [ReplaceResult.bytes, hkeep, substitute_of_no_word]
      intro symbol hsymbol
      have hquote := hnone symbol hsymbol
      rw [word_eq_none_iff]
      simpa [quoteEntities] using hquote
    next =>
      have hwords : ∀ entry ∈ quoteEntities, 0 ∉ entry.2 := by decide
      rw [ReplaceResult.bytes, replaceCopy_eq, ArrayFill.allocate_stored,
        cString_append_zero (zero_not_mem_substitute hwords hzero)]

theorem length_substitute_quotes (source : Bytes) :
    (substitute quoteEntities source).length =
      source.length + countOccurrences 0 source * 5 := by
  rw [countOccurrences_eq, zero_add]
  induction source with
  | nil => rfl
  | cons c source ih =>
      rw [substitute_cons, List.length_append, ih, List.length_cons]
      by_cases hquote : c = backquote ∨ c = apostrophe
      · rw [List.countP_cons_of_pos (by simpa using hquote)]
        have hword : (substituteSymbol quoteEntities c).length = 6 := by
          rcases hquote with rfl | rfl <;> rfl
        omega
      · rw [List.countP_cons_of_neg (by simpa using hquote)]
        have hword : word quoteEntities c = none := by
          rw [word_eq_none_iff]
          simpa [quoteEntities] using hquote
        have hlength : (substituteSymbol quoteEntities c).length = 1 := by
          rw [substituteSymbol, hword]
          rfl
        omega

def quotes (source : Bytes) : ℕ :=
  source.countP fun c => c = backquote ∨ c = apostrophe

/-- The buffer has room for the source, five more bytes for each quote and a
NUL byte, and is written from end to end with the replaced source. -/
structure FillsExactly (source : Bytes) (output : ArrayFill UInt8) : Prop where
  allocated : output.slots = source.length + 5 * quotes source + 1
  inBounds : output.InBounds
  filledOnce : output.FilledOnce
  stored : output.stored = substitute quoteEntities source ++ [0]
  terminated : output.stores.getLast? = some (output.slots - 1, 0)

theorem replaceCopy_fillsExactly (source : Bytes) :
    FillsExactly source (replaceCopy
      (.allocate (source.length + countOccurrences 0 source * 5 + 1))
        source) := by
  have hlength := length_substitute_quotes source
  have hcount : countOccurrences 0 source = quotes source := by
    rw [countOccurrences_eq, zero_add]
    rfl
  have hfilled : (replaceCopy
      (.allocate (source.length + countOccurrences 0 source * 5 + 1))
        source).FilledOnce := by
    rw [replaceCopy_eq, ArrayFill.filledOnce_iff, List.length_append, hlength]
    rfl
  constructor
  · rw [replaceCopy_eq, ArrayFill.storeAll_slots]
    change source.length + countOccurrences 0 source * 5 + 1 = _
    omega
  · exact hfilled.inBounds
  · exact hfilled
  · rw [replaceCopy_eq, ArrayFill.allocate_stored]
  · rw [replaceCopy_eq, ArrayFill.storeAll_append, ArrayFill.storeAll_cons,
      ArrayFill.storeAll_nil]
    simp only [ArrayFill.store, List.getLast?_append, List.getLast?_singleton,
      ArrayFill.allocate_next, hlength, ArrayFill.storeAll_slots]
    rfl

/-- Without a quote the helper duplicates its input; otherwise it fills the
buffer it has allocated exactly. -/
theorem escapeExpressionReplaceHelper_exact (input : Bytes) :
    (quotes (cString input) = 0 →
        escapeExpressionReplaceHelper input = .duplicate (cString input)) ∧
      (quotes (cString input) ≠ 0 →
        ∃ output, escapeExpressionReplaceHelper input = .buffer output ∧
          FillsExactly (cString input) output) := by
  have hcount : countOccurrences 0 (cString input) =
      quotes (cString input) := by
    rw [countOccurrences_eq, zero_add]
    rfl
  constructor
  · intro hnone
    simp only [escapeExpressionReplaceHelper, hcount, if_pos hnone, ite_self]
  · intro hsome
    have hlength : (cString input).length ≠ 0 := by
      have hle : quotes (cString input) ≤ (cString input).length :=
        List.countP_le_length
      omega
    refine ⟨_, ?_, replaceCopy_fillsExactly (cString input)⟩
    simp only [escapeExpressionReplaceHelper, if_neg hlength,
      if_neg (hcount ▸ hsome)]

theorem escapeExpressionCompat_string (engine : StringEngine) (value : Bytes) :
    escapeExpressionCompat engine (.string value) =
      .ok (.string (substitute quoteEntities
        (cString (phpEscapeHtmlEntities value)))) := by
  rw [← replaceHelper_bytes]
  rfl

/-! ## UTF-8 -/

def utf8 (chars : List Char) : Bytes :=
  chars.flatMap String.utf8EncodeChar

def nul : Char := Char.ofNat 0

theorem validateUTF8_utf8 (chars : List Char) :
    (utf8 chars).toByteArray.validateUTF8 := by
  rw [ByteArray.validateUTF8_eq_true_iff]
  exact ⟨chars, rfl⟩

theorem utf8EncodeChar_ascii {char : Char} (hchar : char.toNat < 128) :
    String.utf8EncodeChar char = [UInt8.ofNat char.toNat] := by
  have hle : char.val.toNat ≤ 127 := by
    change char.toNat ≤ 127
    omega
  simp only [String.utf8EncodeChar, if_pos hle]
  rfl

theorem utf8EncodeChar_multibyte {char : Char} (hchar : 128 ≤ char.toNat)
    {byte : UInt8} (hbyte : byte ∈ String.utf8EncodeChar char) :
    128 ≤ byte.toNat := by
  have hgt : ¬char.val.toNat ≤ 127 := by
    change ¬char.toNat ≤ 127
    omega
  have hhigh : ∀ n, 128 ≤ n % 256 → 128 ≤ (UInt8.ofNat n).toNat := by
    intro n hn
    simpa using hn
  simp only [String.utf8EncodeChar, if_neg hgt] at hbyte
  split at hbyte
  next =>
    simp only [List.mem_cons, List.not_mem_nil, or_false] at hbyte
    rcases hbyte with rfl | rfl <;> apply hhigh <;> omega
  next =>
    split at hbyte
    next =>
      simp only [List.mem_cons, List.not_mem_nil, or_false] at hbyte
      rcases hbyte with rfl | rfl | rfl <;> apply hhigh <;> omega
    next =>
      simp only [List.mem_cons, List.not_mem_nil, or_false] at hbyte
      rcases hbyte with rfl | rfl | rfl | rfl <;> apply hhigh <;> omega

theorem zero_mem_utf8 (chars : List Char) : 0 ∈ utf8 chars ↔ nul ∈ chars := by
  unfold utf8
  rw [List.mem_flatMap]
  constructor
  · intro hmem
    obtain ⟨char, hchar, hzero⟩ := hmem
    by_cases hascii : char.toNat < 128
    · rw [utf8EncodeChar_ascii hascii, List.mem_singleton] at hzero
      have hvalue : char.toNat % 256 = 0 := by
        simpa using (congrArg UInt8.toNat hzero).symm
      have hnat : char.toNat = 0 := by omega
      have hnul : char = nul := by
        rw [← Char.ofNat_toNat char, hnat]
        rfl
      rwa [← hnul]
    · have hge := utf8EncodeChar_multibyte (by omega) hzero
      simp at hge
  · intro hmem
    exact ⟨nul, hmem, by decide⟩

/-! ## The table of the documentation -/

def htmlEntities : Table Char :=
  [('&', "&amp;".toList), ('<', "&lt;".toList), ('>', "&gt;".toList),
    (Char.ofNat 34, "&quot;".toList), (Char.ofNat 96, "&#x60;".toList),
    (Char.ofNat 39, "&#x27;".toList)]

/-- The characters with which markup can be broken out of. -/
def unsafeCharacters : List Char :=
  ['<', '>', Char.ofNat 34, Char.ofNat 39, Char.ofNat 96]

theorem htmlEntities_readable : Readable htmlEntities '&' where
  marked := by decide
  covered := by decide
  apart := by decide

theorem unsafe_not_mem (chars : List Char) {char : Char}
    (hchar : char ∈ unsafeCharacters) :
    char ∉ substitute htmlEntities chars := by
  have hhas : ∀ other ∈ unsafeCharacters,
      other ∈ htmlEntities.map Prod.fst := by
    simp [unsafeCharacters, htmlEntities]
  have hwords : ∀ other ∈ unsafeCharacters, ∀ entry ∈ htmlEntities,
      other ∉ entry.2 := by
    simp [unsafeCharacters, htmlEntities]
  exact not_mem_substitute (hhas char hchar) (hwords char hchar) chars

/-- On ASCII characters the tables of the two passes are the one of the
documentation. -/
theorem substituteSymbol_ascii : ∀ n < 128,
    substituteSymbol (compatEntities ++ quoteEntities) (UInt8.ofNat n) =
      utf8 (substituteSymbol htmlEntities (Char.ofNat n)) := by
  decide +kernel

theorem word_multibyte {char : Char} (hchar : 128 ≤ char.toNat) :
    word htmlEntities char = none := by
  rw [word_eq_none_iff]
  intro hmem
  have hsmall : ∀ other ∈ htmlEntities.map Prod.fst, other.toNat < 128 := by
    simp [htmlEntities]
  have hlt := hsmall char hmem
  omega

theorem substitute_multibyte {char : Char} (hchar : 128 ≤ char.toNat) :
    substitute (compatEntities ++ quoteEntities) (String.utf8EncodeChar char) =
      String.utf8EncodeChar char := by
  apply substitute_of_no_word
  intro byte hbyte
  rw [word_eq_none_iff]
  intro hmem
  have hsmall : ∀ other ∈ (compatEntities ++ quoteEntities).map Prod.fst,
      other.toNat < 128 := by
    simp [compatEntities, quoteEntities, backquote, apostrophe]
  have hge := utf8EncodeChar_multibyte hchar hbyte
  have hlt := hsmall byte hmem
  omega

/-- The two passes together are the table of the documentation, also on
characters of several bytes. -/
theorem substitute_utf8 (chars : List Char) :
    substitute (compatEntities ++ quoteEntities) (utf8 chars) =
      utf8 (substitute htmlEntities chars) := by
  induction chars with
  | nil => rfl
  | cons char rest ih =>
      have hchar : substitute (compatEntities ++ quoteEntities)
          (String.utf8EncodeChar char) =
            utf8 (substituteSymbol htmlEntities char) := by
        by_cases hascii : char.toNat < 128
        · have hsymbol := substituteSymbol_ascii char.toNat hascii
          rw [Char.ofNat_toNat] at hsymbol
          rw [utf8EncodeChar_ascii hascii, substitute_cons, substitute_nil,
            List.append_nil, hsymbol]
        · rw [substitute_multibyte (by omega), substituteSymbol,
            word_multibyte (by omega)]
          simp [utf8]
      have hsplit : utf8 (char :: rest) =
          String.utf8EncodeChar char ++ utf8 rest := rfl
      have happend : utf8 (substitute htmlEntities (char :: rest)) =
          utf8 (substituteSymbol htmlEntities char) ++
            utf8 (substitute htmlEntities rest) := by
        simp [utf8]
      rw [hsplit, substitute_append, hchar, ih, happend]

structure Lossless (chars text : List Char) : Prop where
  replaced : text = substitute htmlEntities chars
  safe : ∀ char ∈ unsafeCharacters, char ∉ text
  decoded : readBack htmlEntities text = chars

theorem lossless_iff (chars text : List Char) :
    Lossless chars text ↔ text = substitute htmlEntities chars := by
  constructor
  · intro hlossless
    exact hlossless.replaced
  · rintro rfl
    constructor
    · rfl
    · intro char hchar
      exact unsafe_not_mem chars hchar
    · exact htmlEntities_readable.readBack_substitute chars

theorem escapeExpressionCompat_utf8 (engine : StringEngine)
    (chars : List Char) :
    escapeExpressionCompat engine (.string (utf8 chars)) =
      .ok (.string (substitute quoteEntities
        (cString (substitute compatEntities (utf8 chars))))) := by
  rw [escapeExpressionCompat_string, phpEscapeHtmlEntities,
    if_pos (validateUTF8_utf8 chars)]

/-- Without a NUL character the copying loop sees all of its input. -/
theorem escapeExpressionCompat_of_no_nul (engine : StringEngine)
    {chars : List Char} (hchars : nul ∉ chars) :
    escapeExpressionCompat engine (.string (utf8 chars)) =
      .ok (.string (utf8 (substitute htmlEntities chars))) := by
  have hzero : 0 ∉ utf8 chars := by
    rwa [zero_mem_utf8]
  have hwords : ∀ entry ∈ compatEntities, 0 ∉ entry.2 := by decide
  have hquotes : ∀ entry ∈ compatEntities, ∀ symbol ∈ entry.2,
      word quoteEntities symbol = none := by
    simp [compatEntities, quoteEntities, word_eq_none_iff, ascii, backquote,
      apostrophe]
  rw [escapeExpressionCompat_utf8,
    cString_of_not_mem (zero_not_mem_substitute hwords hzero),
    substitute_substitute hquotes, substitute_utf8]

/-- The output never has a NUL byte, whatever the input has. -/
theorem escapeExpressionCompat_no_zero (engine : StringEngine)
    (chars : List Char) {output : Bytes}
    (houtput : escapeExpressionCompat engine (.string (utf8 chars)) =
      .ok (.string output)) : 0 ∉ output := by
  rw [escapeExpressionCompat_utf8] at houtput
  injection houtput with houtput
  injection houtput with houtput
  rw [← houtput]
  have hwords : ∀ entry ∈ quoteEntities, 0 ∉ entry.2 := by decide
  exact zero_not_mem_substitute hwords (zero_not_mem_cString _)

/-- A string is escaped without a loss exactly when it has no NUL character,
at which the copying loop would stop. -/
theorem escapeExpressionCompat_lossless_iff (engine : StringEngine)
    (chars : List Char) :
    (∃ text, escapeExpressionCompat engine (.string (utf8 chars)) =
        .ok (.string (utf8 text)) ∧ Lossless chars text) ↔
      nul ∉ chars := by
  constructor
  · rintro ⟨text, hescape, hlossless⟩ hnul
    have hzero := escapeExpressionCompat_no_zero engine chars hescape
    rw [zero_mem_utf8, hlossless.replaced] at hzero
    have hkept : word htmlEntities nul = none := by decide
    exact hzero (mem_substitute hkept hnul)
  · intro hchars
    use substitute htmlEntities chars
    constructor
    · exact escapeExpressionCompat_of_no_nul engine hchars
    · rw [lossless_iff]

def plainStrings : StringEngine where
  convertToString _ := []
  implode _ := []
  hasToString _ := false
  safeString _ := none

/-- The rest of a text is lost behind a NUL character. -/
theorem escaping_stops_at_nul :
    escapeExpressionCompat plainStrings
        (.string (utf8 ['a', nul, '<'])) = .ok (.string (ascii "a")) ∧
      ¬∃ text, escapeExpressionCompat plainStrings
          (.string (utf8 ['a', nul, '<'])) = .ok (.string (utf8 text)) ∧
        Lossless ['a', nul, '<'] text := by
  have houtput : escapeExpressionCompat plainStrings
      (.string (utf8 ['a', nul, '<'])) = .ok (.string (ascii "a")) := by
    rw [escapeExpressionCompat_utf8]
    rfl
  constructor
  · exact houtput
  · rintro ⟨text, hescape, hlossless⟩
    have hzero := escapeExpressionCompat_no_zero plainStrings _ hescape
    rw [hlossless.replaced] at hzero
    exact absurd hzero (by decide)

end PhpHandlebars
