import PhpHandlebars.ExpressionEscaping
import Mathlib.Tactic

/-!
# `Utils::escapeExpression`

With `ENT_QUOTES` the engine escapes apostrophes as well, and the result is
not read as a C string.
-/

namespace PhpHandlebars

open SymbolCode

/-- What `ENT_QUOTES` makes `php_escape_html_entities_ex` replace. -/
def quotesEntities : Table UInt8 :=
  compatEntities ++ [(apostrophe, ascii "&#039;")]

def phpEscapeHtmlQuotes (old : Bytes) : Bytes :=
  if old.toByteArray.validateUTF8 then substitute quotesEntities old else []

/-- Other than `escapeExpressionCompat`, it takes booleans and arrays for
what `convert_to_string` makes of them. -/
def escapeExpression (engine : StringEngine) (val : Zval) : Zval :=
  let safe := match val with
    | .object handle => engine.safeString handle
    | _ => none
  match safe with
  | some value => value
  | none =>
      let text := match val with
        | .string value => value
        | val => engine.convertToString val
      .string (phpEscapeHtmlQuotes text)

theorem escapeExpression_string (engine : StringEngine) (value : Bytes) :
    escapeExpression engine (.string value) =
      .string (phpEscapeHtmlQuotes value) := rfl

/-! ## Characters -/

/-- A table of ASCII characters does the same to bytes and to characters. -/
theorem substitute_utf8_of_ascii {bytes : Table UInt8} {table : Table Char}
    (hascii : ∀ n < 128, substituteSymbol bytes (UInt8.ofNat n) =
      utf8 (substituteSymbol table (Char.ofNat n)))
    (hbytes : ∀ byte ∈ bytes.map Prod.fst, byte.toNat < 128)
    (htable : ∀ char ∈ table.map Prod.fst, char.toNat < 128)
    (chars : List Char) :
    substitute bytes (utf8 chars) = utf8 (substitute table chars) := by
  induction chars with
  | nil => rfl
  | cons char rest ih =>
      have hchar : substitute bytes (String.utf8EncodeChar char) =
          utf8 (substituteSymbol table char) := by
        by_cases hsmall : char.toNat < 128
        · have hsymbol := hascii char.toNat hsmall
          rw [Char.ofNat_toNat] at hsymbol
          rw [utf8EncodeChar_ascii hsmall, substitute_cons, substitute_nil,
            List.append_nil, hsymbol]
        · have hkept : substitute bytes (String.utf8EncodeChar char) =
              String.utf8EncodeChar char := by
            apply substitute_of_no_word
            intro byte hbyte
            rw [word_eq_none_iff]
            intro hmem
            have hge := utf8EncodeChar_multibyte (by omega) hbyte
            have hlt := hbytes byte hmem
            omega
          have hword : word table char = none := by
            rw [word_eq_none_iff]
            intro hmem
            exact hsmall (htable char hmem)
          rw [hkept, substituteSymbol, hword]
          simp [utf8]
      have hsplit : utf8 (char :: rest) =
          String.utf8EncodeChar char ++ utf8 rest := rfl
      have happend : utf8 (substitute table (char :: rest)) =
          utf8 (substituteSymbol table char) ++
            utf8 (substitute table rest) := by
        simp [utf8]
      rw [hsplit, substitute_append, hchar, ih, happend]

def htmlQuoteEntities : Table Char :=
  [('&', "&amp;".toList), ('<', "&lt;".toList), ('>', "&gt;".toList),
    (Char.ofNat 34, "&quot;".toList), (Char.ofNat 39, "&#039;".toList)]

theorem htmlQuoteEntities_readable : Readable htmlQuoteEntities '&' where
  marked := by decide
  covered := by decide
  apart := by decide

theorem substitute_quotes_utf8 (chars : List Char) :
    substitute quotesEntities (utf8 chars) =
      utf8 (substitute htmlQuoteEntities chars) := by
  apply substitute_utf8_of_ascii
  · decide +kernel
  · simp [quotesEntities, compatEntities, apostrophe]
  · simp [htmlQuoteEntities]

/-- The characters with which an attribute value or an element can be broken
out of. -/
def markupCharacters : List Char :=
  ['<', '>', Char.ofNat 34, Char.ofNat 39]

theorem markup_not_mem (chars : List Char) {char : Char}
    (hchar : char ∈ markupCharacters) :
    char ∉ substitute htmlQuoteEntities chars := by
  have hhas : ∀ other ∈ markupCharacters,
      other ∈ htmlQuoteEntities.map Prod.fst := by
    simp [markupCharacters, htmlQuoteEntities]
  have hwords : ∀ other ∈ markupCharacters, ∀ entry ∈ htmlQuoteEntities,
      other ∉ entry.2 := by
    simp [markupCharacters, htmlQuoteEntities]
  exact not_mem_substitute (hhas char hchar) (hwords char hchar) chars

/-- Every string of characters, NUL among them, is escaped without a loss,
and nothing of it is left to break out of markup with. -/
theorem escapeExpression_lossless (engine : StringEngine)
    (chars : List Char) :
    ∃ text, escapeExpression engine (.string (utf8 chars)) =
        .string (utf8 text) ∧
      (∀ char ∈ markupCharacters, char ∉ text) ∧
      readBack htmlQuoteEntities text = chars := by
  refine ⟨substitute htmlQuoteEntities chars, ?_, ?_, ?_⟩
  · rw [escapeExpression_string, phpEscapeHtmlQuotes,
      if_pos (validateUTF8_utf8 chars), substitute_quotes_utf8]
  · intro char hchar
    exact markup_not_mem chars hchar
  · exact htmlQuoteEntities_readable.readBack_substitute chars

/-! ## Agreement with `escapeExpressionCompat` -/

theorem word_quotesEntities {byte : UInt8} (hbyte : byte ≠ apostrophe) :
    word quotesEntities byte = word compatEntities byte := by
  simp [word, quotesEntities, List.find?_append, Ne.symm hbyte]

theorem word_bothEntities {byte : UInt8} (hback : byte ≠ backquote)
    (hapostrophe : byte ≠ apostrophe) :
    word (compatEntities ++ quoteEntities) byte =
      word compatEntities byte := by
  simp [word, quoteEntities, List.find?_append, Ne.symm hback,
    Ne.symm hapostrophe]

theorem compat_words_kept : ∀ entry ∈ compatEntities, ∀ symbol ∈ entry.2,
    word quoteEntities symbol = none := by
  simp [compatEntities, quoteEntities, word_eq_none_iff, ascii, backquote,
    apostrophe]

/-- The two tables differ on the two quotes, and on nothing else. -/
theorem substitute_eq_iff (value : Bytes) :
    substitute (compatEntities ++ quoteEntities) value =
        substitute quotesEntities value ↔
      backquote ∉ value ∧ apostrophe ∉ value := by
  induction value with
  | nil => simp
  | cons byte rest ih =>
      rw [substitute_cons, substitute_cons]
      by_cases hback : byte = backquote
      · subst hback
        simp [substituteSymbol, word, compatEntities, quoteEntities,
          quotesEntities, backquote, apostrophe, ascii]
      · by_cases hapostrophe : byte = apostrophe
        · subst hapostrophe
          simp [substituteSymbol, word, compatEntities, quoteEntities,
            quotesEntities, backquote, apostrophe, ascii]
        · have hsymbol : substituteSymbol (compatEntities ++ quoteEntities)
              byte = substituteSymbol quotesEntities byte := by
            rw [substituteSymbol, substituteSymbol,
              word_bothEntities hback hapostrophe,
              word_quotesEntities hapostrophe]
          rw [hsymbol, List.append_cancel_left_eq, ih]
          simp [Ne.symm hback, Ne.symm hapostrophe]

theorem compat_passes {value : Bytes} (hvalue : 0 ∉ value) :
    substitute quoteEntities (cString (substitute compatEntities value)) =
      substitute (compatEntities ++ quoteEntities) value := by
  have hwords : ∀ entry ∈ compatEntities, 0 ∉ entry.2 := by decide
  rw [cString_of_not_mem (zero_not_mem_substitute hwords hvalue),
    substitute_substitute compat_words_kept]

/-- The two functions differ exactly on texts with an apostrophe, a backquote
or a NUL byte. -/
theorem escapings_agree_iff (engine : StringEngine) (value : Bytes) :
    escapeExpressionCompat engine (.string value) =
        .ok (escapeExpression engine (.string value)) ↔
      (value.toByteArray.validateUTF8 →
        0 ∉ value ∧ backquote ∉ value ∧ apostrophe ∉ value) := by
  rw [escapeExpressionCompat_string, escapeExpression_string,
    phpEscapeHtmlEntities, phpEscapeHtmlQuotes]
  by_cases hvalid : value.toByteArray.validateUTF8
  · simp only [hvalid, if_true, forall_const, Except.ok.injEq,
      Zval.string.injEq]
    by_cases hzero : 0 ∈ value
    · have hkept : word quotesEntities 0 = none := by decide
      have hwords : ∀ entry ∈ quoteEntities, 0 ∉ entry.2 := by decide
      simp only [hzero, not_true_eq_false, false_and, iff_false]
      intro heq
      have hmem := mem_substitute hkept hzero
      rw [← heq] at hmem
      exact zero_not_mem_substitute hwords (zero_not_mem_cString _) hmem
    · rw [compat_passes hzero, substitute_eq_iff]
      simp [hzero]
  · simp only [hvalid, Bool.false_eq_true, if_false, false_implies, iff_true]
    rfl

end PhpHandlebars
