import Mathlib.Data.List.Basic
import Mathlib.Data.List.Infix
import Mathlib.Tactic

/-!
# Texts in which some symbols are written as words

A table gives words for some symbols; the others stand for themselves.  When
all words begin with a marker, which is itself written as a word, and none of
them begins with another, the text can be read back.
-/

namespace SymbolCode

variable {α : Type} [DecidableEq α]

abbrev Table (α : Type) := List (α × List α)

def word (table : Table α) (symbol : α) : Option (List α) :=
  (table.find? fun entry => entry.1 = symbol).map Prod.snd

def substituteSymbol (table : Table α) (symbol : α) : List α :=
  (word table symbol).getD [symbol]

def substitute (table : Table α) (text : List α) : List α :=
  text.flatMap (substituteSymbol table)

/-- Reads the word at the front, if there is one, and else a symbol. -/
def readFrom (table : Table α) : ℕ → List α → List α
  | 0, _ => []
  | _ + 1, [] => []
  | fuel + 1, first :: rest =>
      match table.find? fun entry => entry.2.isPrefixOf (first :: rest) with
      | some entry =>
          entry.1 :: readFrom table fuel
            ((first :: rest).drop entry.2.length)
      | none => first :: readFrom table fuel rest

def readBack (table : Table α) (text : List α) : List α :=
  readFrom table text.length text

structure Readable (table : Table α) (marker : α) : Prop where
  marked : ∀ entry ∈ table, entry.2.head? = some marker
  covered : (word table marker).isSome
  apart : ∀ entry ∈ table, ∀ other ∈ table, entry.2 <+: other.2 →
    entry = other

variable {table : Table α}

@[simp] theorem substitute_nil : substitute table [] = [] := rfl

@[simp] theorem substitute_cons (symbol : α) (rest : List α) :
    substitute table (symbol :: rest) =
      substituteSymbol table symbol ++ substitute table rest := rfl

@[simp] theorem substitute_append (first second : List α) :
    substitute table (first ++ second) =
      substitute table first ++ substitute table second := by
  simp [substitute]

theorem word_mem {symbol : α} {text : List α}
    (hword : word table symbol = some text) : (symbol, text) ∈ table := by
  obtain ⟨⟨other, _⟩, hfind, rfl⟩ := Option.map_eq_some_iff.mp hword
  have hsymbol : other = symbol := by simpa using List.find?_some hfind
  rw [← hsymbol]
  exact List.mem_of_find?_eq_some hfind

theorem word_eq_none_iff (symbol : α) :
    word table symbol = none ↔ symbol ∉ table.map Prod.fst := by
  rw [word, Option.map_eq_none_iff, List.find?_eq_none, List.mem_map]
  simp only [decide_eq_true_eq, not_exists, not_and]

/-- Symbols without a word stand for themselves. -/
theorem substitute_of_no_word {text : List α}
    (htext : ∀ symbol ∈ text, word table symbol = none) :
    substitute table text = text := by
  induction text with
  | nil => rfl
  | cons symbol rest ih =>
      have hsymbol := htext symbol (by simp)
      rw [substitute_cons, ih fun other hother => htext other (by simp [hother]),
        substituteSymbol, hsymbol]
      rfl

theorem mem_substitute {symbol : α} (hword : word table symbol = none)
    {text : List α} (hmem : symbol ∈ text) :
    symbol ∈ substitute table text := by
  apply List.mem_flatMap.mpr
  use symbol, hmem
  rw [substituteSymbol, hword]
  exact List.mem_singleton_self symbol

/-- A symbol with a word is gone, unless words contain it. -/
theorem not_mem_substitute {symbol : α}
    (hsymbol : symbol ∈ table.map Prod.fst)
    (hwords : ∀ entry ∈ table, symbol ∉ entry.2) (text : List α) :
    symbol ∉ substitute table text := by
  intro hmem
  obtain ⟨other, _, hother⟩ := List.mem_flatMap.mp hmem
  unfold substituteSymbol at hother
  cases hword : word table other with
  | none =>
      rw [hword] at hother
      obtain rfl : symbol = other := by simpa using hother
      exact (word_eq_none_iff symbol).mp hword hsymbol
  | some text' =>
      rw [hword] at hother
      exact hwords _ (word_mem hword) (by simpa using hother)

/-- Nothing is added which occurs neither in the text nor in a word. -/
theorem mem_of_mem_substitute {symbol : α}
    (hwords : ∀ entry ∈ table, symbol ∉ entry.2) {text : List α}
    (hmem : symbol ∈ substitute table text) : symbol ∈ text := by
  obtain ⟨other, htext, hother⟩ := List.mem_flatMap.mp hmem
  unfold substituteSymbol at hother
  cases hword : word table other with
  | none =>
      rw [hword] at hother
      obtain rfl : symbol = other := by simpa using hother
      exact htext
  | some text' =>
      rw [hword] at hother
      exact absurd (by simpa using hother) (hwords _ (word_mem hword))

/-- Two substitutions in turn are one, when the second leaves the words of the
first alone. -/
theorem substitute_substitute {second : Table α}
    (hwords : ∀ entry ∈ table, ∀ symbol ∈ entry.2,
      word second symbol = none) (text : List α) :
    substitute second (substitute table text) =
      substitute (table ++ second) text := by
  induction text with
  | nil => rfl
  | cons symbol rest ih =>
      rw [substitute_cons, substitute_append, ih, substitute_cons]
      congr 1
      have happend : word (table ++ second) symbol =
          (word table symbol).or (word second symbol) := by
        simp [word, List.find?_append, Option.map_or]
      unfold substituteSymbol
      rw [happend]
      cases hword : word table symbol with
      | none =>
          simp [substituteSymbol]
      | some text' =>
          exact substitute_of_no_word (hwords _ (word_mem hword))

/-! ## Reading back -/

theorem Readable.find_word {marker : α} (hreadable : Readable table marker)
    {symbol : α} {text : List α} (hword : word table symbol = some text)
    (rest : List α) :
    table.find? (fun entry => entry.2.isPrefixOf (text ++ rest)) =
      some (symbol, text) := by
  have hmem := word_mem hword
  have hself : (text.isPrefixOf (text ++ rest)) = true := by simp
  cases hfind : table.find? fun entry =>
      entry.2.isPrefixOf (text ++ rest) with
  | none =>
      have hnone := List.find?_eq_none.mp hfind (symbol, text) hmem
      exact absurd hself hnone
  | some entry =>
      have hentry := List.mem_of_find?_eq_some hfind
      have hprefix : entry.2 <+: text ++ rest := by
        simpa using List.find?_some hfind
      have hcomparable := List.prefix_or_prefix_of_prefix hprefix
        (List.prefix_append text rest)
      rcases hcomparable with hle | hge
      · rw [hreadable.apart entry hentry (symbol, text) hmem hle]
      · rw [hreadable.apart (symbol, text) hmem entry hentry hge]

theorem Readable.find_symbol {marker : α} (hreadable : Readable table marker)
    {symbol : α} (hword : word table symbol = none) (rest : List α) :
    table.find? (fun entry => entry.2.isPrefixOf (symbol :: rest)) =
      none := by
  rw [List.find?_eq_none]
  intro entry hentry hprefix
  obtain ⟨first, tail, htext⟩ :=
    List.exists_cons_of_ne_nil (l := entry.2) (by
      intro hnil
      have hmarked := hreadable.marked entry hentry
      simp [hnil] at hmarked)
  have hmarked := hreadable.marked entry hentry
  rw [htext] at hprefix hmarked
  obtain rfl : first = marker := by simpa using hmarked
  obtain rfl : first = symbol := by
    have hhead : first :: tail <+: symbol :: rest := by simpa using hprefix
    exact (List.cons_prefix_cons.mp hhead).1
  have hcovered := hreadable.covered
  simp [hword] at hcovered

theorem Readable.readFrom_substitute {marker : α}
    (hreadable : Readable table marker) (text : List α) {fuel : ℕ}
    (hfuel : text.length ≤ fuel) :
    readFrom table fuel (substitute table text) = text := by
  induction text generalizing fuel with
  | nil => cases fuel <;> rfl
  | cons symbol rest ih =>
      obtain ⟨fuel, rfl⟩ : ∃ less, fuel = less + 1 :=
        ⟨fuel - 1, by simp at hfuel; omega⟩
      have hlength : rest.length ≤ fuel := by simpa using hfuel
      have hrest := ih hlength
      rw [substitute_cons, substituteSymbol]
      cases hword : word table symbol with
      | none =>
          have hfind := hreadable.find_symbol hword (substitute table rest)
          rw [Option.getD_none, List.singleton_append, readFrom, hfind]
          exact congrArg _ hrest
      | some text' =>
          have hfind := hreadable.find_word hword (substitute table rest)
          have hne : text' ≠ [] := by
            rintro rfl
            have hmarked := hreadable.marked _ (word_mem hword)
            simp at hmarked
          obtain ⟨first, tail, rfl⟩ := List.exists_cons_of_ne_nil hne
          rw [Option.getD_some, List.cons_append, readFrom,
            ← List.cons_append, hfind]
          simp only [List.drop_left, hrest]

theorem length_le_substitute
    (hwords : ∀ entry ∈ table, entry.2 ≠ []) (text : List α) :
    text.length ≤ (substitute table text).length := by
  induction text with
  | nil => simp
  | cons symbol rest ih =>
      have hsymbol : 1 ≤ (substituteSymbol table symbol).length := by
        unfold substituteSymbol
        cases hword : word table symbol with
        | none => simp
        | some text' =>
            have hne := hwords _ (word_mem hword)
            exact List.length_pos_of_ne_nil hne
      rw [substitute_cons, List.length_append, List.length_cons]
      omega

/-- A readable table loses nothing. -/
theorem Readable.readBack_substitute {marker : α}
    (hreadable : Readable table marker) (text : List α) :
    readBack table (substitute table text) = text := by
  apply hreadable.readFrom_substitute
  apply length_le_substitute
  intro entry hentry hnil
  have hmarked := hreadable.marked entry hentry
  simp [hnil] at hmarked

end SymbolCode
