import PhpHandlebars.Branching
import PhpHandlebars.PhpArray
import Mathlib.Tactic

/-!
# Syntax trees as PHP arrays

`Parser::parse` turns the nodes of the library's syntax tree into arrays, each
with a `type` entry, the array of a child inside that of its parent.
-/

namespace PhpHandlebars

/-- `enum handlebars_ast_node_type`. -/
inductive AstNodeType where
  | nil
  | program
  | mustache
  | sexpr
  | partialNode
  | intermediate
  | block
  | rawBlock
  | inverse
  | content
  | hash
  | hashPair
  | path
  | string
  | number
  | boolean
  | nul
  | undefined
  | comment
  | pathSegment
  | partialBlock
  deriving DecidableEq

/-- The bits of `strip`. -/
inductive StripFlag where
  | left
  | right
  | openStandalone
  | closeStandalone
  | inlineStandalone
  | leftStripped
  | rightStripped
  | other (bit : ℕ)
  deriving DecidableEq

structure LocInfo where
  firstLine : ℤ
  firstColumn : ℤ
  lastLine : ℤ
  lastColumn : ℤ

/-- What every node has. -/
structure AstBase where
  strip : Finset StripFlag
  loc : LocInfo

/-- The nodes with a path, parameters and a hash alone. -/
inductive CallKind where
  | mustache (unescaped : ℤ)
  | sexpr
  | partialNode

def CallKind.type : CallKind → AstNodeType
  | .mustache _ => .mustache
  | .sexpr => .sexpr
  | .partialNode => .partialNode

/-- The nodes which hold a `struct handlebars_ast_node_literal`. -/
inductive LiteralKind where
  | content
  | string
  | number
  | boolean
  | nul
  | undefined

def LiteralKind.type : LiteralKind → AstNodeType
  | .content => .content
  | .string => .string
  | .number => .number
  | .boolean => .boolean
  | .nul => .nul
  | .undefined => .undefined

/-- The nodes at which the conversion breaks off. -/
inductive SkippedKind where
  | intermediate
  | inverse
  | nil
  | partialBlock

def SkippedKind.type : SkippedKind → AstNodeType
  | .intermediate => .intermediate
  | .inverse => .inverse
  | .nil => .nil
  | .partialBlock => .partialBlock

/-- `struct handlebars_ast_node`.  Nodes, lists and the nodes in lists may be
NULL. -/
inductive AstNode where
  | program (base : AstBase) (statements : Option (List (Option AstNode)))
      (chained : ℤ) (blockParam1 blockParam2 : Option Bytes)
  | call (kind : CallKind) (base : AstBase) (path : Option AstNode)
      (params : Option (List (Option AstNode))) (hash : Option AstNode)
  | block (raw : Bool) (base : AstBase) (path : Option AstNode)
      (params : Option (List (Option AstNode))) (hash : Option AstNode)
      (program inverse : Option AstNode)
      (openStrip inverseStrip closeStrip : ℤ)
  | literal (kind : LiteralKind) (base : AstBase)
      (value original : Option Bytes)
  | hash (base : AstBase) (pairs : Option (List (Option AstNode)))
  | hashPair (base : AstBase) (key : Option Bytes) (value : Option AstNode)
  | path (base : AstBase) (parts : Option (List (Option AstNode)))
      (original : Option Bytes) (depth data falsy : ℤ)
  | comment (base : AstBase) (value : Option Bytes)
  | pathSegment (base : AstBase) (separator part original : Option Bytes)
  | skipped (kind : SkippedKind) (base : AstBase) (path : Option AstNode)
      (params : Option (List (Option AstNode))) (hash : Option AstNode)
      (program inverse : Option AstNode)

/-! ## The conversion -/

def addAssocLong (current : HashTable) (key : String) (number : ℤ) :
    HashTable :=
  addAssocZvalEx current (ascii key) (.long number)

def addAssocBool (current : HashTable) (key : String) (value : Bool) :
    HashTable :=
  addAssocZvalEx current (ascii key) (if value then .true else .false)

/-- `add_assoc_stringl_ex` for a string which is not NULL. -/
def addAssocStringIf (current : HashTable) (key : String)
    (value : Option Bytes) : HashTable :=
  match value with
  | some value => addAssocZvalEx current (ascii key) (.string value)
  | none => current

def phpHandlebarsStripToZval (strip : Finset StripFlag) : Zval :=
  let current := addAssocBool [] "left" (.left ∈ strip)
  let current := addAssocBool current "right" (.right ∈ strip)
  let current :=
    addAssocBool current "openStandalone" (.openStandalone ∈ strip)
  let current :=
    addAssocBool current "closeStandalone" (.closeStandalone ∈ strip)
  let current :=
    addAssocBool current "inlineStandalone" (.inlineStandalone ∈ strip)
  let current := addAssocBool current "leftStripped" (.leftStripped ∈ strip)
  .array (addAssocBool current "rightStriped" (.rightStripped ∈ strip))

def phpHandlebarsLocToZval (loc : LocInfo) : Zval :=
  let start := addAssocLong [] "line" loc.firstLine
  let start := addAssocLong start "column" loc.firstColumn
  let ending := addAssocLong [] "line" loc.lastLine
  let ending := addAssocLong ending "column" loc.lastColumn
  let current := addAssocZvalEx [] (ascii "start") (.array start)
  .array (addAssocZvalEx current (ascii "end") (.array ending))

section

variable (readableType : AstNodeType → Bytes)

/-- The entries before the switch. -/
def astNodeHead (type : AstNodeType) (base : AstBase) : HashTable :=
  let current := addAssocZvalEx [] (ascii "type") (.string (readableType type))
  let current := if base.strip ≠ ∅ then
      addAssocZvalEx current (ascii "strip")
        (phpHandlebarsStripToZval base.strip)
    else current
  addAssocZvalEx current (ascii "loc") (phpHandlebarsLocToZval base.loc)

/-- `php_handlebars_ast_node_add_literal`. -/
def addLiteral (current : HashTable) (value original : Option Bytes) :
    HashTable :=
  addAssocStringIf (addAssocStringIf current "value" value) "original" original

mutual

/-- The array of a node which is not NULL. -/
def astNodeTable : AstNode → HashTable
  | .program base statements chained blockParam1 blockParam2 =>
      let current := astNodeHead readableType .program base
      let current := addAssocAstList current "statements" statements
      let current := addAssocLong current "chained" chained
      let current := addAssocStringIf current "block_param1" blockParam1
      addAssocStringIf current "block_param2" blockParam2
  | .call kind base path params hash =>
      let current := astNodeHead readableType kind.type base
      let current := addAssocAstNode current
        (if kind.type = .partialNode then "name" else "path") path
      let current := addAssocAstList current "params" params
      let current := addAssocAstNode current "hash" hash
      match kind with
      | .mustache unescaped => addAssocLong current "unescaped" unescaped
      | _ => current
  | .block raw base path params hash program inverse openStrip inverseStrip
      closeStrip =>
      let current := astNodeHead readableType
        (if raw then .rawBlock else .block) base
      let current := addAssocAstNode current "path" path
      let current := addAssocAstList current "params" params
      let current := addAssocAstNode current "hash" hash
      let current := addAssocAstNode current "program" program
      let current := addAssocAstNode current "inverse" inverse
      let current := addAssocLong current "open_strip" openStrip
      let current := addAssocLong current "inverse_strip" inverseStrip
      addAssocLong current "close_strip" closeStrip
  | .literal kind base value original =>
      addLiteral (astNodeHead readableType kind.type base) value original
  | .hash base pairs =>
      addAssocAstList (astNodeHead readableType .hash base) "pairs" pairs
  | .hashPair base key value =>
      let current := astNodeHead readableType .hashPair base
      let current := addAssocStringIf current "key" key
      addAssocAstNode current "value" value
  | .path base parts original depth data falsy =>
      let current := astNodeHead readableType .path base
      let current := addAssocAstList current "parts" parts
      let current := addAssocStringIf current "original" original
      let current := addAssocLong current "depth" depth
      let current := addAssocLong current "data" data
      addAssocLong current "falsy" falsy
  | .comment base value =>
      addAssocStringIf (astNodeHead readableType .comment base) "value" value
  | .pathSegment base separator part original =>
      let current := astNodeHead readableType .pathSegment base
      let current := addAssocStringIf current "separator" separator
      let current := addAssocStringIf current "part" part
      addAssocStringIf current "original" original
  | .skipped kind base _ _ _ _ _ => astNodeHead readableType kind.type base

def addAssocAstNode (current : HashTable) (key : String) :
    Option AstNode → HashTable
  | none => current
  | some node =>
      addAssocZvalEx current (ascii key) (.array (astNodeTable node))

def addAssocAstList (current : HashTable) (key : String) :
    Option (List (Option AstNode)) → HashTable
  | none => current
  | some list => addAssocZvalEx current (ascii key) (.array (astListTable [] list))

def astListTable (current : HashTable) : List (Option AstNode) → HashTable
  | [] => current
  | item :: rest => astListTable (addNextIndexAstNode current item) rest

def addNextIndexAstNode (current : HashTable) : Option AstNode → HashTable
  | none => current
  | some node => addNextIndexZval current (.array (astNodeTable node))

end

/-- `php_handlebars_ast_node_to_zval`. -/
def phpHandlebarsAstNodeToZval : Option AstNode → Zval
  | none => .array []
  | some node => .array (astNodeTable readableType node)

end

end PhpHandlebars
