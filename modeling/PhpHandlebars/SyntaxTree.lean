import PhpHandlebars.ParserAst
import PhpHandlebars.TypedArrays
import Mathlib.Data.List.ReduceOption
import Mathlib.Tactic

/-!
# What is kept of a syntax tree

The nodes of a syntax tree against the arrays with a type in the array which
`Parser::parse` returns.  They span the same tree unless the conversion meets
a node whose kind it skips, with something below it.
-/

namespace PhpHandlebars

/-! ## Children -/

def listNodes (list : Option (List (Option AstNode))) : List AstNode :=
  (list.getD []).reduceOption

def callNodes (path : Option AstNode)
    (params : Option (List (Option AstNode))) (hash : Option AstNode) :
    List AstNode :=
  path.toList ++ listNodes params ++ hash.toList

/-- The nodes a node points to, in the order of its fields. -/
def astChildren : AstNode → List AstNode
  | .program _ statements _ _ _ => listNodes statements
  | .call _ _ path params hash => callNodes path params hash
  | .block _ _ path params hash program inverse _ _ _ =>
      callNodes path params hash ++ (program.toList ++ inverse.toList)
  | .literal _ _ _ _ => []
  | .hash _ pairs => listNodes pairs
  | .hashPair _ _ value => value.toList
  | .path _ parts _ _ _ _ => listNodes parts
  | .comment _ _ => []
  | .pathSegment _ _ _ _ => []
  | .skipped _ _ path params hash program inverse =>
      callNodes path params hash ++ (program.toList ++ inverse.toList)

theorem sizeOf_lt_of_mem_toList {node : AstNode} {slot : Option AstNode}
    (hnode : node ∈ slot.toList) : sizeOf node < sizeOf slot := by
  rw [Option.mem_toList] at hnode
  obtain rfl := hnode
  simp

theorem sizeOf_lt_of_mem_listNodes {node : AstNode}
    {list : Option (List (Option AstNode))} (hnode : node ∈ listNodes list) :
    sizeOf node < sizeOf list := by
  cases list with
  | none => simp [listNodes] at hnode
  | some items =>
      have hitem : some node ∈ items := by
        simpa [listNodes, List.reduceOption_mem_iff] using hnode
      have hlt := List.sizeOf_lt_of_mem hitem
      have hsome : sizeOf node < sizeOf (some node) := by simp
      have hitems : sizeOf items < sizeOf (some items) := by simp
      omega

theorem sizeOf_lt_of_mem_callNodes {node : AstNode} {path : Option AstNode}
    {params : Option (List (Option AstNode))} {hash : Option AstNode}
    (hnode : node ∈ callNodes path params hash) :
    sizeOf node < sizeOf path + sizeOf params + sizeOf hash := by
  simp only [callNodes, List.mem_append] at hnode
  rcases hnode with (hpath | hparams) | hhash
  · have hlt := sizeOf_lt_of_mem_toList hpath
    omega
  · have hlt := sizeOf_lt_of_mem_listNodes hparams
    omega
  · have hlt := sizeOf_lt_of_mem_toList hhash
    omega

theorem sizeOf_lt_of_mem_blockNodes {node : AstNode} {path : Option AstNode}
    {params : Option (List (Option AstNode))}
    {hash program inverse : Option AstNode}
    (hnode : node ∈ callNodes path params hash ++
      (program.toList ++ inverse.toList)) :
    sizeOf node < sizeOf path + sizeOf params + sizeOf hash +
      sizeOf program + sizeOf inverse := by
  simp only [List.mem_append] at hnode
  rcases hnode with hcall | hprogram | hinverse
  · have hlt := sizeOf_lt_of_mem_callNodes hcall
    omega
  · have hlt := sizeOf_lt_of_mem_toList hprogram
    omega
  · have hlt := sizeOf_lt_of_mem_toList hinverse
    omega

theorem sizeOf_lt_of_mem_astChildren {node child : AstNode}
    (hchild : child ∈ astChildren node) : sizeOf child < sizeOf node := by
  cases node with
  | program base statements chained blockParam1 blockParam2 =>
      have hlt := sizeOf_lt_of_mem_listNodes hchild
      simp only [AstNode.program.sizeOf_spec]
      omega
  | call kind base path params hash =>
      have hlt := sizeOf_lt_of_mem_callNodes hchild
      simp only [AstNode.call.sizeOf_spec]
      omega
  | block raw base path params hash program inverse openStrip inverseStrip
      closeStrip =>
      have hlt := sizeOf_lt_of_mem_blockNodes hchild
      simp only [AstNode.block.sizeOf_spec]
      omega
  | hash base pairs =>
      have hlt := sizeOf_lt_of_mem_listNodes hchild
      simp only [AstNode.hash.sizeOf_spec]
      omega
  | hashPair base key value =>
      have hlt := sizeOf_lt_of_mem_toList hchild
      simp only [AstNode.hashPair.sizeOf_spec]
      omega
  | path base parts original depth data falsy =>
      have hlt := sizeOf_lt_of_mem_listNodes hchild
      simp only [AstNode.path.sizeOf_spec]
      omega
  | skipped kind base path params hash program inverse =>
      have hlt := sizeOf_lt_of_mem_blockNodes hchild
      simp only [AstNode.skipped.sizeOf_spec]
      omega
  | literal kind base value original => exact absurd hchild List.not_mem_nil
  | comment base value => exact absurd hchild List.not_mem_nil
  | pathSegment base separator part original =>
      exact absurd hchild List.not_mem_nil

noncomputable def astBranching : Branching AstNode where
  children := astChildren
  size := sizeOf
  size_lt := fun _ _ hchild => sizeOf_lt_of_mem_astChildren hchild

/-! ## The fields of the arrays -/

section

variable (readableType : AstNodeType → Bytes)

def nodeField (key : String) (slot : Option AstNode) : Bytes × Option Zval :=
  (ascii key, slot.map fun node => .array (astNodeTable readableType node))

def listField (key : String) (slot : Option (List (Option AstNode))) :
    Bytes × Option Zval :=
  (ascii key, slot.map fun list => .array (astListTable readableType [] list))

def longField (key : String) (number : ℤ) : Bytes × Option Zval :=
  (ascii key, some (.long number))

def stringField (key : String) (value : Option Bytes) : Bytes × Option Zval :=
  (ascii key, value.map .string)

def headFields (type : AstNodeType) (base : AstBase) :
    List (Bytes × Option Zval) :=
  [(ascii "type", some (.string (readableType type))),
    (ascii "strip", if base.strip ≠ ∅ then
      some (phpHandlebarsStripToZval base.strip) else none),
    (ascii "loc", some (phpHandlebarsLocToZval base.loc))]

def callFields (pathKey : String) (path : Option AstNode)
    (params : Option (List (Option AstNode))) (hash : Option AstNode) :
    List (Bytes × Option Zval) :=
  [nodeField readableType pathKey path, listField readableType "params" params,
    nodeField readableType "hash" hash]

def astFields : AstNode → List (Bytes × Option Zval)
  | .program base statements chained blockParam1 blockParam2 =>
      headFields readableType .program base ++
        [listField readableType "statements" statements,
          longField "chained" chained, stringField "block_param1" blockParam1,
          stringField "block_param2" blockParam2]
  | .call (.mustache unescaped) base path params hash =>
      headFields readableType .mustache base ++
        (callFields readableType "path" path params hash ++
          [longField "unescaped" unescaped])
  | .call .sexpr base path params hash =>
      headFields readableType .sexpr base ++
        callFields readableType "path" path params hash
  | .call .partialNode base path params hash =>
      headFields readableType .partialNode base ++
        callFields readableType "name" path params hash
  | .block raw base path params hash program inverse openStrip inverseStrip
      closeStrip =>
      headFields readableType (if raw then .rawBlock else .block) base ++
        (callFields readableType "path" path params hash ++
          [nodeField readableType "program" program,
            nodeField readableType "inverse" inverse,
            longField "open_strip" openStrip,
            longField "inverse_strip" inverseStrip,
            longField "close_strip" closeStrip])
  | .literal kind base value original =>
      headFields readableType kind.type base ++
        [stringField "value" value, stringField "original" original]
  | .hash base pairs =>
      headFields readableType .hash base ++
        [listField readableType "pairs" pairs]
  | .hashPair base key value =>
      headFields readableType .hashPair base ++
        [stringField "key" key, nodeField readableType "value" value]
  | .path base parts original depth data falsy =>
      headFields readableType .path base ++
        [listField readableType "parts" parts,
          stringField "original" original, longField "depth" depth,
          longField "data" data, longField "falsy" falsy]
  | .comment base value =>
      headFields readableType .comment base ++ [stringField "value" value]
  | .pathSegment base separator part original =>
      headFields readableType .pathSegment base ++
        [stringField "separator" separator, stringField "part" part,
          stringField "original" original]
  | .skipped kind base _ _ _ _ _ => headFields readableType kind.type base

variable {readableType}

theorem addAssocAstNode_eq (current : HashTable) (key : String)
    (slot : Option AstNode) :
    addAssocAstNode readableType current key slot =
      addField current (nodeField readableType key slot) := by
  cases slot <;> rfl

theorem addAssocAstList_eq (current : HashTable) (key : String)
    (slot : Option (List (Option AstNode))) :
    addAssocAstList readableType current key slot =
      addField current (listField readableType key slot) := by
  cases slot <;> rfl

theorem addAssocStringIf_eq (current : HashTable) (key : String)
    (value : Option Bytes) :
    addAssocStringIf current key value =
      addField current (stringField key value) := by
  cases value <;> rfl

theorem addAssocLong_eq (current : HashTable) (key : String) (number : ℤ) :
    addAssocLong current key number =
      addField current (longField key number) := rfl

theorem astNodeHead_eq (type : AstNodeType) (base : AstBase) :
    astNodeHead readableType type base =
      addFields [] (headFields readableType type base) := by
  unfold astNodeHead headFields
  dsimp only
  by_cases hstrip : base.strip ≠ ∅
  · rw [if_pos hstrip, if_pos hstrip]
    rfl
  · rw [if_neg hstrip, if_neg hstrip]
    rfl

theorem addFields_append (current : HashTable)
    (fields rest : List (Bytes × Option Zval)) :
    addFields current (fields ++ rest) =
      addFields (addFields current fields) rest :=
  List.foldl_append

/-- The array of a node, field by field. -/
theorem astNodeTable_eq (node : AstNode) :
    astNodeTable readableType node =
      addFields [] (astFields readableType node) := by
  cases node with
  | call kind base path params hash =>
      cases kind <;>
        simp only [astNodeTable, astFields, addFields_append, astNodeHead_eq,
          addAssocAstNode_eq, addAssocAstList_eq, addAssocLong_eq,
          CallKind.type, callFields] <;>
        rfl
  | _ =>
      simp only [astNodeTable, astFields, addFields_append, astNodeHead_eq,
        addAssocAstNode_eq, addAssocAstList_eq, addAssocStringIf_eq,
        addAssocLong_eq, addLiteral, callFields] <;>
      rfl

/-! ## The arrays inside the fields -/

theorem astFields_names_nodup (node : AstNode) :
    ((astFields readableType node).map Prod.fst).Nodup := by
  cases node with
  | call kind base path params hash =>
      cases kind <;>
        simp [astFields, headFields, callFields, nodeField, listField,
          longField, ascii]
  | _ =>
      simp [astFields, headFields, callFields, nodeField, listField,
        longField, stringField, ascii]

theorem astNodeTable_hasType (node : AstNode) :
    HasType (astNodeTable readableType node) := by
  rw [astNodeTable_eq, hasType_addFields_iff (astFields_names_nodup node)]
  have hhead : ∀ type base, (ascii "type", some (.string (readableType type))) ∈
      headFields readableType type base := by
    intro type base
    exact List.mem_cons_self
  cases node with
  | call kind base path params hash =>
      cases kind <;> exact ⟨_, List.mem_append_left _ (hhead _ _)⟩
  | skipped kind base path params hash program inverse =>
      exact ⟨_, hhead _ _⟩
  | _ => exact ⟨_, List.mem_append_left _ (hhead _ _)⟩

theorem nearestTyped_node (node : AstNode) :
    nearestTyped (.array (astNodeTable readableType node)) =
      [astNodeTable readableType node] := by
  rw [nearestTyped, if_pos (astNodeTable_hasType node)]

theorem addNextIndexAstNode_indexed (values : List Zval)
    (item : Option AstNode) :
    addNextIndexAstNode readableType (indexed values) item =
      indexed (values ++ item.toList.map fun node =>
        .array (astNodeTable readableType node)) := by
  cases item with
  | none => simp [addNextIndexAstNode]
  | some node =>
      rw [addNextIndexAstNode, addNextIndexZval, nextFreeElement_indexed]
      simp [indexed_append_singleton]

theorem astListTable_indexed (values : List Zval)
    (list : List (Option AstNode)) :
    astListTable readableType (indexed values) list =
      indexed (values ++ list.reduceOption.map fun node =>
        .array (astNodeTable readableType node)) := by
  induction list generalizing values with
  | nil => simp [astListTable]
  | cons item rest ih =>
      rw [astListTable, addNextIndexAstNode_indexed, ih, List.append_assoc]
      cases item <;> simp [List.reduceOption_cons_of_none,
        List.reduceOption_cons_of_some]

theorem fieldTyped_node (key : String) (slot : Option AstNode) :
    fieldTyped (nodeField readableType key slot) =
      slot.toList.map (astNodeTable readableType) := by
  cases slot with
  | none => rfl
  | some node => exact nearestTyped_node node

theorem fieldTyped_list (key : String)
    (slot : Option (List (Option AstNode))) :
    fieldTyped (listField readableType key slot) =
      (listNodes slot).map (astNodeTable readableType) := by
  cases slot with
  | none => rfl
  | some list =>
      have htable : astListTable readableType (indexed []) list =
          indexed ([] ++ list.reduceOption.map fun node =>
            .array (astNodeTable readableType node)) :=
        astListTable_indexed [] list
      rw [indexed_nil, List.nil_append] at htable
      change nearestTyped (.array (astListTable readableType [] list)) = _
      rw [htable, nearestTyped_indexed, List.flatMap_map]
      simp only [nearestTyped_node]
      exact List.map_eq_flatMap.symm

theorem Untyped.addBool {table : HashTable} (huntyped : Untyped table)
    (key : String) (hkey : ascii key ≠ ascii "type") (value : Bool) :
    Untyped (addAssocBool table key value) := by
  apply huntyped.addAssoc hkey
  cases value <;> rfl

theorem Untyped.addLong {table : HashTable} (huntyped : Untyped table)
    (key : String) (hkey : ascii key ≠ ascii "type") (number : ℤ) :
    Untyped (addAssocLong table key number) :=
  huntyped.addAssoc hkey rfl

theorem nearestTyped_strip (strip : Finset StripFlag) :
    nearestTyped (phpHandlebarsStripToZval strip) = [] := by
  have hleft := untyped_nil.addBool "left" (by decide) (.left ∈ strip)
  have hright := hleft.addBool "right" (by decide) (.right ∈ strip)
  have hopen := hright.addBool "openStandalone" (by decide)
    (.openStandalone ∈ strip)
  have hclose := hopen.addBool "closeStandalone" (by decide)
    (.closeStandalone ∈ strip)
  have hinline := hclose.addBool "inlineStandalone" (by decide)
    (.inlineStandalone ∈ strip)
  have hlefts := hinline.addBool "leftStripped" (by decide)
    (.leftStripped ∈ strip)
  exact (hlefts.addBool "rightStriped" (by decide)
    (.rightStripped ∈ strip)).nearestTyped

theorem nearestTyped_loc (loc : LocInfo) :
    nearestTyped (phpHandlebarsLocToZval loc) = [] := by
  have hpoint : ∀ line column,
      Untyped (addAssocLong (addAssocLong [] "line" line) "column" column) := by
    intro line column
    have hline := untyped_nil.addLong "line" (by decide) line
    exact hline.addLong "column" (by decide) column
  have hstart : Untyped (addAssocZvalEx [] (ascii "start") (.array
      (addAssocLong (addAssocLong [] "line" loc.firstLine) "column"
        loc.firstColumn))) :=
    untyped_nil.addAssoc (by decide) (hpoint _ _).nearestTyped
  have hname : ascii "end" ≠ ascii "type" := by decide
  have hend := hstart.addAssoc hname
    (hpoint loc.lastLine loc.lastColumn).nearestTyped
  exact hend.nearestTyped

theorem fieldTyped_some (name : Bytes) (value : Zval) :
    fieldTyped (name, some value) = nearestTyped value := rfl

theorem headFields_typed (type : AstNodeType) (base : AstBase) :
    (headFields readableType type base).flatMap fieldTyped = [] := by
  have hstrip : fieldTyped (ascii "strip", if base.strip ≠ ∅ then
      some (phpHandlebarsStripToZval base.strip) else none) = [] := by
    by_cases hset : base.strip ≠ ∅
    · rw [if_pos hset, fieldTyped_some, nearestTyped_strip]
    · rw [if_neg hset]
      rfl
  have htype : nearestTyped (.string (readableType type)) = [] := by
    rw [nearestTyped]
    simp
  simp only [headFields, List.flatMap_cons, hstrip, fieldTyped_some, htype,
    nearestTyped_loc]
  rfl

theorem fieldTyped_long (key : String) (number : ℤ) :
    fieldTyped (longField key number) = [] := rfl

theorem fieldTyped_string (key : String) (value : Option Bytes) :
    fieldTyped (stringField key value) = [] := by
  cases value <;> rfl

theorem callFields_typed (pathKey : String) (path : Option AstNode)
    (params : Option (List (Option AstNode))) (hash : Option AstNode) :
    (callFields readableType pathKey path params hash).flatMap fieldTyped =
      (callNodes path params hash).map (astNodeTable readableType) := by
  simp only [callFields, callNodes, List.flatMap_cons, List.flatMap_nil,
    fieldTyped_node, fieldTyped_list, List.map_append, List.append_nil,
    List.append_assoc]

/-! ## What is kept -/

/-- The kinds which `php_handlebars_ast_node_to_zval` has no fields for. -/
def IsSkipped : AstNode → Prop
  | .skipped _ _ _ _ _ _ _ => True
  | _ => False

/-- The children of a node are in its array, one after another, unless the
kind of the node is skipped. -/
theorem nearestTypedIn_astNodeTable {node : AstNode} (hkept : ¬IsSkipped node) :
    nearestTypedIn (astNodeTable readableType node) =
      (astChildren node).map (astNodeTable readableType) := by
  rw [astNodeTable_eq, nearestTypedIn_addFields (astFields_names_nodup node)]
  cases node with
  | call kind base path params hash =>
      cases kind <;>
        simp [astFields, astChildren, headFields_typed, callFields_typed,
          fieldTyped_long]
  | skipped kind base path params hash program inverse =>
      exact absurd trivial hkept
  | _ =>
      simp [astFields, astChildren, headFields_typed, callFields_typed,
        fieldTyped_node, fieldTyped_list, fieldTyped_long, fieldTyped_string]

theorem nearestTypedIn_skipped {node : AstNode} (hskipped : IsSkipped node) :
    nearestTypedIn (astNodeTable readableType node) = [] := by
  rw [astNodeTable_eq, nearestTypedIn_addFields (astFields_names_nodup node)]
  cases node with
  | skipped kind base path params hash program inverse =>
      exact headFields_typed kind.type base
  | _ => exact absurd hskipped id

theorem keepsChildren_iff (node : AstNode) :
    nearestTypedIn (astNodeTable readableType node) =
        (astChildren node).map (astNodeTable readableType) ↔
      (IsSkipped node → astChildren node = []) := by
  by_cases hskipped : IsSkipped node
  · rw [nearestTypedIn_skipped hskipped]
    constructor
    · intro heq _
      exact List.map_eq_nil_iff.mp heq.symm
    · intro hnone
      rw [hnone hskipped]
      rfl
  · apply iff_of_true
    · exact nearestTypedIn_astNodeTable hskipped
    · intro h
      exact absurd h hskipped

variable (readableType)

/-- The arrays with a type are those of the nodes, each once, inside the array
of its parent and in the order of its siblings. -/
structure KeepsTree (node : AstNode) : Prop where
  nested : typedBranching.tree (astNodeTable readableType node) =
    (astBranching.tree node).map (astNodeTable readableType)
  counted :
    (typedArrays (phpHandlebarsAstNodeToZval readableType (some node))).length =
      (astBranching.tree node).labels.length

/-- The whole tree is kept exactly when nothing is below a node whose kind is
skipped. -/
theorem keepsTree_iff (node : AstNode) :
    KeepsTree readableType node ↔
      ∀ inner ∈ (astBranching.tree node).labels,
        IsSkipped inner → astChildren inner = [] := by
  have hnested : typedBranching.tree (astNodeTable readableType node) =
        (astBranching.tree node).map (astNodeTable readableType) ↔
      ∀ inner ∈ (astBranching.tree node).labels,
        IsSkipped inner → astChildren inner = [] := by
    rw [Branching.tree_map_iff]
    constructor
    · intro hall inner hinner
      exact (keepsChildren_iff inner).mp (hall inner hinner)
    · intro hall inner hinner
      exact (keepsChildren_iff inner).mpr (hall inner hinner)
  rw [← hnested]
  constructor
  · intro hkeeps
    exact hkeeps.nested
  · intro htree
    constructor
    · exact htree
    · have hlabels := congrArg LabelledTree.labels htree
      rw [labels_typedTree, LabelledTree.labels_map] at hlabels
      rw [phpHandlebarsAstNodeToZval, typedArrays,
        if_pos (astNodeTable_hasType node), hlabels, List.length_map]

end

def noStrip : AstBase := ⟨∅, ⟨1, 0, 1, 0⟩⟩

def fooSegment : AstNode :=
  .pathSegment noStrip none (some (ascii "foo")) (some (ascii "foo"))

def fooPath : AstNode :=
  .path noStrip (some [some fooSegment]) (some (ascii "foo")) 0 0 0

def barContent : AstNode :=
  .literal .content noStrip (some (ascii "bar")) (some (ascii "bar"))

def barProgram : AstNode :=
  .program noStrip (some [some barContent]) 0 none none

def fooBlock : AstNode :=
  .skipped .partialBlock noStrip (some fooPath) none none (some barProgram)
    none

/-- The tree of `{{#> foo}}bar{{/foo}}`. -/
def partialBlockAst : AstNode :=
  .program noStrip (some [some fooBlock]) 0 none none

def unnamedType : AstNodeType → Bytes :=
  fun _ => []

/-- Two arrays are left of the six nodes. -/
theorem partialBlock_not_kept :
    (typedArrays (phpHandlebarsAstNodeToZval unnamedType
        (some partialBlockAst))).length = 2 ∧
      (astBranching.tree partialBlockAst).labels.length = 6 ∧
      ¬KeepsTree unnamedType partialBlockAst := by
  have harrays : (typedArrays (phpHandlebarsAstNodeToZval unnamedType
      (some partialBlockAst))).length = 2 := by
    rfl
  have hlabels : ∀ node children, astChildren node = children →
      (astBranching.tree node).labels =
        node :: children.flatMap fun child =>
          (astBranching.tree child).labels := by
    rintro node _ rfl
    exact astBranching.labels_tree node
  have hnodes : (astBranching.tree partialBlockAst).labels =
      [partialBlockAst, fooBlock, fooPath, fooSegment, barProgram,
        barContent] := by
    rw [hlabels partialBlockAst [fooBlock] rfl, List.flatMap_singleton,
      hlabels fooBlock [fooPath, barProgram] rfl, List.flatMap_cons,
      List.flatMap_singleton, hlabels fooPath [fooSegment] rfl,
      List.flatMap_singleton, hlabels fooSegment [] rfl,
      hlabels barProgram [barContent] rfl, List.flatMap_singleton,
      hlabels barContent [] rfl]
    rfl
  constructor
  · exact harrays
  constructor
  · rw [hnodes]
    rfl
  · intro hkeeps
    have hcounted := hkeeps.counted
    rw [harrays, hnodes] at hcounted
    simp at hcounted

end PhpHandlebars
