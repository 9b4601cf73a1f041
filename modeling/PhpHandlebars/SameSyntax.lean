import PhpHandlebars.ProgramObject
import PhpHandlebars.SyntaxTree
import Mathlib.Tactic

/-!
# What the array of a syntax tree determines

Two syntax trees become the same array exactly when they differ in nothing but
NULL items of lists, bits of `strip` without a name, and what is below a node
whose kind is skipped.
-/

namespace PhpHandlebars

/-! ## What two nodes have to share -/

def namedFlags : List StripFlag :=
  [.left, .right, .openStandalone, .closeStandalone, .inlineStandalone,
    .leftStripped, .rightStripped]

structure SameBase (first second : AstBase) : Prop where
  stripped : first.strip = ∅ ↔ second.strip = ∅
  flags : ∀ flag ∈ namedFlags, flag ∈ first.strip ↔ flag ∈ second.strip
  loc : first.loc = second.loc

inductive SameNode : AstNode → AstNode → Prop where
  | program {base base' : AstBase}
      {statements statements' : Option (List (Option AstNode))} {chained : ℤ}
      {blockParam1 blockParam2 : Option Bytes} (hbase : SameBase base base')
      (hstatements : Option.Rel (List.Forall₂ SameNode)
        (statements.map List.reduceOption) (statements'.map List.reduceOption)) :
      SameNode (.program base statements chained blockParam1 blockParam2)
        (.program base' statements' chained blockParam1 blockParam2)
  | call {kind : CallKind} {base base' : AstBase} {path path' : Option AstNode}
      {params params' : Option (List (Option AstNode))}
      {hash hash' : Option AstNode} (hbase : SameBase base base')
      (hpath : Option.Rel SameNode path path')
      (hparams : Option.Rel (List.Forall₂ SameNode)
        (params.map List.reduceOption) (params'.map List.reduceOption))
      (hhash : Option.Rel SameNode hash hash') :
      SameNode (.call kind base path params hash)
        (.call kind base' path' params' hash')
  | block {raw : Bool} {base base' : AstBase} {path path' : Option AstNode}
      {params params' : Option (List (Option AstNode))}
      {hash hash' program program' inverse inverse' : Option AstNode}
      {openStrip inverseStrip closeStrip : ℤ} (hbase : SameBase base base')
      (hpath : Option.Rel SameNode path path')
      (hparams : Option.Rel (List.Forall₂ SameNode)
        (params.map List.reduceOption) (params'.map List.reduceOption))
      (hhash : Option.Rel SameNode hash hash')
      (hprogram : Option.Rel SameNode program program')
      (hinverse : Option.Rel SameNode inverse inverse') :
      SameNode
        (.block raw base path params hash program inverse openStrip
          inverseStrip closeStrip)
        (.block raw base' path' params' hash' program' inverse' openStrip
          inverseStrip closeStrip)
  | literal {kind : LiteralKind} {base base' : AstBase}
      {value original : Option Bytes} (hbase : SameBase base base') :
      SameNode (.literal kind base value original)
        (.literal kind base' value original)
  | hash {base base' : AstBase} {pairs pairs' : Option (List (Option AstNode))}
      (hbase : SameBase base base')
      (hpairs : Option.Rel (List.Forall₂ SameNode)
        (pairs.map List.reduceOption) (pairs'.map List.reduceOption)) :
      SameNode (.hash base pairs) (.hash base' pairs')
  | hashPair {base base' : AstBase} {key : Option Bytes}
      {value value' : Option AstNode} (hbase : SameBase base base')
      (hvalue : Option.Rel SameNode value value') :
      SameNode (.hashPair base key value) (.hashPair base' key value')
  | path {base base' : AstBase} {parts parts' : Option (List (Option AstNode))}
      {original : Option Bytes} {depth data falsy : ℤ}
      (hbase : SameBase base base')
      (hparts : Option.Rel (List.Forall₂ SameNode)
        (parts.map List.reduceOption) (parts'.map List.reduceOption)) :
      SameNode (.path base parts original depth data falsy)
        (.path base' parts' original depth data falsy)
  | comment {base base' : AstBase} {value : Option Bytes}
      (hbase : SameBase base base') :
      SameNode (.comment base value) (.comment base' value)
  | pathSegment {base base' : AstBase} {separator part original : Option Bytes}
      (hbase : SameBase base base') :
      SameNode (.pathSegment base separator part original)
        (.pathSegment base' separator part original)
  | skipped {kind : SkippedKind} {base base' : AstBase}
      {path path' : Option AstNode}
      {params params' : Option (List (Option AstNode))}
      {hash hash' program program' inverse inverse' : Option AstNode}
      (hbase : SameBase base base') :
      SameNode (.skipped kind base path params hash program inverse)
        (.skipped kind base' path' params' hash' program' inverse')

/-! ## The entries before the switch -/

def boolField (key : String) (value : Bool) : Bytes × Option Zval :=
  (ascii key, some (if value then .true else .false))

def stripFields (strip : Finset StripFlag) : List (Bytes × Option Zval) :=
  [boolField "left" (.left ∈ strip), boolField "right" (.right ∈ strip),
    boolField "openStandalone" (.openStandalone ∈ strip),
    boolField "closeStandalone" (.closeStandalone ∈ strip),
    boolField "inlineStandalone" (.inlineStandalone ∈ strip),
    boolField "leftStripped" (.leftStripped ∈ strip),
    boolField "rightStriped" (.rightStripped ∈ strip)]

def pointFields (line column : ℤ) : List (Bytes × Option Zval) :=
  [longField "line" line, longField "column" column]

def endFields (start ending : Zval) : List (Bytes × Option Zval) :=
  [(ascii "start", some start), (ascii "end", some ending)]

theorem boolField_eq_iff (key : String) (p q : Prop) [Decidable p]
    [Decidable q] : boolField key p = boolField key q ↔ (p ↔ q) := by
  by_cases hp : p <;> by_cases hq : q <;> simp [boolField, hp, hq]

theorem longField_eq_iff (key : String) (number number' : ℤ) :
    longField key number = longField key number' ↔ number = number' := by
  simp [longField]

theorem stringField_eq_iff (key : String) (value value' : Option Bytes) :
    stringField key value = stringField key value' ↔ value = value' := by
  have hinj : Function.Injective Zval.string := fun _ _ => Zval.string.inj
  simp [stringField, (Option.map_injective hinj).eq_iff]

theorem addAssocBool_eq (current : HashTable) (key : String) (value : Bool) :
    addAssocBool current key value =
      addField current (boolField key value) := rfl

theorem stripToZval_eq (strip : Finset StripFlag) :
    phpHandlebarsStripToZval strip =
      .array (addFields [] (stripFields strip)) := by
  simp only [phpHandlebarsStripToZval, addAssocBool_eq, stripFields, addFields,
    List.foldl_cons, List.foldl_nil]

theorem stripToZval_eq_iff (strip strip' : Finset StripFlag) :
    phpHandlebarsStripToZval strip = phpHandlebarsStripToZval strip' ↔
      ∀ flag ∈ namedFlags, flag ∈ strip ↔ flag ∈ strip' := by
  have hnodup : ((stripFields strip).map Prod.fst).Nodup := by
    simp [stripFields, boolField, ascii]
  have hnames : (stripFields strip).map Prod.fst =
      (stripFields strip').map Prod.fst := rfl
  rw [stripToZval_eq, stripToZval_eq, Zval.array.injEq,
    addFields_eq_iff hnames hnodup]
  simp [stripFields, namedFlags, boolField_eq_iff]

theorem point_eq_iff (line column line' column' : ℤ) :
    addFields [] (pointFields line column) =
        addFields [] (pointFields line' column') ↔
      line = line' ∧ column = column' := by
  have hnodup : ((pointFields line column).map Prod.fst).Nodup := by
    simp [pointFields, longField, ascii]
  have hnames : (pointFields line column).map Prod.fst =
      (pointFields line' column').map Prod.fst := rfl
  rw [addFields_eq_iff hnames hnodup]
  simp [pointFields, longField_eq_iff]

theorem ends_eq_iff (start ending start' ending' : Zval) :
    addFields [] (endFields start ending) =
        addFields [] (endFields start' ending') ↔
      start = start' ∧ ending = ending' := by
  have hnodup : ((endFields start ending).map Prod.fst).Nodup := by
    simp [endFields, ascii]
  have hnames : (endFields start ending).map Prod.fst =
      (endFields start' ending').map Prod.fst := rfl
  rw [addFields_eq_iff hnames hnodup]
  simp [endFields]

theorem locToZval_eq_iff (loc loc' : LocInfo) :
    phpHandlebarsLocToZval loc = phpHandlebarsLocToZval loc' ↔ loc = loc' := by
  have hloc : ∀ loc, phpHandlebarsLocToZval loc =
      .array (addFields [] (endFields
        (.array (addFields [] (pointFields loc.firstLine loc.firstColumn)))
        (.array (addFields [] (pointFields loc.lastLine loc.lastColumn))))) :=
    fun _ => rfl
  rw [hloc, hloc, Zval.array.injEq, ends_eq_iff, Zval.array.injEq,
    Zval.array.injEq, point_eq_iff, point_eq_iff]
  cases loc
  cases loc'
  simp [and_assoc]

section

variable {readableType : AstNodeType → Bytes}

/-- Two nodes of one type share the entries before the switch. -/
theorem headFields_append_eq_iff (type : AstNodeType) (base base' : AstBase)
    (fields fields' : List (Bytes × Option Zval)) :
    headFields readableType type base ++ fields =
        headFields readableType type base' ++ fields' ↔
      SameBase base base' ∧ fields = fields' := by
  have hstrip : (if base.strip ≠ ∅ then
        some (phpHandlebarsStripToZval base.strip) else none) =
      (if base'.strip ≠ ∅ then
        some (phpHandlebarsStripToZval base'.strip) else none) ↔
      (base.strip = ∅ ↔ base'.strip = ∅) ∧
        ∀ flag ∈ namedFlags, flag ∈ base.strip ↔ flag ∈ base'.strip := by
    by_cases hset : base.strip = ∅ <;> by_cases hset' : base'.strip = ∅ <;>
      simp [hset, hset', stripToZval_eq_iff]
  simp only [headFields, List.cons_append, List.nil_append, List.cons.injEq,
    Prod.mk.injEq, true_and, hstrip, Option.some.injEq, locToZval_eq_iff]
  constructor
  · rintro ⟨⟨hstripped, hflags⟩, hloc, hfields⟩
    exact ⟨⟨hstripped, hflags, hloc⟩, hfields⟩
  · rintro ⟨⟨hstripped, hflags, hloc⟩, hfields⟩
    exact ⟨⟨hstripped, hflags⟩, hloc, hfields⟩

/-! ## The fields of the nodes -/

def AstNode.type : AstNode → AstNodeType
  | .program _ _ _ _ _ => .program
  | .call kind _ _ _ _ => kind.type
  | .block raw _ _ _ _ _ _ _ _ _ => if raw then .rawBlock else .block
  | .literal kind _ _ _ => kind.type
  | .hash _ _ => .hash
  | .hashPair _ _ _ => .hashPair
  | .path _ _ _ _ _ _ => .path
  | .comment _ _ => .comment
  | .pathSegment _ _ _ _ => .pathSegment
  | .skipped kind _ _ _ _ _ _ => kind.type

/-- The member of the union which a node uses. -/
inductive AstMember where
  | program
  | call
  | block
  | literal
  | hash
  | hashPair
  | path
  | comment
  | pathSegment
  | skipped

def AstNodeType.member : AstNodeType → AstMember
  | .program => .program
  | .mustache | .sexpr | .partialNode => .call
  | .block | .rawBlock => .block
  | .content | .string | .number | .boolean | .nul | .undefined => .literal
  | .hash => .hash
  | .hashPair => .hashPair
  | .path => .path
  | .comment => .comment
  | .pathSegment => .pathSegment
  | .nil | .intermediate | .inverse | .partialBlock => .skipped

def AstNode.member : AstNode → AstMember
  | .program _ _ _ _ _ => .program
  | .call _ _ _ _ _ => .call
  | .block _ _ _ _ _ _ _ _ _ _ => .block
  | .literal _ _ _ _ => .literal
  | .hash _ _ => .hash
  | .hashPair _ _ _ => .hashPair
  | .path _ _ _ _ _ _ => .path
  | .comment _ _ => .comment
  | .pathSegment _ _ _ _ => .pathSegment
  | .skipped _ _ _ _ _ _ _ => .skipped

theorem AstNode.type_member (node : AstNode) :
    node.type.member = node.member := by
  cases node with
  | call kind base path params hash => cases kind <;> rfl
  | block raw base path params hash program inverse openStrip inverseStrip
      closeStrip => cases raw <;> rfl
  | literal kind base value original => cases kind <;> rfl
  | skipped kind base path params hash program inverse => cases kind <;> rfl
  | _ => rfl

theorem SameNode.type_eq {first second : AstNode}
    (hsame : SameNode first second) : first.type = second.type := by
  cases hsame <;> rfl

variable (readableType) in
/-- The node becomes the array of no other nodes than the same ones. -/
def ToldApart (node : AstNode) : Prop :=
  ∀ other, astNodeTable readableType node = astNodeTable readableType other ↔
    SameNode node other

theorem nodeField_eq_iff (key : String) {slot : Option AstNode}
    (htold : ∀ node ∈ slot.toList, ToldApart readableType node)
    (slot' : Option AstNode) :
    nodeField readableType key slot = nodeField readableType key slot' ↔
      Option.Rel SameNode slot slot' := by
  cases slot with
  | none => cases slot' <;> simp [nodeField]
  | some node =>
      cases slot' with
      | none => simp [nodeField]
      | some node' =>
          have hnode := htold node (by simp) node'
          simp [nodeField, hnode]

theorem indexed_injective : Function.Injective indexed := by
  have hvalues : ∀ values, (indexed values).map Prod.snd = values := by
    intro values
    simp [indexed, Function.comp_def]
  intro values values' heq
  rw [← hvalues values, heq, hvalues]

theorem listField_eq_iff (key : String)
    {list : Option (List (Option AstNode))}
    (htold : ∀ node ∈ listNodes list, ToldApart readableType node)
    (list' : Option (List (Option AstNode))) :
    listField readableType key list = listField readableType key list' ↔
      Option.Rel (List.Forall₂ SameNode) (list.map List.reduceOption)
        (list'.map List.reduceOption) := by
  cases list with
  | none => cases list' <;> simp [listField]
  | some items =>
      cases list' with
      | none => simp [listField]
      | some items' =>
          have htable : ∀ items, astListTable readableType [] items =
              indexed (items.reduceOption.map fun node =>
                .array (astNodeTable readableType node)) :=
            astListTable_indexed []
          simp only [listField, Option.map_some, Prod.mk.injEq, true_and,
            Option.some.injEq, Zval.array.injEq, htable, Option.rel_some_some,
            indexed_injective.eq_iff]
          apply map_eq_map_iff_forall₂
          intro node hnode other
          rw [Zval.array.injEq, htold node hnode other]

/-! ## What tells two nodes apart -/

theorem callFields_append_eq_iff {path : Option AstNode}
    {params : Option (List (Option AstNode))} {hash : Option AstNode}
    (htold : ∀ node ∈ callNodes path params hash, ToldApart readableType node)
    (pathKey : String) (path' : Option AstNode)
    (params' : Option (List (Option AstNode))) (hash' : Option AstNode)
    (fields fields' : List (Bytes × Option Zval)) :
    callFields readableType pathKey path params hash ++ fields =
        callFields readableType pathKey path' params' hash' ++ fields' ↔
      (Option.Rel SameNode path path' ∧
        Option.Rel (List.Forall₂ SameNode) (params.map List.reduceOption)
          (params'.map List.reduceOption) ∧
        Option.Rel SameNode hash hash') ∧ fields = fields' := by
  simp only [callNodes, List.mem_append, or_imp, forall_and] at htold
  obtain ⟨⟨hpath, hparams⟩, hhash⟩ := htold
  simp only [callFields, List.cons_append, List.nil_append, List.cons.injEq,
    nodeField_eq_iff _ hpath, listField_eq_iff _ hparams,
    nodeField_eq_iff _ hhash, and_assoc]

theorem callFields_eq_iff {path : Option AstNode}
    {params : Option (List (Option AstNode))} {hash : Option AstNode}
    (htold : ∀ node ∈ callNodes path params hash, ToldApart readableType node)
    (pathKey : String) (path' : Option AstNode)
    (params' : Option (List (Option AstNode))) (hash' : Option AstNode) :
    callFields readableType pathKey path params hash =
        callFields readableType pathKey path' params' hash' ↔
      Option.Rel SameNode path path' ∧
        Option.Rel (List.Forall₂ SameNode) (params.map List.reduceOption)
          (params'.map List.reduceOption) ∧
        Option.Rel SameNode hash hash' := by
  simpa using
    callFields_append_eq_iff htold pathKey path' params' hash' [] []

theorem program_eq_iff {base base' : AstBase}
    {statements statements' : Option (List (Option AstNode))}
    {chained chained' : ℤ}
    {blockParam1 blockParam2 blockParam1' blockParam2' : Option Bytes}
    (htold : ∀ node ∈ listNodes statements, ToldApart readableType node) :
    astFields readableType
          (.program base statements chained blockParam1 blockParam2) =
        astFields readableType
          (.program base' statements' chained' blockParam1' blockParam2') ↔
      SameNode (.program base statements chained blockParam1 blockParam2)
        (.program base' statements' chained' blockParam1' blockParam2') := by
  rw [astFields, astFields, headFields_append_eq_iff]
  simp only [List.cons.injEq, and_true, longField_eq_iff, stringField_eq_iff,
    listField_eq_iff _ htold]
  constructor
  · rintro ⟨hbase, hstatements, rfl, rfl, rfl⟩
    exact .program hbase hstatements
  · intro hsame
    cases hsame with
    | program hbase hstatements => exact ⟨hbase, hstatements, rfl, rfl, rfl⟩

theorem call_eq_iff {kind kind' : CallKind} (hkind : kind.type = kind'.type)
    {base base' : AstBase} {path path' : Option AstNode}
    {params params' : Option (List (Option AstNode))}
    {hash hash' : Option AstNode}
    (htold : ∀ node ∈ callNodes path params hash,
      ToldApart readableType node) :
    astFields readableType (.call kind base path params hash) =
        astFields readableType (.call kind' base' path' params' hash') ↔
      SameNode (.call kind base path params hash)
        (.call kind' base' path' params' hash') := by
  have hsame : SameNode (.call kind base path params hash)
        (.call kind' base' path' params' hash') ↔
      SameBase base base' ∧ (Option.Rel SameNode path path' ∧
        Option.Rel (List.Forall₂ SameNode) (params.map List.reduceOption)
          (params'.map List.reduceOption) ∧
        Option.Rel SameNode hash hash') ∧ kind = kind' := by
    constructor
    · intro hsame
      cases hsame with
      | call hbase hpath hparams hhash =>
          exact ⟨hbase, ⟨hpath, hparams, hhash⟩, rfl⟩
    · rintro ⟨hbase, ⟨hpath, hparams, hhash⟩, rfl⟩
      exact .call hbase hpath hparams hhash
  rw [hsame]
  cases kind <;> cases kind' <;> try cases hkind
  case mustache.mustache unescaped unescaped' =>
    rw [astFields, astFields, headFields_append_eq_iff,
      callFields_append_eq_iff htold]
    simp [longField_eq_iff]
  case sexpr.sexpr =>
    rw [astFields, astFields, headFields_append_eq_iff,
      callFields_eq_iff htold]
    simp
  case partialNode.partialNode =>
    rw [astFields, astFields, headFields_append_eq_iff,
      callFields_eq_iff htold]
    simp

theorem block_eq_iff {raw : Bool} {base base' : AstBase}
    {path path' : Option AstNode}
    {params params' : Option (List (Option AstNode))}
    {hash hash' program program' inverse inverse' : Option AstNode}
    {openStrip inverseStrip closeStrip : ℤ}
    {openStrip' inverseStrip' closeStrip' : ℤ}
    (htold : ∀ node ∈ callNodes path params hash ++
      (program.toList ++ inverse.toList), ToldApart readableType node) :
    astFields readableType (.block raw base path params hash program inverse
          openStrip inverseStrip closeStrip) =
        astFields readableType (.block raw base' path' params' hash' program'
          inverse' openStrip' inverseStrip' closeStrip') ↔
      SameNode (.block raw base path params hash program inverse openStrip
          inverseStrip closeStrip)
        (.block raw base' path' params' hash' program' inverse' openStrip'
          inverseStrip' closeStrip') := by
  simp only [List.mem_append, or_imp, forall_and] at htold
  obtain ⟨hcall, hprogram, hinverse⟩ := htold
  have hcall' : ∀ node ∈ callNodes path params hash,
      ToldApart readableType node := by
    simpa [callNodes, or_imp, forall_and] using hcall
  rw [astFields, astFields, headFields_append_eq_iff,
    callFields_append_eq_iff hcall']
  simp only [List.cons.injEq, and_true, longField_eq_iff,
    nodeField_eq_iff _ hprogram, nodeField_eq_iff _ hinverse]
  constructor
  · rintro ⟨hbase, ⟨hpath, hparams, hhash⟩, hprogram, hinverse, rfl, rfl, rfl⟩
    exact .block hbase hpath hparams hhash hprogram hinverse
  · intro hsame
    cases hsame with
    | block hbase hpath hparams hhash hprogram hinverse =>
        exact ⟨hbase, ⟨hpath, hparams, hhash⟩, hprogram, hinverse, rfl, rfl,
          rfl⟩

theorem hash_eq_iff {base base' : AstBase}
    {pairs pairs' : Option (List (Option AstNode))}
    (htold : ∀ node ∈ listNodes pairs, ToldApart readableType node) :
    astFields readableType (.hash base pairs) =
        astFields readableType (.hash base' pairs') ↔
      SameNode (.hash base pairs) (.hash base' pairs') := by
  rw [astFields, astFields, headFields_append_eq_iff]
  simp only [List.cons.injEq, and_true, listField_eq_iff _ htold]
  constructor
  · rintro ⟨hbase, hpairs⟩
    exact .hash hbase hpairs
  · intro hsame
    cases hsame with
    | hash hbase hpairs => exact ⟨hbase, hpairs⟩

theorem hashPair_eq_iff {base base' : AstBase} {key key' : Option Bytes}
    {value value' : Option AstNode}
    (htold : ∀ node ∈ value.toList, ToldApart readableType node) :
    astFields readableType (.hashPair base key value) =
        astFields readableType (.hashPair base' key' value') ↔
      SameNode (.hashPair base key value) (.hashPair base' key' value') := by
  rw [astFields, astFields, headFields_append_eq_iff]
  simp only [List.cons.injEq, and_true, stringField_eq_iff,
    nodeField_eq_iff _ htold]
  constructor
  · rintro ⟨hbase, rfl, hvalue⟩
    exact .hashPair hbase hvalue
  · intro hsame
    cases hsame with
    | hashPair hbase hvalue => exact ⟨hbase, rfl, hvalue⟩

theorem path_eq_iff {base base' : AstBase}
    {parts parts' : Option (List (Option AstNode))}
    {original original' : Option Bytes}
    {depth data falsy depth' data' falsy' : ℤ}
    (htold : ∀ node ∈ listNodes parts, ToldApart readableType node) :
    astFields readableType (.path base parts original depth data falsy) =
        astFields readableType
          (.path base' parts' original' depth' data' falsy') ↔
      SameNode (.path base parts original depth data falsy)
        (.path base' parts' original' depth' data' falsy') := by
  rw [astFields, astFields, headFields_append_eq_iff]
  simp only [List.cons.injEq, and_true, longField_eq_iff, stringField_eq_iff,
    listField_eq_iff _ htold]
  constructor
  · rintro ⟨hbase, hparts, rfl, rfl, rfl, rfl⟩
    exact .path hbase hparts
  · intro hsame
    cases hsame with
    | path hbase hparts => exact ⟨hbase, hparts, rfl, rfl, rfl, rfl⟩

theorem literal_eq_iff {kind kind' : LiteralKind}
    (hkind : kind.type = kind'.type) {base base' : AstBase}
    {value original value' original' : Option Bytes} :
    astFields readableType (.literal kind base value original) =
        astFields readableType (.literal kind' base' value' original') ↔
      SameNode (.literal kind base value original)
        (.literal kind' base' value' original') := by
  have hsame : kind = kind' := by
    cases kind <;> cases kind' <;> first | rfl | cases hkind
  subst hsame
  rw [astFields, astFields, headFields_append_eq_iff]
  simp only [List.cons.injEq, and_true, stringField_eq_iff]
  constructor
  · rintro ⟨hbase, rfl, rfl⟩
    exact .literal hbase
  · intro hsame
    cases hsame with
    | literal hbase => exact ⟨hbase, rfl, rfl⟩

theorem skipped_eq_iff {kind kind' : SkippedKind}
    (hkind : kind.type = kind'.type) {base base' : AstBase}
    {path path' : Option AstNode}
    {params params' : Option (List (Option AstNode))}
    {hash hash' program program' inverse inverse' : Option AstNode} :
    astFields readableType
          (.skipped kind base path params hash program inverse) =
        astFields readableType
          (.skipped kind' base' path' params' hash' program' inverse') ↔
      SameNode (.skipped kind base path params hash program inverse)
        (.skipped kind' base' path' params' hash' program' inverse') := by
  have hsame : kind = kind' := by
    cases kind <;> cases kind' <;> first | rfl | cases hkind
  subst hsame
  have hfields : headFields readableType kind.type base =
        headFields readableType kind.type base' ↔ SameBase base base' := by
    simpa using headFields_append_eq_iff kind.type base base' [] []
  rw [astFields, astFields, hfields]
  constructor
  · exact .skipped
  · intro hsame
    cases hsame with
    | skipped hbase => exact hbase

theorem comment_eq_iff {base base' : AstBase} {value value' : Option Bytes} :
    astFields readableType (.comment base value) =
        astFields readableType (.comment base' value') ↔
      SameNode (.comment base value) (.comment base' value') := by
  rw [astFields, astFields, headFields_append_eq_iff]
  simp only [List.cons.injEq, and_true, stringField_eq_iff]
  constructor
  · rintro ⟨hbase, rfl⟩
    exact .comment hbase
  · intro hsame
    cases hsame with
    | comment hbase => exact ⟨hbase, rfl⟩

theorem pathSegment_eq_iff {base base' : AstBase}
    {separator part original separator' part' original' : Option Bytes} :
    astFields readableType (.pathSegment base separator part original) =
        astFields readableType
          (.pathSegment base' separator' part' original') ↔
      SameNode (.pathSegment base separator part original)
        (.pathSegment base' separator' part' original') := by
  rw [astFields, astFields, headFields_append_eq_iff]
  simp only [List.cons.injEq, and_true, stringField_eq_iff]
  constructor
  · rintro ⟨hbase, rfl, rfl, rfl⟩
    exact .pathSegment hbase
  · intro hsame
    cases hsame with
    | pathSegment hbase => exact ⟨hbase, rfl, rfl, rfl⟩

/-- Nodes of one type have the same fields exactly when they are the same. -/
theorem astFields_eq_iff {first second : AstNode}
    (htold : ∀ child ∈ astChildren first, ToldApart readableType child)
    (htype : first.type = second.type) :
    astFields readableType first = astFields readableType second ↔
      SameNode first second := by
  have hmember := congrArg AstNodeType.member htype
  rw [AstNode.type_member, AstNode.type_member] at hmember
  cases first with
  | program =>
      cases second with
      | program => exact program_eq_iff htold
      | _ => cases hmember
  | call =>
      cases second with
      | call => exact call_eq_iff htype htold
      | _ => cases hmember
  | block raw =>
      cases second with
      | block raw' =>
          have hraw : raw = raw' := by
            cases raw <;> cases raw' <;> first | rfl | cases htype
          subst hraw
          exact block_eq_iff htold
      | _ => cases hmember
  | literal =>
      cases second with
      | literal => exact literal_eq_iff htype
      | _ => cases hmember
  | hash =>
      cases second with
      | hash => exact hash_eq_iff htold
      | _ => cases hmember
  | hashPair =>
      cases second with
      | hashPair => exact hashPair_eq_iff htold
      | _ => cases hmember
  | path =>
      cases second with
      | path => exact path_eq_iff htold
      | _ => cases hmember
  | comment =>
      cases second with
      | comment => exact comment_eq_iff
      | _ => cases hmember
  | pathSegment =>
      cases second with
      | pathSegment => exact pathSegment_eq_iff
      | _ => cases hmember
  | skipped =>
      cases second with
      | skipped => exact skipped_eq_iff htype
      | _ => cases hmember

/-- The names of the entries behind those of every node. -/
def fieldNames : AstNodeType → List String
  | .program => ["statements", "chained", "block_param1", "block_param2"]
  | .mustache => ["path", "params", "hash", "unescaped"]
  | .sexpr => ["path", "params", "hash"]
  | .partialNode => ["name", "params", "hash"]
  | .block | .rawBlock =>
      ["path", "params", "hash", "program", "inverse", "open_strip",
        "inverse_strip", "close_strip"]
  | .content | .string | .number | .boolean | .nul | .undefined =>
      ["value", "original"]
  | .hash => ["pairs"]
  | .hashPair => ["key", "value"]
  | .path => ["parts", "original", "depth", "data", "falsy"]
  | .comment => ["value"]
  | .pathSegment => ["separator", "part", "original"]
  | .nil | .intermediate | .inverse | .partialBlock => []

theorem astFields_names (node : AstNode) :
    (astFields readableType node).map Prod.fst =
      (["type", "strip", "loc"] ++ fieldNames node.type).map ascii := by
  cases node with
  | call kind base path params hash => cases kind <;> rfl
  | block raw base path params hash program inverse openStrip inverseStrip
      closeStrip => cases raw <;> rfl
  | literal kind base value original => cases kind <;> rfl
  | skipped kind base path params hash program inverse => cases kind <;> rfl
  | _ => rfl

theorem head_astNodeTable (node : AstNode) :
    (astNodeTable readableType node).head? =
      some (typeKey, .string (readableType node.type)) := by
  have hfields : ∃ rest, astFields readableType node =
      (ascii "type", some (.string (readableType node.type))) :: rest := by
    cases node with
    | call kind base path params hash => cases kind <;> exact ⟨_, rfl⟩
    | _ => exact ⟨_, rfl⟩
  obtain ⟨rest, hrest⟩ := hfields
  rw [astNodeTable_eq, addFields_eq (astFields_names_nodup node) (by simp),
    hrest]
  rfl

theorem type_eq_of_astNodeTable (hdistinct : Function.Injective readableType)
    {first second : AstNode} (htable : astNodeTable readableType first =
      astNodeTable readableType second) : first.type = second.type := by
  have hhead := congrArg List.head? htable
  rw [head_astNodeTable, head_astNodeTable] at hhead
  simp only [Option.some.injEq, Prod.mk.injEq, Zval.string.injEq,
    true_and] at hhead
  exact hdistinct hhead

theorem astNodeTable_eq_iff (hdistinct : Function.Injective readableType)
    (node : AstNode) : ToldApart readableType node := by
  -- the children are told apart, so that the fields of the node are
  induction node using astBranching.childInduction with
  | node node htold =>
      intro other
      by_cases htype : node.type = other.type
      · rw [← astFields_eq_iff htold htype, astNodeTable_eq, astNodeTable_eq]
        apply addFields_eq_iff
        · rw [astFields_names, astFields_names, htype]
        · exact astFields_names_nodup node
      · apply iff_of_false
        · exact fun htable => htype (type_eq_of_astNodeTable hdistinct htable)
        · exact fun hsame => htype hsame.type_eq

/-- The array which `Parser::parse` returns determines the tree up to what the
conversion leaves out, and nothing of what it leaves out shows in the array. -/
theorem astNodeToZval_eq_iff (hdistinct : Function.Injective readableType)
    (first second : Option AstNode) :
    phpHandlebarsAstNodeToZval readableType first =
        phpHandlebarsAstNodeToZval readableType second ↔
      Option.Rel SameNode first second := by
  have hnonempty : ∀ node, astNodeTable readableType node ≠ [] := by
    intro node hempty
    have hhead := congrArg List.head? hempty
    rw [head_astNodeTable] at hhead
    simp at hhead
  cases first with
  | none =>
      cases second with
      | none => simp [phpHandlebarsAstNodeToZval]
      | some node =>
          simp [phpHandlebarsAstNodeToZval, (hnonempty node).symm]
  | some node =>
      cases second with
      | none => simp [phpHandlebarsAstNodeToZval, hnonempty node]
      | some node' =>
          have hnode := astNodeTable_eq_iff hdistinct node node'
          simp [phpHandlebarsAstNodeToZval, hnode]

end

def nodeTypeName : AstNodeType → Bytes
  | .nil => ascii "NIL"
  | .program => ascii "PROGRAM"
  | .mustache => ascii "MUSTACHE"
  | .sexpr => ascii "SEXPR"
  | .partialNode => ascii "PARTIAL"
  | .intermediate => ascii "INTERMEDIATE"
  | .block => ascii "BLOCK"
  | .rawBlock => ascii "RAW_BLOCK"
  | .inverse => ascii "INVERSE"
  | .content => ascii "CONTENT"
  | .hash => ascii "HASH"
  | .hashPair => ascii "HASH_PAIR"
  | .path => ascii "PATH"
  | .string => ascii "STRING"
  | .number => ascii "NUMBER"
  | .boolean => ascii "BOOLEAN"
  | .nul => ascii "NUL"
  | .undefined => ascii "UNDEFINED"
  | .comment => ascii "COMMENT"
  | .pathSegment => ascii "PATH_SEGMENT"
  | .partialBlock => ascii "PARTIAL_BLOCK"

def nodeTypes : List AstNodeType :=
  [.nil, .program, .mustache, .sexpr, .partialNode, .intermediate, .block,
    .rawBlock, .inverse, .content, .hash, .hashPair, .path, .string, .number,
    .boolean, .nul, .undefined, .comment, .pathSegment, .partialBlock]

theorem nodeTypeName_injective : Function.Injective nodeTypeName := by
  have hnodup : (nodeTypes.map nodeTypeName).Nodup := by decide
  have hall : ∀ type, type ∈ nodeTypes := by
    intro type
    cases type <;> simp [nodeTypes]
  intro type type' heq
  exact List.inj_on_of_nodup_map hnodup (hall type) (hall type') heq

/-- The tree of `{{#> foo}}{{/foo}}`. -/
def emptyPartialBlockAst : AstNode :=
  .program noStrip (some [some (.skipped .partialBlock noStrip (some fooPath)
    none none (some (.program noStrip (some []) 0 none none)) none)]) 0 none
    none

/-- The array does not tell whether there is something in the block. -/
theorem partial_blocks_alike :
    phpHandlebarsAstNodeToZval nodeTypeName (some partialBlockAst) =
      phpHandlebarsAstNodeToZval nodeTypeName (some emptyPartialBlockAst) := by
  have hbase : SameBase noStrip noStrip := ⟨Iff.rfl, fun _ _ => Iff.rfl, rfl⟩
  exact (astNodeToZval_eq_iff nodeTypeName_injective _ _).mpr
    (.some (.program hbase (.some (.cons (.skipped hbase) .nil))))

end PhpHandlebars
