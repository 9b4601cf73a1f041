import PhpHandlebars.EventRun
import PhpHandlebars.OptionsObject
import Mathlib.Tactic

/-!
# Who destroys the values of an Options object

The values an object was given lie in a talloc chunk below the VM.  The object
and the VM end in either order.  Whoever comes first, a read handler, the free
function of the object or the destructor of the chunk, leaves NULL for those
who come later.
-/

namespace PhpHandlebars

/-- One of the values in the memory behind a `dtor_ctx`. -/
structure ValuePtr where
  chunk : ℕ
  slot : ℕ
  deriving DecidableEq

/-- `struct options_obj_dtor_ctx`, with its talloc parent. -/
structure DtorCtx where
  obj : ℕ
  parent : ℕ

inductive MemoryFault where
  | deadValue (value : ValuePtr)
  | deadVm (vm : ℕ)
  | deadObject (obj : ℕ)
  | deadChunk (chunk : ℕ)

/-- What is alive of the VMs, the objects and the chunks, and what has been
destroyed. -/
structure OptionsHeap where
  vms : ℕ → Bool
  objects : ℕ → Option (OptionsObject ValuePtr)
  objectCount : ℕ
  chunks : ℕ → Option DtorCtx
  chunkCount : ℕ
  destroyed : List ValuePtr
  faults : List MemoryFault

inductive OwnershipEvent (V : Type) where
  | construct (vm : ℕ) (options : HandlebarsOptions V)
  | read (obj : ℕ) (member : Bytes)
  | call (obj : ℕ) (program : Bool)
  | teardown (vm : ℕ)
  | free (obj : ℕ)

def OptionsHeap.start : OptionsHeap where
  vms := fun _ => true
  objects := fun _ => none
  objectCount := 0
  chunks := fun _ => none
  chunkCount := 0
  destroyed := []
  faults := []

/-! ## Uses of memory -/

def OptionsHeap.Live (heap : OptionsHeap) (value : ValuePtr) : Prop :=
  (heap.chunks value.chunk).isSome ∧ value ∉ heap.destroyed

instance (heap : OptionsHeap) (value : ValuePtr) :
    Decidable (heap.Live value) :=
  inferInstanceAs (Decidable (_ ∧ _))

def OptionsHeap.fault (heap : OptionsHeap) (fault : MemoryFault) :
    OptionsHeap :=
  { heap with faults := fault :: heap.faults }

def OptionsHeap.touch (heap : OptionsHeap) (value : ValuePtr) : OptionsHeap :=
  if heap.Live value then heap else heap.fault (.deadValue value)

def OptionsHeap.useValue (heap : OptionsHeap) :
    ValueUse ValuePtr → OptionsHeap
  | .read value => heap.touch value
  | .destroy value =>
      { heap.touch value with destroyed := value :: heap.destroyed }

def OptionsHeap.useVm (heap : OptionsHeap) (vm : ℕ) : OptionsHeap :=
  if heap.vms vm then heap else heap.fault (.deadVm vm)

def OptionsHeap.setObject (heap : OptionsHeap) (obj : ℕ)
    (object : Option (OptionsObject ValuePtr)) : OptionsHeap :=
  { heap with objects := Function.update heap.objects obj object }

@[simp] theorem OptionsHeap.setObject_self (heap : OptionsHeap) (obj : ℕ)
    (object : Option (OptionsObject ValuePtr)) :
    (heap.setObject obj object).objects obj = object := by
  simp [setObject]

theorem OptionsHeap.setObject_of_ne (heap : OptionsHeap) {obj other : ℕ}
    (hne : other ≠ obj) (object : Option (OptionsObject ValuePtr)) :
    (heap.setObject obj object).objects other = heap.objects other := by
  simp [setObject, hne]

/-- `options_dtor_ctx_dtor` writes into the object it was set up for. -/
def OptionsHeap.runDestructor (heap : OptionsHeap) (ctx : DtorCtx) :
    OptionsHeap :=
  match heap.objects ctx.obj with
  | some object => heap.setObject ctx.obj (some (optionsDtorCtxDtor object))
  | none => heap.fault (.deadObject ctx.obj)

/-- `talloc_free` of a chunk, or of its parent as far as the chunk goes. -/
def OptionsHeap.tallocFree (heap : OptionsHeap) (chunk : ℕ) : OptionsHeap :=
  match heap.chunks chunk with
  | some ctx =>
      { heap.runDestructor ctx with
        chunks := Function.update heap.chunks chunk none }
  | none => heap.fault (.deadChunk chunk)

/-- The values of an object are used, and it is left changed. -/
def OptionsHeap.release (heap : OptionsHeap) (obj : ℕ)
    (uses : List (ValueUse ValuePtr)) (object : OptionsObject ValuePtr) :
    OptionsHeap :=
  (uses.foldl OptionsHeap.useValue heap).setObject obj (some object)

/-! ## Operations -/

variable {V : Type} (version : PhpVersion) (toZval : ValuePtr → Zval)

/-- Where `php_handlebars_options_ctor` copies the values to: one behind the
other, without room for those which are not there. -/
def placeValues (chunk : ℕ) (options : HandlebarsOptions V) :
    HandlebarsOptions ValuePtr where
  name := options.name
  program := options.program
  inverse := options.inverse
  scope := options.scope.map fun _ => ⟨chunk, 0⟩
  data := options.data.map fun _ => ⟨chunk, options.scope.toList.length⟩
  hash := options.hash.map fun _ =>
    ⟨chunk, options.scope.toList.length + options.data.toList.length⟩

def constructOptions (heap : OptionsHeap) (vm : ℕ)
    (options : HandlebarsOptions V) : OptionsHeap :=
  { heap with
    objects := Function.update heap.objects heap.objectCount (some
      (optionsCtor vm heap.chunkCount (placeValues heap.chunkCount options)))
    objectCount := heap.objectCount + 1
    chunks := Function.update heap.chunks heap.chunkCount
      (some ⟨heap.objectCount, vm⟩)
    chunkCount := heap.chunkCount + 1 }

def readOptions (heap : OptionsHeap) (obj : ℕ)
    (object : OptionsObject ValuePtr) (member : Bytes) : OptionsHeap :=
  let read := readProperty version toZval object member
  heap.release obj read.uses read.object

/-- `php_handlebars_options_call`: without a VM the property of the same name
is called, and nothing is done for a program which is not there. -/
def callOptions (heap : OptionsHeap) (obj : ℕ)
    (object : OptionsObject ValuePtr) (program : Bool) : OptionsHeap :=
  match object.vm with
  | none =>
      readOptions version toZval heap obj object
        (if program then ascii "fn" else ascii "inverse")
  | some vm =>
      let programGuid :=
        if program then object.options.program else object.options.inverse
      if programGuid < 0 then heap else heap.useVm vm

/-- Everything below the VM goes, and the VM with it. -/
def teardownVm (heap : OptionsHeap) (vm : ℕ) : OptionsHeap :=
  let children := (List.range heap.chunkCount).filter fun chunk =>
    (heap.chunks chunk).any fun ctx => ctx.parent = vm
  { children.foldl OptionsHeap.tallocFree heap with
    vms := Function.update heap.vms vm false }

/-- `php_handlebars_options_obj_free_common`, up to `dtor_ctx`. -/
def freeValues (heap : OptionsHeap) (obj : ℕ)
    (object : OptionsObject ValuePtr) : OptionsHeap :=
  let hashless := { object with options.hash := none }
  let dataless := { hashless with options.data := none }
  let scopeless := { dataless with options.scope := none }
  let nameless := { scopeless with options.name := none }
  let heap := heap.release obj
    (object.options.hash.toList.map .destroy) hashless
  let heap := heap.release obj
    (hashless.options.data.toList.map .destroy) dataless
  let heap := heap.release obj
    (dataless.options.scope.toList.map .destroy) scopeless
  heap.release obj [] nameless

def freeOptions (heap : OptionsHeap) (obj : ℕ)
    (object : OptionsObject ValuePtr) : OptionsHeap :=
  let heap := freeValues heap obj object
  let heap := object.dtorCtx.elim heap heap.tallocFree
  heap.setObject obj none

/-- PHP does not use an object it has freed, and a VM is torn down once. -/
def ownershipStep (heap : OptionsHeap) :
    OwnershipEvent V → Option OptionsHeap
  | .construct vm options =>
      if heap.vms vm then some (constructOptions heap vm options) else none
  | .read obj member =>
      (heap.objects obj).map fun object =>
        readOptions version toZval heap obj object member
  | .call obj program =>
      (heap.objects obj).map fun object =>
        callOptions version toZval heap obj object program
  | .teardown vm => if heap.vms vm then some (teardownVm heap vm) else none
  | .free obj =>
      (heap.objects obj).map fun object => freeOptions heap obj object

/-! ## The invariant -/

def HandlebarsOptions.pointers (options : HandlebarsOptions ValuePtr) :
    List ValuePtr :=
  options.hash.toList ++ options.data.toList ++ options.scope.toList

/-- The pointers of an object to its values. -/
def OptionsObject.pointers (object : OptionsObject ValuePtr) :
    List ValuePtr :=
  object.options.pointers

/-- An object has a VM as long as it has a chunk below it, and its pointers
lead into that chunk. -/
structure OwnsValues (heap : OptionsHeap) (obj : ℕ)
    (object : OptionsObject ValuePtr) : Prop where
  vm : ∀ vm, object.vm = some vm → object.dtorCtx.isSome
  dtorCtx : ∀ chunk, object.dtorCtx = some chunk →
    ∃ parent, heap.chunks chunk = some ⟨obj, parent⟩
  pointers : ∀ value ∈ object.pointers,
    object.dtorCtx = some value.chunk ∧ value ∉ heap.destroyed
  nodup : object.pointers.Nodup

structure OwnershipInvariant (heap : OptionsHeap) : Prop where
  faults : heap.faults = []
  nodup : heap.destroyed.Nodup
  objectFresh : ∀ obj, heap.objectCount ≤ obj → heap.objects obj = none
  chunkFresh : ∀ chunk, heap.chunkCount ≤ chunk → heap.chunks chunk = none
  destroyedFresh : ∀ value ∈ heap.destroyed, value.chunk < heap.chunkCount
  chunkAlive : ∀ chunk ctx, heap.chunks chunk = some ctx →
    heap.vms ctx.parent = true
  chunkOwned : ∀ chunk ctx, heap.chunks chunk = some ctx →
    ∃ object, heap.objects ctx.obj = some object ∧
      object.dtorCtx = some chunk ∧ object.vm = some ctx.parent
  owns : ∀ obj object, heap.objects obj = some object →
    OwnsValues heap obj object

theorem OwnershipInvariant.start : OwnershipInvariant .start := by
  constructor <;> simp [OptionsHeap.start]

/-- No value is used, or one value is destroyed and forgotten. -/
def Forgets (options : HandlebarsOptions ValuePtr)
    (uses : List (ValueUse ValuePtr)) (next : HandlebarsOptions ValuePtr) :
    Prop :=
  (uses = [] ∧ next.pointers = options.pointers) ∨
    ∃ value, (uses = [.read value, .destroy value] ∨
        uses = [.destroy value]) ∧
      List.Perm options.pointers (value :: next.pointers)

/-- What a single operation may do to an object. -/
structure Releases (object : OptionsObject ValuePtr)
    (uses : List (ValueUse ValuePtr)) (next : OptionsObject ValuePtr) :
    Prop where
  vm : next.vm = object.vm
  dtorCtx : next.dtorCtx = object.dtorCtx
  pointers : Forgets object.options uses next.options

theorem OwnershipInvariant.live {heap : OptionsHeap}
    (hinv : OwnershipInvariant heap) {obj : ℕ}
    {object : OptionsObject ValuePtr} (hobject : heap.objects obj = some object)
    {value : ValuePtr} (hvalue : value ∈ object.pointers) :
    heap.Live value := by
  have howns := hinv.owns obj object hobject
  obtain ⟨hctx, hdestroyed⟩ := howns.pointers value hvalue
  obtain ⟨parent, hchunk⟩ := howns.dtorCtx value.chunk hctx
  exact ⟨by simp [hchunk], hdestroyed⟩

/-- A chunk has one object. -/
theorem OwnershipInvariant.same_object {heap : OptionsHeap}
    (hinv : OwnershipInvariant heap) {obj other : ℕ}
    {object otherObject : OptionsObject ValuePtr} {chunk : ℕ}
    (hobject : heap.objects obj = some object)
    (hother : heap.objects other = some otherObject)
    (hctx : object.dtorCtx = some chunk)
    (hctx' : otherObject.dtorCtx = some chunk) : other = obj := by
  obtain ⟨parent, hchunk⟩ := (hinv.owns obj object hobject).dtorCtx chunk hctx
  obtain ⟨parent', hchunk'⟩ :=
    (hinv.owns other otherObject hother).dtorCtx chunk hctx'
  rw [hchunk] at hchunk'
  injection hchunk' with heq
  injection heq with hobj
  exact hobj.symm

theorem OwnershipInvariant.object_lt {heap : OptionsHeap}
    (hinv : OwnershipInvariant heap) {obj : ℕ}
    {object : OptionsObject ValuePtr}
    (hobject : heap.objects obj = some object) : obj < heap.objectCount := by
  by_contra hfresh
  rw [hinv.objectFresh obj (by omega)] at hobject
  simp at hobject

theorem OwnershipInvariant.chunk_lt {heap : OptionsHeap}
    (hinv : OwnershipInvariant heap) {chunk : ℕ} {ctx : DtorCtx}
    (hchunk : heap.chunks chunk = some ctx) : chunk < heap.chunkCount := by
  by_contra hfresh
  rw [hinv.chunkFresh chunk (by omega)] at hchunk
  simp at hchunk

theorem OwnershipInvariant.setObject_fresh {heap : OptionsHeap}
    (hinv : OwnershipInvariant heap) {obj : ℕ}
    {object : OptionsObject ValuePtr}
    (hobject : heap.objects obj = some object)
    (next : Option (OptionsObject ValuePtr)) {other : ℕ}
    (hother : heap.objectCount ≤ other) :
    (heap.setObject obj next).objects other = none := by
  have hne : other ≠ obj := by
    have hlt := hinv.object_lt hobject
    omega
  rw [heap.setObject_of_ne hne]
  exact hinv.objectFresh other hother

/-- An object still owns its values where its chunk and its values are left
alone. -/
theorem OwnsValues.frame {heap next : OptionsHeap} {obj : ℕ}
    {object : OptionsObject ValuePtr} (howns : OwnsValues heap obj object)
    (hchunks : ∀ chunk, object.dtorCtx = some chunk →
      next.chunks chunk = heap.chunks chunk)
    (hdestroyed : ∀ value ∈ object.pointers, value ∉ next.destroyed) :
    OwnsValues next obj object where
  vm := howns.vm
  dtorCtx := by
    intro chunk hctx
    rw [hchunks chunk hctx]
    exact howns.dtorCtx chunk hctx
  pointers := by
    intro value hvalue
    exact ⟨(howns.pointers value hvalue).1, hdestroyed value hvalue⟩
  nodup := howns.nodup

/-- The values an object keeps are not among those it forgets. -/
theorem OwnsValues.forget {heap : OptionsHeap} {obj : ℕ}
    {object next : OptionsObject ValuePtr} (howns : OwnsValues heap obj object)
    (hvm : next.vm = object.vm) (hctx : next.dtorCtx = object.dtorCtx)
    {gone : List ValuePtr}
    (hgone : List.Perm object.pointers (gone ++ next.pointers)) :
    OwnsValues { heap with destroyed := gone ++ heap.destroyed } obj next := by
  have hnodup := hgone.nodup_iff.mp howns.nodup
  constructor
  case vm =>
    intro vm hobjectVm
    rw [hctx]
    exact howns.vm vm (hvm ▸ hobjectVm)
  case dtorCtx =>
    intro chunk hchunk
    exact howns.dtorCtx chunk (hctx ▸ hchunk)
  case pointers =>
    intro value hvalue
    have hkept := howns.pointers value
      (hgone.mem_iff.mpr (List.mem_append_right _ hvalue))
    constructor
    · exact hctx ▸ hkept.1
    · intro hdestroyed
      rcases List.mem_append.mp hdestroyed with hnew | hold
      · exact (List.nodup_append.mp hnodup).2.2 value hnew value hvalue rfl
      · exact hkept.2 hold
  case nodup => exact List.Nodup.of_append_right hnodup

/-- Some values of an object are destroyed and forgotten. -/
theorem OwnershipInvariant.replace {heap : OptionsHeap}
    (hinv : OwnershipInvariant heap) {obj : ℕ}
    {object next : OptionsObject ValuePtr}
    (hobject : heap.objects obj = some object) (hvm : next.vm = object.vm)
    (hctx : next.dtorCtx = object.dtorCtx) {gone : List ValuePtr}
    (hgone : List.Perm object.pointers (gone ++ next.pointers)) :
    OwnershipInvariant
      (({ heap with destroyed := gone ++ heap.destroyed } : OptionsHeap)
        |>.setObject obj (some next)) := by
  have howns := hinv.owns obj object hobject
  have hnodup := hgone.nodup_iff.mp howns.nodup
  have hgonePointers : ∀ value ∈ gone,
      object.dtorCtx = some value.chunk ∧ value ∉ heap.destroyed := by
    intro value hvalue
    exact howns.pointers value
      (hgone.mem_iff.mpr (List.mem_append_left _ hvalue))
  constructor
  case faults => exact hinv.faults
  case nodup =>
    apply List.Nodup.append (List.Nodup.of_append_left hnodup) hinv.nodup
    intro value hvalue
    exact (hgonePointers value hvalue).2
  case objectFresh =>
    intro other hother
    exact hinv.setObject_fresh hobject (some next) hother
  case chunkFresh => exact hinv.chunkFresh
  case destroyedFresh =>
    intro value hvalue
    rcases List.mem_append.mp hvalue with hnew | hold
    · have hchunk := (hgonePointers value hnew).1
      obtain ⟨parent, hparent⟩ := howns.dtorCtx value.chunk hchunk
      exact hinv.chunk_lt hparent
    · exact hinv.destroyedFresh value hold
  case chunkAlive => exact hinv.chunkAlive
  case chunkOwned =>
    intro chunk ctx hchunk
    obtain ⟨owner, howner, hownerCtx, hownerVm⟩ :=
      hinv.chunkOwned chunk ctx hchunk
    by_cases heq : ctx.obj = obj
    · rw [heq, hobject] at howner
      obtain rfl := Option.some.inj howner
      refine ⟨next, ?_, hctx.trans hownerCtx, hvm.trans hownerVm⟩
      rw [heq, OptionsHeap.setObject_self]
    · refine ⟨owner, ?_, hownerCtx, hownerVm⟩
      rw [OptionsHeap.setObject_of_ne _ heq, howner]
  case owns =>
    intro other otherObject hother
    by_cases heq : other = obj
    · subst other
      rw [OptionsHeap.setObject_self] at hother
      obtain rfl := Option.some.inj hother
      have hkept := howns.forget hvm hctx hgone
      exact hkept.frame (fun _ _ => rfl) fun value hvalue =>
        (hkept.pointers value hvalue).2
    · rw [OptionsHeap.setObject_of_ne _ heq] at hother
      have howns' := hinv.owns other otherObject hother
      apply howns'.frame
      · intro chunk _
        rfl
      · intro value hvalue hdestroyed
        have hvalue' := howns'.pointers value hvalue
        rcases List.mem_append.mp hdestroyed with hnew | hold
        · have hchunk := (hgonePointers value hnew).1
          exact heq (hinv.same_object hobject hother hchunk hvalue'.1)
        · exact hvalue'.2 hold

/-- A use of a live value does no harm, and destroys it at most once. -/
theorem useValue_release {heap : OptionsHeap} {value : ValuePtr}
    (hlive : heap.Live value) {uses : List (ValueUse ValuePtr)}
    (huses : uses = [.read value, .destroy value] ∨ uses = [.destroy value]) :
    uses.foldl OptionsHeap.useValue heap =
      { heap with destroyed := value :: heap.destroyed } := by
  rcases huses with rfl | rfl <;>
    simp [OptionsHeap.useValue, OptionsHeap.touch, hlive]

theorem OwnershipInvariant.release {heap : OptionsHeap}
    (hinv : OwnershipInvariant heap) {obj : ℕ}
    {object next : OptionsObject ValuePtr}
    (hobject : heap.objects obj = some object)
    {uses : List (ValueUse ValuePtr)}
    (hreleases : Releases object uses next) :
    OwnershipInvariant (heap.release obj uses next) := by
  unfold OptionsHeap.release
  rcases hreleases.pointers with ⟨rfl, hsame⟩ | ⟨value, huses, hperm⟩
  · have hnone : List.Perm object.pointers ([] ++ next.pointers) := by
      rw [List.nil_append, OptionsObject.pointers, OptionsObject.pointers,
        hsame]
    exact hinv.replace hobject hreleases.vm hreleases.dtorCtx hnone
  · have hvalue : value ∈ object.pointers :=
      hperm.mem_iff.mpr (by simp)
    have hone : List.Perm object.pointers ([value] ++ next.pointers) := hperm
    rw [useValue_release (hinv.live hobject hvalue) huses]
    exact hinv.replace hobject hreleases.vm hreleases.dtorCtx hone

@[simp] theorem release_objects (heap : OptionsHeap) (obj : ℕ)
    (uses : List (ValueUse ValuePtr)) (object : OptionsObject ValuePtr) :
    (heap.release obj uses object).objects obj = some object := by
  simp [OptionsHeap.release]

/-! ## Reads and calls -/

theorem forgets_hash {options : HandlebarsOptions ValuePtr}
    {value : ValuePtr} {uses : List (ValueUse ValuePtr)}
    (hvalue : options.hash = some value)
    (huses : uses = [.read value, .destroy value] ∨ uses = [.destroy value]) :
    Forgets options uses { options with hash := none } := by
  refine .inr ⟨value, huses, ?_⟩
  simp [HandlebarsOptions.pointers, hvalue]

theorem forgets_data {options : HandlebarsOptions ValuePtr}
    {value : ValuePtr} {uses : List (ValueUse ValuePtr)}
    (hvalue : options.data = some value)
    (huses : uses = [.read value, .destroy value] ∨ uses = [.destroy value]) :
    Forgets options uses { options with data := none } := by
  refine .inr ⟨value, huses, ?_⟩
  simp [HandlebarsOptions.pointers, hvalue, List.perm_middle]

theorem forgets_scope {options : HandlebarsOptions ValuePtr}
    {value : ValuePtr} {uses : List (ValueUse ValuePtr)}
    (hvalue : options.scope = some value)
    (huses : uses = [.read value, .destroy value] ∨ uses = [.destroy value]) :
    Forgets options uses { options with scope := none } := by
  refine .inr ⟨value, huses, ?_⟩
  simpa [HandlebarsOptions.pointers, hvalue] using
    List.perm_append_singleton value
      (options.hash.toList ++ options.data.toList)

/-- A read handler destroys the value it moves to the property table. -/
theorem findPropHandler_forgets {member : Bytes}
    {handler : PropHandler ValuePtr}
    (hfind : findPropHandler toZval member = some handler)
    {options : HandlebarsOptions ValuePtr} {written : Zval}
    (hheld : handler.held options = some written) :
    Forgets options (handler.uses options) (handler.cleared options) := by
  rcases findPropHandler_cases toZval member with hcase | ⟨-, hcase⟩ |
    ⟨-, hcase⟩ | ⟨-, hcase⟩ | ⟨-, hcase⟩ | ⟨-, hcase⟩ | ⟨-, hcase⟩ <;>
    rw [hcase] at hfind
  · simp at hfind
  · obtain rfl := Option.some.inj hfind
    exact .inl ⟨rfl, rfl⟩
  · obtain rfl := Option.some.inj hfind
    exact .inl ⟨rfl, rfl⟩
  · obtain rfl := Option.some.inj hfind
    exact .inl ⟨rfl, rfl⟩
  · obtain rfl := Option.some.inj hfind
    obtain ⟨value, hvalue, _⟩ := Option.map_eq_some_iff.mp hheld
    apply forgets_scope hvalue
    simp [hbsReadScope, hvalue, useOnce]
  · obtain rfl := Option.some.inj hfind
    obtain ⟨value, hvalue, _⟩ := Option.map_eq_some_iff.mp hheld
    apply forgets_hash hvalue
    simp [hbsReadHash, hvalue, useOnce]
  · obtain rfl := Option.some.inj hfind
    obtain ⟨value, hvalue, _⟩ := Option.map_eq_some_iff.mp hheld
    apply forgets_data hvalue
    simp [hbsReadData, hvalue, useOnce]

theorem readProperty_releases (object : OptionsObject ValuePtr)
    (member : Bytes) :
    Releases object (readProperty version toZval object member).uses
      (readProperty version toZval object member).object := by
  unfold readProperty
  cases hfind : findPropHandler toZval member with
  | none => exact ⟨rfl, rfl, .inl ⟨rfl, rfl⟩⟩
  | some handler =>
      simp only [PropHandler.readProperty]
      cases hheld : handler.held object.options with
      | none => exact ⟨rfl, rfl, .inl ⟨rfl, rfl⟩⟩
      | some written =>
          exact ⟨rfl, rfl, findPropHandler_forgets toZval hfind hheld⟩

theorem readOptions_preserves {heap : OptionsHeap}
    (hinv : OwnershipInvariant heap) {obj : ℕ}
    {object : OptionsObject ValuePtr}
    (hobject : heap.objects obj = some object) (member : Bytes) :
    OwnershipInvariant (readOptions version toZval heap obj object member) :=
  hinv.release hobject (readProperty_releases version toZval object member)

/-- The VM of an object is alive: when it is torn down, the destructor of the
chunk takes the pointer away. -/
theorem OwnershipInvariant.vm_alive {heap : OptionsHeap}
    (hinv : OwnershipInvariant heap) {obj vm : ℕ}
    {object : OptionsObject ValuePtr}
    (hobject : heap.objects obj = some object) (hvm : object.vm = some vm) :
    heap.vms vm = true := by
  have howns := hinv.owns obj object hobject
  obtain ⟨chunk, hctx⟩ := Option.isSome_iff_exists.mp (howns.vm vm hvm)
  obtain ⟨parent, hchunk⟩ := howns.dtorCtx chunk hctx
  obtain ⟨owner, howner, _, hparent⟩ := hinv.chunkOwned chunk _ hchunk
  rw [hobject] at howner
  obtain rfl := Option.some.inj howner
  obtain rfl := Option.some.inj (hvm.symm.trans hparent)
  exact hinv.chunkAlive chunk _ hchunk

theorem callOptions_preserves {heap : OptionsHeap}
    (hinv : OwnershipInvariant heap) {obj : ℕ}
    {object : OptionsObject ValuePtr}
    (hobject : heap.objects obj = some object) (program : Bool) :
    OwnershipInvariant
      (callOptions version toZval heap obj object program) := by
  unfold callOptions
  cases hvm : object.vm with
  | none => exact readOptions_preserves version toZval hinv hobject _
  | some vm =>
      have huse : heap.useVm vm = heap :=
        if_pos (hinv.vm_alive hobject hvm)
      dsimp only
      rw [huse, ite_self]
      exact hinv

/-! ## Construction -/

theorem placeValues_pointers (chunk : ℕ) (options : HandlebarsOptions V) :
    (∀ value ∈ (placeValues chunk options).pointers, value.chunk = chunk) ∧
      (placeValues chunk options).pointers.Nodup := by
  unfold placeValues HandlebarsOptions.pointers
  cases options.scope <;> cases options.data <;> cases options.hash <;> simp

/-- The values of a new object are copied into a chunk of its own. -/
theorem constructOptions_owns {heap : OptionsHeap}
    (hinv : OwnershipInvariant heap) (vm : ℕ)
    (options : HandlebarsOptions V) :
    OwnsValues (constructOptions heap vm options) heap.objectCount
      (optionsCtor vm heap.chunkCount
        (placeValues heap.chunkCount options)) := by
  obtain ⟨hplaced, hdistinct⟩ := placeValues_pointers heap.chunkCount options
  constructor
  case vm =>
    intro other hvm
    rfl
  case dtorCtx =>
    intro chunk hctx
    obtain rfl : heap.chunkCount = chunk := Option.some.inj hctx
    exact ⟨vm, Function.update_self ..⟩
  case pointers =>
    intro value hvalue
    have hchunk := hplaced value hvalue
    constructor
    · rw [hchunk]
      rfl
    · intro hdestroyed
      have hold := hinv.destroyedFresh value hdestroyed
      omega
  case nodup => exact hdistinct

theorem constructOptions_preserves {heap : OptionsHeap}
    (hinv : OwnershipInvariant heap) {vm : ℕ} (hvm : heap.vms vm = true)
    (options : HandlebarsOptions V) :
    OwnershipInvariant (constructOptions heap vm options) := by
  constructor
  case faults => exact hinv.faults
  case nodup => exact hinv.nodup
  case objectFresh =>
    intro obj hobj
    have hne : obj ≠ heap.objectCount := by
      rintro rfl
      simp [constructOptions] at hobj
    simp only [constructOptions, Function.update_of_ne hne]
    exact hinv.objectFresh obj (Nat.le_of_succ_le hobj)
  case chunkFresh =>
    intro chunk hchunk
    have hne : chunk ≠ heap.chunkCount := by
      rintro rfl
      simp [constructOptions] at hchunk
    simp only [constructOptions, Function.update_of_ne hne]
    exact hinv.chunkFresh chunk (Nat.le_of_succ_le hchunk)
  case destroyedFresh =>
    intro value hvalue
    exact Nat.lt_succ_of_lt (hinv.destroyedFresh value hvalue)
  case chunkAlive =>
    intro chunk ctx hchunk
    by_cases hnew : chunk = heap.chunkCount
    · subst hnew
      obtain rfl : ⟨heap.objectCount, vm⟩ = ctx := by
        simpa [constructOptions] using hchunk
      exact hvm
    · simp only [constructOptions, Function.update_of_ne hnew] at hchunk
      exact hinv.chunkAlive chunk ctx hchunk
  case chunkOwned =>
    intro chunk ctx hchunk
    by_cases hnew : chunk = heap.chunkCount
    · subst hnew
      obtain rfl : ⟨heap.objectCount, vm⟩ = ctx := by
        simpa [constructOptions] using hchunk
      exact ⟨_, Function.update_self .., rfl, rfl⟩
    · simp only [constructOptions, Function.update_of_ne hnew] at hchunk
      obtain ⟨object, hobject, howner⟩ := hinv.chunkOwned chunk ctx hchunk
      have hne := (hinv.object_lt hobject).ne
      refine ⟨object, ?_, howner⟩
      simpa [constructOptions, hne] using hobject
  case owns =>
    intro obj object hobject
    by_cases hnew : obj = heap.objectCount
    · subst hnew
      obtain rfl : optionsCtor vm heap.chunkCount
          (placeValues heap.chunkCount options) = object := by
        simpa [constructOptions] using hobject
      exact constructOptions_owns hinv vm options
    · simp only [constructOptions, Function.update_of_ne hnew] at hobject
      have howns := hinv.owns obj object hobject
      apply howns.frame
      · intro chunk hctx
        obtain ⟨parent, hchunk⟩ := howns.dtorCtx chunk hctx
        exact Function.update_of_ne (hinv.chunk_lt hchunk).ne _ _
      · intro value hvalue
        exact (howns.pointers value hvalue).2

/-! ## Teardown and free -/

/-- The destructor of a chunk which is still there finds its object. -/
theorem tallocFree_eq {heap : OptionsHeap} {chunk : ℕ} {ctx : DtorCtx}
    {object : OptionsObject ValuePtr}
    (hchunk : heap.chunks chunk = some ctx)
    (hobject : heap.objects ctx.obj = some object) :
    heap.tallocFree chunk =
      { heap.setObject ctx.obj (some (optionsDtorCtxDtor object)) with
        chunks := Function.update heap.chunks chunk none } := by
  simp [OptionsHeap.tallocFree, hchunk, OptionsHeap.runDestructor, hobject]

theorem OwnershipInvariant.tallocFree {heap : OptionsHeap}
    (hinv : OwnershipInvariant heap) {chunk : ℕ} {ctx : DtorCtx}
    (hchunk : heap.chunks chunk = some ctx) :
    OwnershipInvariant (heap.tallocFree chunk) := by
  obtain ⟨object, hobject, hctx, hvm⟩ := hinv.chunkOwned chunk ctx hchunk
  rw [tallocFree_eq hchunk hobject]
  constructor
  case faults => exact hinv.faults
  case nodup => exact hinv.nodup
  case objectFresh =>
    intro obj hobj
    exact hinv.setObject_fresh hobject (some (optionsDtorCtxDtor object)) hobj
  case chunkFresh =>
    intro other hother
    by_cases heq : other = chunk
    · simp [heq]
    · simpa [heq] using hinv.chunkFresh other hother
  case destroyedFresh => exact hinv.destroyedFresh
  case chunkAlive =>
    intro other otherCtx hother
    by_cases heq : other = chunk
    · simp [heq] at hother
    · exact hinv.chunkAlive other otherCtx (by simpa [heq] using hother)
  case chunkOwned =>
    intro other otherCtx hother
    by_cases heq : other = chunk
    · simp [heq] at hother
    · have hold : heap.chunks other = some otherCtx := by
        simpa [heq] using hother
      obtain ⟨owner, howner, hownerCtx, hownerVm⟩ :=
        hinv.chunkOwned other otherCtx hold
      have hne : otherCtx.obj ≠ ctx.obj := by
        intro hsame
        rw [hsame, hobject] at howner
        obtain rfl := Option.some.inj howner
        exact heq (Option.some.inj (hownerCtx.symm.trans hctx))
      exact ⟨owner, (heap.setObject_of_ne hne _).trans howner,
        hownerCtx, hownerVm⟩
  case owns =>
    intro obj next hnext
    by_cases heq : obj = ctx.obj
    · subst heq
      obtain rfl := Option.some.inj
        ((heap.setObject_self _ _).symm.trans hnext)
      constructor <;> simp [optionsDtorCtxDtor, OptionsObject.pointers,
        HandlebarsOptions.pointers, HandlebarsOptions.zero]
    · have howns := hinv.owns obj next
        ((heap.setObject_of_ne heq _).symm.trans hnext)
      apply howns.frame
      · intro other hother
        obtain ⟨parent, hparent⟩ := howns.dtorCtx other hother
        have hne : other ≠ chunk := by
          intro hsame
          rw [hsame, hchunk] at hparent
          obtain rfl := Option.some.inj hparent
          exact heq rfl
        exact Function.update_of_ne hne _ _
      · intro value hvalue
        exact (howns.pointers value hvalue).2

/-- Several chunks are freed, each once. -/
theorem tallocFree_all {heap : OptionsHeap} (hinv : OwnershipInvariant heap)
    {children : List ℕ} (hnodup : children.Nodup)
    (hchildren : ∀ chunk ∈ children, (heap.chunks chunk).isSome) :
    OwnershipInvariant (children.foldl OptionsHeap.tallocFree heap) ∧
      (children.foldl OptionsHeap.tallocFree heap).vms = heap.vms ∧
      ∀ chunk, (children.foldl OptionsHeap.tallocFree heap).chunks chunk =
        if chunk ∈ children then none else heap.chunks chunk := by
  induction children generalizing heap with
  | nil => exact ⟨hinv, rfl, by simp⟩
  | cons child rest ih =>
      obtain ⟨ctx, hctx⟩ := Option.isSome_iff_exists.mp
        (hchildren child (by simp))
      obtain ⟨object, hobject, _⟩ := hinv.chunkOwned child ctx hctx
      have hfree := tallocFree_eq hctx hobject
      obtain ⟨hfresh, hnodup⟩ := List.nodup_cons.mp hnodup
      have hrest : ∀ chunk ∈ rest,
          ((heap.tallocFree child).chunks chunk).isSome := by
        intro chunk hchunk
        have hne : chunk ≠ child := fun heq => hfresh (heq ▸ hchunk)
        rw [hfree]
        simpa [hne] using hchildren chunk (List.mem_cons_of_mem _ hchunk)
      obtain ⟨hend, hvms, hchunks⟩ := ih (hinv.tallocFree hctx) hnodup hrest
      refine ⟨hend, hvms.trans (by rw [hfree]; rfl), fun chunk => ?_⟩
      rw [List.foldl_cons, hchunks, hfree]
      by_cases heq : chunk = child
      · simp [heq]
      · simp [heq]

theorem teardownVm_preserves {heap : OptionsHeap}
    (hinv : OwnershipInvariant heap) (vm : ℕ) :
    OwnershipInvariant (teardownVm heap vm) := by
  unfold teardownVm
  generalize hlist : (List.range heap.chunkCount).filter (fun chunk =>
    (heap.chunks chunk).any fun ctx => ctx.parent = vm) = children
  have hmem : ∀ chunk, chunk ∈ children ↔
      chunk < heap.chunkCount ∧
        (heap.chunks chunk).any (fun ctx => ctx.parent = vm) = true := by
    intro chunk
    rw [← hlist, List.mem_filter, List.mem_range]
  have hnodup : children.Nodup := hlist ▸ List.nodup_range.filter _
  have hsome : ∀ chunk ∈ children, (heap.chunks chunk).isSome := by
    intro chunk hchunk
    exact Option.isSome_of_any ((hmem chunk).mp hchunk).2
  obtain ⟨hend, hvms, hchunks⟩ := tallocFree_all hinv hnodup hsome
  constructor
  case faults => exact hend.faults
  case nodup => exact hend.nodup
  case objectFresh => exact hend.objectFresh
  case chunkFresh => exact hend.chunkFresh
  case destroyedFresh => exact hend.destroyedFresh
  case chunkAlive =>
    intro chunk ctx hchunk
    have hleft := (hchunks chunk).symm.trans hchunk
    have hne : ctx.parent ≠ vm := by
      intro heq
      split at hleft
      · simp at hleft
      · next hnot =>
          apply hnot
          exact (hmem chunk).mpr ⟨hinv.chunk_lt hleft, by simp [hleft, heq]⟩
    have halive := hend.chunkAlive chunk ctx hchunk
    rw [hvms] at halive
    exact (Function.update_of_ne hne _ _).trans halive
  case chunkOwned => exact hend.chunkOwned
  case owns =>
    intro obj object hobject
    have howns := hend.owns obj object hobject
    exact howns.frame (fun _ _ => rfl) fun value hvalue =>
      (howns.pointers value hvalue).2

theorem OwnershipInvariant.removeObject {heap : OptionsHeap}
    (hinv : OwnershipInvariant heap) {obj : ℕ}
    {object : OptionsObject ValuePtr}
    (hobject : heap.objects obj = some object)
    (hctx : object.dtorCtx = none) :
    OwnershipInvariant (heap.setObject obj none) := by
  constructor
  case faults => exact hinv.faults
  case nodup => exact hinv.nodup
  case objectFresh =>
    intro other hother
    exact hinv.setObject_fresh hobject none hother
  case chunkFresh => exact hinv.chunkFresh
  case destroyedFresh => exact hinv.destroyedFresh
  case chunkAlive => exact hinv.chunkAlive
  case chunkOwned =>
    intro chunk ctx hchunk
    obtain ⟨owner, howner, hownerCtx, hownerVm⟩ :=
      hinv.chunkOwned chunk ctx hchunk
    have hne : ctx.obj ≠ obj := by
      intro heq
      rw [heq, hobject] at howner
      obtain rfl := Option.some.inj howner
      simp [hctx] at hownerCtx
    exact ⟨owner, (heap.setObject_of_ne hne _).trans howner,
      hownerCtx, hownerVm⟩
  case owns =>
    intro other next hnext
    by_cases heq : other = obj
    · rw [heq, OptionsHeap.setObject_self] at hnext
      simp at hnext
    · rw [heap.setObject_of_ne heq] at hnext
      have howns := hinv.owns other next hnext
      exact howns.frame (fun _ _ => rfl) fun value hvalue =>
        (howns.pointers value hvalue).2

theorem releases_hash (object : OptionsObject ValuePtr) :
    Releases object (object.options.hash.toList.map .destroy)
      { object with options.hash := none } := by
  refine ⟨rfl, rfl, ?_⟩
  cases hvalue : object.options.hash with
  | none => exact .inl ⟨rfl, by simp [HandlebarsOptions.pointers, hvalue]⟩
  | some value => exact forgets_hash hvalue (.inr rfl)

theorem releases_data (object : OptionsObject ValuePtr) :
    Releases object (object.options.data.toList.map .destroy)
      { object with options.data := none } := by
  refine ⟨rfl, rfl, ?_⟩
  cases hvalue : object.options.data with
  | none => exact .inl ⟨rfl, by simp [HandlebarsOptions.pointers, hvalue]⟩
  | some value => exact forgets_data hvalue (.inr rfl)

theorem releases_scope (object : OptionsObject ValuePtr) :
    Releases object (object.options.scope.toList.map .destroy)
      { object with options.scope := none } := by
  refine ⟨rfl, rfl, ?_⟩
  cases hvalue : object.options.scope with
  | none => exact .inl ⟨rfl, by simp [HandlebarsOptions.pointers, hvalue]⟩
  | some value => exact forgets_scope hvalue (.inr rfl)

/-- The free function leaves an object without values. -/
theorem freeValues_preserves {heap : OptionsHeap}
    (hinv : OwnershipInvariant heap) {obj : ℕ}
    {object : OptionsObject ValuePtr}
    (hobject : heap.objects obj = some object) :
    OwnershipInvariant (freeValues heap obj object) ∧
      ∃ next, (freeValues heap obj object).objects obj = some next ∧
        next.dtorCtx = object.dtorCtx := by
  refine ⟨?_, _, release_objects .., rfl⟩
  have hhash := hinv.release hobject (releases_hash object)
  have hdata := hhash.release (release_objects ..) (releases_data _)
  have hscope := hdata.release (release_objects ..) (releases_scope _)
  exact hscope.release (release_objects ..) ⟨rfl, rfl, .inl ⟨rfl, rfl⟩⟩

theorem freeOptions_preserves {heap : OptionsHeap}
    (hinv : OwnershipInvariant heap) {obj : ℕ}
    {object : OptionsObject ValuePtr}
    (hobject : heap.objects obj = some object) :
    OwnershipInvariant (freeOptions heap obj object) := by
  obtain ⟨hvalues, next, hnext, hctx⟩ := freeValues_preserves hinv hobject
  unfold freeOptions
  cases hchunk : object.dtorCtx with
  | none => exact hvalues.removeObject hnext (hctx.trans hchunk)
  | some chunk =>
      obtain ⟨parent, hparent⟩ := (hvalues.owns obj next hnext).dtorCtx chunk
        (hctx.trans hchunk)
      have hreset : ((freeValues heap obj object).tallocFree chunk).objects
          obj = some (optionsDtorCtxDtor next) := by
        rw [tallocFree_eq hparent hnext]
        exact Function.update_self ..
      exact (hvalues.tallocFree hparent).removeObject hreset rfl

/-! ## Runs -/

theorem ownershipStep_preserves (heap : OptionsHeap)
    (event : OwnershipEvent V) (next : OptionsHeap)
    (hinv : OwnershipInvariant heap)
    (hstep : ownershipStep version toZval heap event = some next) :
    OwnershipInvariant next := by
  cases event with
  | construct vm options =>
      obtain ⟨hvm, hnext⟩ := Option.ite_none_right_eq_some.mp hstep
      obtain rfl := Option.some.inj hnext
      exact constructOptions_preserves hinv hvm options
  | read obj member =>
      obtain ⟨object, hobject, rfl⟩ := Option.map_eq_some_iff.mp hstep
      exact readOptions_preserves version toZval hinv hobject member
  | call obj program =>
      obtain ⟨object, hobject, rfl⟩ := Option.map_eq_some_iff.mp hstep
      exact callOptions_preserves version toZval hinv hobject program
  | teardown vm =>
      obtain ⟨_, hnext⟩ := Option.ite_none_right_eq_some.mp hstep
      obtain rfl := Option.some.inj hnext
      exact teardownVm_preserves hinv vm
  | free obj =>
      obtain ⟨object, hobject, rfl⟩ := Option.map_eq_some_iff.mp hstep
      exact freeOptions_preserves hinv hobject

/-- In every interleaving, nothing dead is touched and no value is destroyed
twice. -/
theorem options_values_owned {events : List (OwnershipEvent V)}
    {heap : OptionsHeap}
    (hrun : EventRun.run (ownershipStep version toZval) .start events =
      some heap) :
    heap.faults = [] ∧ heap.destroyed.Nodup := by
  have hinv : OwnershipInvariant heap :=
    EventRun.run_invariant (ownershipStep_preserves version toZval)
      OwnershipInvariant.start hrun
  exact ⟨hinv.faults, hinv.nodup⟩

/-- Two objects of one VM: the first is freed before the VM is torn down, the
second after it. -/
def objectsAroundTeardown : List (OwnershipEvent Zval) :=
  let options : HandlebarsOptions Zval :=
    { HandlebarsOptions.zero with scope := some .null, data := some .null }
  [.construct 0 options, .construct 0 options, .read 0 (ascii "scope"),
    .call 0 true, .free 0, .read 1 (ascii "data"), .teardown 0,
    .read 1 (ascii "scope"), .call 1 false, .free 1]

theorem objectsAroundTeardown_owned :
    ∃ heap, EventRun.run (ownershipStep .php8 fun _ => .null) .start
        objectsAroundTeardown = some heap ∧
      heap.faults = [] ∧ heap.destroyed.Nodup := by
  obtain ⟨heap, hrun⟩ := Option.isSome_iff_exists.mp
    (show (EventRun.run (ownershipStep .php8 fun _ => .null) .start
      objectsAroundTeardown).isSome from rfl)
  exact ⟨heap, hrun, options_values_owned _ _ hrun⟩

end PhpHandlebars
