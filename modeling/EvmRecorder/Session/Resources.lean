import EvmRecorder.Library.Scoping
import EvmRecorder.MultiRecorder.CarryForward
import EvmRecorder.Recorder.StepLocations

/-!
# What the events of a recording refer to

Values carry type ids, calls carry function ids and steps are read through the
line table of their path. A block of the recorder is followed together with what
has been declared before it: it uses only that, and what it leaves in the
recorder's state (cached values, registered paths) refers to declared things
again.
-/

namespace EvmRecorder

open Scoping Levels Stack

/-! ## §1  Declarations and uses -/

inductive Resource where
  | type (typeId : TypeId)
  | function (functionId : FunctionId)
  | lineTable (path : Path)
deriving DecidableEq, Repr

/-- The types of a value and of its members. -/
def ValueRecord.typeIds : ValueRecord → List TypeId
  | .raw value => [value.typeId]
  | .int _ typeId => [typeId]
  | .struct fieldValues typeId => typeId :: fieldValues.map (·.typeId)
  | .sequence elements _ typeId => typeId :: elements.map (·.typeId)

def ValueRecord.uses (value : ValueRecord) : List Resource := value.typeIds.map .type

namespace TraceEvent

def declares : TraceEvent → List Resource
  | .ensureTypeId typeId => [.type typeId]
  | .ensureFunctionId functionId => [.function functionId]
  | .registerPathWithLineLengths path _ => [.lineTable path]
  | _ => []

def uses : TraceEvent → List Resource
  | .registerStepWithColumn path _ _ => [.lineTable path]
  | .registerVariableWithFullValue _ value => value.uses
  | .arg _ value => value.uses
  | .registerCall functionId => [.function functionId]
  | .registerReturn value => value.uses
  | _ => []

theorem uses_eq_nil (e : TraceEvent)
    (h : e.kind = .setup ∨ e.kind = .lineTable ∨ e.kind = .special) : e.uses = [] := by
  cases e <;> first | rfl | simp [kind] at h

end TraceEvent

/-- Every use of a block is of something known or declared earlier in it. -/
abbrev InScope (known : Set Resource) (events : List TraceEvent) : Prop :=
  Scoped TraceEvent.declares TraceEvent.uses known events

/-- The values of a cache refer to declared types. -/
def CacheBacked (known : Set Resource) (cache : NamedValues) : Prop :=
  ∀ e ∈ cache.entries, ∀ r ∈ e.2.uses, r ∈ known

/-- What the recorder holds on to between two events has been declared. -/
structure Backed (known : Set Resource) (registered : List Path) (caches : List NamedValues) :
    Prop where
  uint256 : .type uint256TypeId ∈ known
  tables : ∀ path ∈ registered, .lineTable path ∈ known
  values : ∀ cache ∈ caches, CacheBacked known cache

theorem CacheBacked.mono {known known' : Set Resource} {cache : NamedValues}
    (h : CacheBacked known cache) (hsub : known ⊆ known') : CacheBacked known' cache :=
  fun e he r hr => hsub (h e he r hr)

theorem cacheBacked_empty (known : Set Resource) : CacheBacked known ∅ :=
  fun e he => by cases he

theorem Backed.mono {known known' : Set Resource} {registered : List Path}
    {caches : List NamedValues} (h : Backed known registered caches) (hsub : known ⊆ known') :
    Backed known' registered caches where
  uint256 := hsub h.uint256
  tables := fun path hpath => hsub (h.tables path hpath)
  values := fun cache hcache => (h.values cache hcache).mono hsub

/-- Caches that are empty or were there before. -/
theorem Backed.of_caches {known : Set Resource} {registered : List Path}
    {caches caches' : List NamedValues} (h : Backed known registered caches)
    (hsub : ∀ cache ∈ caches', cache = ∅ ∨ cache ∈ caches) : Backed known registered caches' := by
  refine { h with values := fun cache hcache => ?_ }
  rcases hsub cache hcache with rfl | hcache
  · exact cacheBacked_empty known
  · exact h.values cache hcache

/-- A block of events with what the recorder holds on to after it. -/
structure KeepsScope (known : Set Resource) (events : List TraceEvent) (registered : List Path)
    (caches : List NamedValues) : Prop where
  inScope : InScope known events
  backed : Backed (known ∪ declared TraceEvent.declares events) registered caches

theorem KeepsScope.append {known : Set Resource} {events events' : List TraceEvent}
    {registered registered' : List Path} {caches caches' : List NamedValues}
    (h : KeepsScope known events registered caches)
    (h' : KeepsScope (known ∪ declared TraceEvent.declares events) events' registered' caches') :
    KeepsScope known (events ++ events') registered' caches' where
  inScope := h.inScope.append h'.inScope
  backed := by
    rw [declared_append, ← Set.union_assoc]
    exact h'.backed

/-- A block that leaves what is held on to as it is. -/
theorem Backed.keepsScope {known : Set Resource} {events : List TraceEvent}
    {registered : List Path} {caches : List NamedValues} (h : Backed known registered caches)
    (hevents : InScope known events) : KeepsScope known events registered caches :=
  ⟨hevents, h.mono Set.subset_union_left⟩

section Blocks

variable {known : Set Resource}

/-- Events of these kinds use nothing. -/
theorem InScope.of_issues {kinds : List EventKind} {es : List TraceEvent} (h : Issues kinds es)
    (hkinds : ∀ kind ∈ kinds, kind = .setup ∨ kind = .lineTable ∨ kind = .special) :
    InScope known es := by
  refine .of_uses fun e he r hr => ?_
  rw [e.uses_eq_nil (hkinds e.kind (h e he))] at hr
  cases hr

/-! ## §2  The shared blocks -/

theorem inScope_ensureType_then {typeId : TypeId} {e : TraceEvent}
    (he : ∀ r ∈ e.uses, r = .type typeId) : InScope known [.ensureTypeId typeId, e] := by
  refine .cons (fun r hr => by cases hr) (.cons (fun r hr => ?_) .nil)
  obtain rfl := he r hr
  exact .inr (List.mem_singleton.mpr rfl)

theorem inScope_localEvents (values : List (VarDecl × U256)) : InScope known (localEvents values) := by
  refine .flatMap (fun (var, val) => inScope_ensureType_then fun r hr => ?_) values
  simp only [TraceEvent.uses, valueRecordForLocal] at hr
  split at hr <;> exact List.mem_singleton.mp hr

theorem inScope_stageInternalCallArgs (tracker : StackTracker) (target : Option FunctionDef)
    (concreteStack : Option (List U256)) (above : Nat) :
    InScope known (stageInternalCallArgs tracker target concreteStack above).2 := by
  unfold stageInternalCallArgs
  split
  · dsimp only
    split
    · exact .nil
    · exact .flatMap (fun (param, value) => inScope_ensureType_then fun r hr =>
        List.mem_singleton.mp hr) _
  · exact .nil

theorem inScope_enterInternalCall (a : Artifacts) (mainPath : Path) (structLogs : List StructLog)
    (i : Nat) (log : StructLog) (loc : SourceLocation) (tracker : StackTracker) :
    InScope known (enterInternalCall a mainPath structLogs i log loc tracker).2 := by
  unfold enterInternalCall
  dsimp only
  rw [List.append_assoc]
  refine .cons (fun r hr => by cases hr) ?_
  refine (inScope_stageInternalCallArgs _ _ _ _).append (.of_uses fun e he r hr => ?_)
  obtain rfl := List.mem_singleton.mp he
  obtain rfl := List.mem_singleton.mp hr
  exact .inl (.inr (List.mem_singleton.mpr rfl))

theorem backed_ensurePath {registered : List Path} {caches : List NamedValues}
    (h : Backed known registered caches) (path : Path) (source : String) :
    Backed (known ∪ declared TraceEvent.declares (ensurePathWithLineLengths registered path source).2)
      (ensurePathWithLineLengths registered path source).1 caches := by
  unfold ensurePathWithLineLengths
  split
  · exact h.mono Set.subset_union_left
  · refine { h.mono Set.subset_union_left with tables := fun p hp => ?_ }
    rcases List.mem_cons.mp hp with rfl | hp
    · exact .inr ⟨_, List.mem_singleton.mpr rfl, List.mem_singleton.mpr rfl⟩
    · exact .inl (h.tables p hp)

/-- A step at a resolved location: its file has contents, so its path has a table
by then; the carried-forward variables are cached ones. -/
theorem keepsScope_emitStep {a : Artifacts} {loc : SourceLocation} {source : String}
    (hsource : a.sourceContents[asUsize loc.fileIndex]? = some source) {registered : List Path}
    {caches : List NamedValues} (h : Backed known registered caches) (mainPath : Path)
    (prevLine : Option SourceLocation) {storageState : NamedValues}
    (hcache : CacheBacked known storageState) :
    KeepsScope known (emitStep a mainPath registered prevLine loc storageState).2
      (emitStep a mainPath registered prevLine loc storageState).1 caches := by
  unfold emitStep
  split
  · exact h.keepsScope .nil
  · dsimp only
    rw [hsource]
    dsimp only
    have htable := backed_ensurePath h (a.pathOf mainPath loc.fileIndex) source
    have hmem := mem_ensurePath registered (a.pathOf mainPath loc.fileIndex) source
    have hpath := issues_ensurePath registered (a.pathOf mainPath loc.fileIndex) source
    constructor
    · refine ((InScope.of_issues hpath (by simp)).append (.of_uses fun e he r hr => ?_)).append
        (.of_uses fun e he r hr => ?_)
      · obtain rfl := List.mem_singleton.mp he
        obtain rfl := List.mem_singleton.mp hr
        exact htable.tables _ hmem
      · obtain ⟨x, hx, rfl⟩ := List.mem_map.mp he
        unfold carriedForward at hx
        split at hx
        · obtain ⟨entry, hentry, rfl⟩ := List.mem_map.mp hx
          exact .inl (hcache entry hentry r hr)
        · cases hx
    · rw [List.append_assoc, declared_append, ← Set.union_assoc]
      exact htable.mono Set.subset_union_left

/-- An entry of a cache after an insertion is the one inserted or an old one. -/
theorem CacheBacked.insert {name : String} {value : ValueRecord} {cache : NamedValues}
    (hvalue : ∀ r ∈ value.uses, r ∈ known) (hcache : CacheBacked known cache) :
    CacheBacked known (cache.insert name value) := by
  intro e he
  rw [AList.entries_insert] at he
  rcases List.mem_cons.mp he with rfl | he
  · exact hvalue
  · exact hcache e ((List.kerase_sublist _ _).subset he)

theorem uses_buildCompoundValue {parentTi : StorageTypeInfo} {baseSlot slotCount : Nat}
    {slotValues : SlotValues} {compound : ValueRecord}
    (h : (buildCompoundValue parentTi baseSlot slotCount slotValues).2 = some compound) :
    ∀ r ∈ compound.uses, r ∈ declared TraceEvent.declares
      (buildCompoundValue parentTi baseSlot slotCount slotValues).1 := by
  have helements : ∀ (typeId : TypeId) (elements : List RawValue),
      (∀ x ∈ elements, x.typeId = uint256TypeId) →
        ∀ t ∈ typeId :: elements.map (·.typeId), Resource.type t ∈ declared TraceEvent.declares
          [.ensureTypeId uint256TypeId, .ensureTypeId typeId] := by
    intro typeId elements hall t ht
    rcases List.mem_cons.mp ht with rfl | ht
    · exact ⟨.ensureTypeId t, by simp, by simp [TraceEvent.declares]⟩
    · obtain ⟨x, hx, rfl⟩ := List.mem_map.mp ht
      rw [hall x hx]
      exact ⟨.ensureTypeId uint256TypeId, by simp, by simp [TraceEvent.declares]⟩
  intro r hr
  obtain ⟨t, ht, rfl⟩ := List.mem_map.mp hr
  unfold buildCompoundValue at h ⊢
  split at h
  · obtain ⟨fields, hfields, rfl⟩ := Option.map_eq_some_iff.mp h
    refine helements _ fields (fun x hx => ?_) t ht
    obtain ⟨member, -, hmember⟩ := MultiRecorder.mem_of_mapM_eq_some hfields hx
    obtain ⟨memberOffset, -, rfl⟩ := Option.map_eq_some_iff.mp hmember
    rfl
  · split at h
    · next hbase =>
        obtain rfl := Option.some.inj h
        rw [if_pos hbase]
        refine helements _ _ (fun x hx => ?_) t ht
        obtain ⟨offset, -, rfl⟩ := List.mem_map.mp hx
        rfl
    · cases h

/-- A snapshot's own type and that of its elements are declared with it. -/
theorem uses_writeSnapshot {layout : Option StorageLayout} {slot : U256} {slotValues : SlotValues}
    {label : String} {compound : ValueRecord}
    (h : (writeSnapshot layout slot slotValues).2 = some (label, compound)) :
    ∀ r ∈ compound.uses,
      r ∈ declared TraceEvent.declares (writeSnapshot layout slot slotValues).1 := by
  unfold writeSnapshot at h ⊢
  split at h
  · unfold compoundSnapshot at h ⊢
    split at h
    · obtain ⟨compound', hcompound, hpair⟩ := Option.map_eq_some_iff.mp h
      obtain ⟨-, rfl⟩ := Prod.mk.inj hpair
      exact uses_buildCompoundValue hcompound
    · cases h
  · cases h

/-- The SSTORE block: the value's type is declared before the variable, the types of
a snapshot before the compound. -/
theorem inScope_recordStorageWrite (layout : Option StorageLayout) (names : MappingSlotNames)
    (slot value : U256) {storageState : NamedValues} (slotValues : SlotValues)
    (hcache : CacheBacked known storageState) :
    InScope known (recordStorageWrite layout names slot value storageState slotValues).2.2 ∧
      CacheBacked (known ∪ declared TraceEvent.declares
          (recordStorageWrite layout names slot value storageState slotValues).2.2)
        (recordStorageWrite layout names slot value storageState slotValues).1 := by
  unfold recordStorageWrite
  dsimp only
  generalize cacheSlotValue layout slot value slotValues = values
  generalize hname : storageVarName layout names slot = name
  generalize hrecord : slotRecord layout slot value = val
  generalize htype : TraceEvent.ensureTypeId ⟨.int, storageTypeName layout slot⟩ = ensured
  have hval : ∀ r ∈ val.uses, r ∈ known ∪
      declared TraceEvent.declares [ensured, .registerVariableWithFullValue name val] := by
    subst hrecord htype
    intro r hr
    obtain rfl := List.mem_singleton.mp hr
    exact .inr ⟨_, List.mem_cons_self, List.mem_singleton.mpr rfl⟩
  have hwrite : InScope known [ensured, .registerVariableWithFullValue name val] := by
    subst hrecord htype
    exact inScope_ensureType_then fun r hr => List.mem_singleton.mp hr
  have hsnapshot : ∀ known, InScope known (writeSnapshot layout slot values).1 := fun known =>
    InScope.of_issues (issues_writeSnapshot layout slot values) (by simp)
  split
  · next label compound hcompound =>
      have hcompound := uses_writeSnapshot hcompound
      constructor
      · refine (hwrite.append (hsnapshot _)).append (.of_uses fun e he r hr => ?_)
        obtain rfl := List.mem_singleton.mp he
        rw [declared_append]
        exact .inr (.inr (hcompound r hr))
      · rw [declared_append, declared_append]
        refine .insert (fun r hr => .inr (.inl (.inr (hcompound r hr)))) ?_
        refine .insert (fun r hr => ?_) (hcache.mono Set.subset_union_left)
        exact (hval r hr).imp id fun h => .inl (.inl h)
  · refine ⟨hwrite.append (hsnapshot _), ?_⟩
    rw [declared_append]
    refine .insert (fun r hr => ?_) (hcache.mono Set.subset_union_left)
    exact (hval r hr).imp id fun h => .inl h

end Blocks

end EvmRecorder
