import EvmRecorder.Model.Recorder

/-!
# The storage variables of the loop

The storage cache, the slot values and the mapping names change in the KECCAK256
and SSTORE blocks only, and from log to log as these blocks say.
-/

namespace EvmRecorder.Recorder

variable {keccak256 : List UInt8 → U256} {registered : List Path} {a : Artifacts}
  {structLogs : List StructLog}

theorem storage_handleLocation (mainPath : Path) (i : Nat) (log : StructLog)
    (s : RecorderState) :
    (handleLocation a mainPath structLogs i log s).1.storageState = s.storageState ∧
      (handleLocation a mainPath structLogs i log s).1.slotValues = s.slotValues ∧
      (handleLocation a mainPath structLogs i log s).1.mappingSlotNames = s.mappingSlotNames := by
  unfold handleLocation
  split
  · simp only [atLocation, handleJump]
    split
    · unfold jumpInto
      split <;> exact ⟨rfl, rfl, rfl⟩
    · exact ⟨rfl, rfl, rfl⟩
    · exact ⟨rfl, rfl, rfl⟩
  · exact ⟨rfl, rfl, rfl⟩

theorem mappingSlotNames_step (mainPath : Path) (i : Nat) (log : StructLog) (s : RecorderState) :
    (step keccak256 a mainPath structLogs i log s).1.mappingSlotNames =
      recordMappingSlot keccak256 a.storageLayout log s.mappingSlotNames := by
  obtain ⟨-, -, hnames⟩ :=
    @storage_handleLocation a structLogs mainPath i log (enterDepth log s)
  unfold step handleStorage
  dsimp only
  rw [hnames]
  split <;> rfl

theorem slotValues_step (mainPath : Path) (i : Nat) (log : StructLog) (s : RecorderState) :
    (step keccak256 a mainPath structLogs i log s).1.slotValues =
      match storageWrite log with
      | some (slot, value) => cacheSlotValue a.storageLayout slot value s.slotValues
      | none => s.slotValues := by
  obtain ⟨-, hvalues, -⟩ :=
    @storage_handleLocation a structLogs mainPath i log (enterDepth log s)
  unfold step handleStorage
  dsimp only
  cases hwrite : storageWrite log with
  | none => exact hvalues
  | some write =>
      dsimp only [recordStorageWrite]
      rw [hvalues]
      split <;> rfl

theorem mappingSlotNames_stateBefore_succ {k : Nat} {log : StructLog}
    (hlog : structLogs[k]? = some log) :
    (stateBefore keccak256 registered a structLogs (k + 1)).mappingSlotNames =
      recordMappingSlot keccak256 a.storageLayout log
        (stateBefore keccak256 registered a structLogs k).mappingSlotNames := by
  rw [stateBefore, Machine.stateBefore_succ hlog, mappingSlotNames_step]
  rfl

theorem slotValues_stateBefore_succ {k : Nat} {log : StructLog}
    (hlog : structLogs[k]? = some log) :
    (stateBefore keccak256 registered a structLogs (k + 1)).slotValues =
      match storageWrite log with
      | some (slot, value) => cacheSlotValue a.storageLayout slot value
          (stateBefore keccak256 registered a structLogs k).slotValues
      | none => (stateBefore keccak256 registered a structLogs k).slotValues := by
  rw [stateBefore, Machine.stateBefore_succ hlog, slotValues_step]
  rfl

/-! ## The events of the SSTORE block -/

section Events

variable (keccak256 : List UInt8 → U256) (registered : List Path) (a : Artifacts)
  (structLogs : List StructLog)

/-- The events of the SSTORE block at log `k`. -/
def writeEventsAt (k : Nat) : List TraceEvent :=
  structLogs[k]?.elim [] fun log =>
    (handleStorage keccak256 a log (stateBefore keccak256 registered a structLogs k)).2

end Events

theorem handleStorage_events {log : StructLog} {s s' : RecorderState}
    (hvalues : s.slotValues = s'.slotValues) (hnames : s.mappingSlotNames = s'.mappingSlotNames) :
    (handleStorage keccak256 a log s).2 = (handleStorage keccak256 a log s').2 := by
  unfold handleStorage
  cases storageWrite log with
  | none => rfl
  | some write =>
      dsimp only [recordStorageWrite]
      rw [hvalues, hnames]
      split <;> rfl

/-- They are recorded behind those of the log's depth change and location. -/
theorem writeEventsAt_recorded {k : Nat} {log : StructLog} (hlog : structLogs[k]? = some log) :
    writeEventsAt keccak256 registered a structLogs k <:+:
      eventsBefore keccak256 registered a structLogs (k + 1) := by
  obtain ⟨-, hvalues, hnames⟩ := @storage_handleLocation a structLogs
    (mainPathOf a.sourcePaths) k log
    (enterDepth log (stateBefore keccak256 registered a structLogs k))
  have hevents : (handleStorage keccak256 a log
      (stateBefore keccak256 registered a structLogs k)).2 =
        (handleStorage keccak256 a log (handleLocation a (mainPathOf a.sourcePaths) structLogs k log
          (enterDepth log (stateBefore keccak256 registered a structLogs k))).1).2 :=
    handleStorage_events hvalues.symm hnames.symm
  rw [eventsBefore_succ _ _ _ _ hlog, writeEventsAt, hlog, Option.elim_some, hevents]
  apply List.infix_append_of_infix_right
  apply List.infix_append_of_infix_left
  apply List.infix_append_of_infix_right
  exact List.infix_rfl

end EvmRecorder.Recorder
