import EvmRecorder.MemoryTracker.Bounds
import EvmRecorder.StructLog.MemoryOperands

/-!
# Values in memory

A store that the tracker reports can be read back under the reported name, from the
memory after it, and it changes no field elsewhere. Names are registered once, so the
values of all regions are those of the lookups by name.
-/

namespace EvmRecorder

open Bytes

/-! ## §1  Memory after a store -/

/-- Memory grown to `n` bytes, if it is shorter. -/
def growMemory (n : Nat) (memory : List UInt8) : List UInt8 :=
  memory ++ List.replicate (n - memory.length) 0

/-- The word in place of the bytes from `dest` on. -/
def replaceWord (memory : List UInt8) (dest : Nat) (value : U256) : List UInt8 :=
  memory.take dest ++ wordBytes value ++ memory.drop (dest + word)

/-- Memory after an MSTORE: grown to whole words, then the word in its place. -/
def storeWord (memory : List UInt8) (dest : Nat) (value : U256) : List UInt8 :=
  replaceWord (growMemory (word * ((dest + 2 * word - 1) / word)) memory) dest value

theorem getD_growMemory (n : Nat) (memory : List UInt8) (i : Nat) :
    (growMemory n memory).getD i 0 = memory.getD i 0 := by
  rw [growMemory, List.getD_eq_getElem?_getD, List.getD_eq_getElem?_getD]
  rcases Nat.lt_or_ge i memory.length with hi | hi
  · rw [List.getElem?_append_left hi]
  · rw [List.getElem?_append_right hi, List.getElem?_eq_none hi, List.getElem?_replicate]
    split <;> rfl

theorem length_growMemory (n : Nat) (memory : List UInt8) :
    (growMemory n memory).length = max n memory.length := by
  rw [growMemory, List.length_append, List.length_replicate]
  omega

/-- The bytes of the word are there, all others are as before. -/
theorem getD_replaceWord {memory : List UInt8} {dest : Nat} (hlen : dest + word ≤ memory.length)
    (value : U256) (i : Nat) :
    (replaceWord memory dest value).getD i 0 =
      if dest ≤ i ∧ i < dest + word then (wordBytes value).getD (i - dest) 0
      else memory.getD i 0 := by
  have hword : word = 32 := rfl
  have htake : (memory.take dest).length = dest := List.length_take_of_le (by omega)
  have hfront : (memory.take dest ++ wordBytes value).length = dest + word := by
    rw [List.length_append, htake, length_wordBytes, hword]
  rw [replaceWord]
  simp only [List.getD_eq_getElem?_getD]
  rcases Nat.lt_or_ge i dest with hbelow | hfrom
  · rw [if_neg (by omega), List.append_assoc, List.getElem?_append_left (by omega),
      List.getElem?_take_of_lt hbelow]
  · rcases Nat.lt_or_ge i (dest + word) with hin | habove
    · rw [if_pos ⟨hfrom, hin⟩, List.getElem?_append_left (by omega),
        List.getElem?_append_right (by omega), htake]
    · rw [if_neg (by omega), List.getElem?_append_right (by omega), List.getElem?_drop, hfront,
        Nat.add_sub_cancel' habove]

theorem getD_storeWord (memory : List UInt8) (dest : Nat) (value : U256) (i : Nat) :
    (storeWord memory dest value).getD i 0 =
      if dest ≤ i ∧ i < dest + word then (wordBytes value).getD (i - dest) 0
      else memory.getD i 0 := by
  have hgrown : dest + word ≤
      (growMemory (word * ((dest + 2 * word - 1) / word)) memory).length := by
    rw [length_growMemory]
    apply le_max_of_le_left
    show dest + 32 ≤ 32 * ((dest + 63) / 32)
    omega
  rw [storeWord, getD_replaceWord hgrown, getD_growMemory]

theorem evmRead_storeWord_self (memory : List UInt8) (dest : Nat) (value : U256) :
    evmRead (storeWord memory dest value) dest word = wordBytes value := by
  apply List.ext_getElem
  · rw [length_evmRead, length_wordBytes]
    rfl
  · intro i hi _
    rw [length_evmRead] at hi
    simp only [evmRead, List.getElem_map, List.getElem_range, getD_storeWord]
    rw [if_pos (by omega), Nat.add_sub_cancel_left]
    exact (List.getElem_eq_getD 0).symm

theorem evmRead_storeWord_of_disjoint (memory : List UInt8) {dest offset : Nat} (value : U256)
    (h : offset + word ≤ dest ∨ dest + word ≤ offset) :
    evmRead (storeWord memory dest value) offset word = evmRead memory offset word := by
  apply List.map_congr_left
  intro i hi
  rw [List.mem_range] at hi
  rw [getD_storeWord, if_neg (by omega)]

/-- What is there of the word, then zeros. -/
theorem padded_eq_evmRead (memory : List UInt8) (offset : Nat) :
    (memory.drop offset).take word ++
        List.replicate (word - ((memory.drop offset).take word).length) 0 =
      evmRead memory offset word := by
  have hlen : ((memory.drop offset).take word).length ≤ word := List.length_take_le _ _
  apply List.ext_getElem?
  intro i
  rw [evmRead, List.getElem?_map]
  rcases Nat.lt_or_ge i word with hi | hi
  · rw [List.getElem?_range hi, Option.map_some, List.getD_eq_getElem?_getD]
    rcases Nat.lt_or_ge i ((memory.drop offset).take word).length with hin | hout
    · have hbyte : offset + i < memory.length := by
        rw [List.length_take, List.length_drop] at hin
        omega
      rw [List.getElem?_append_left hin, List.getElem?_take_of_lt hi, List.getElem?_drop,
        List.getElem?_eq_getElem hbyte]
      rfl
    · have hbyte : memory.length ≤ offset + i := by
        rw [List.length_take, List.length_drop] at hout
        omega
      rw [List.getElem?_append_right hout, List.getElem?_replicate, if_pos (by omega),
        List.getElem?_eq_none hbyte]
      rfl
  · rw [List.getElem?_eq_none, List.getElem?_eq_none]
    · rfl
    · rw [List.length_range]
      exact hi
    · rw [List.length_append, List.length_replicate]
      omega

/-- Where the tracker reads a word it reads the EVM's. -/
theorem readWord_eq {memory : List UInt8} {offset : Nat} (h : memory ≠ [] ∨ offset = 0) :
    readWord memory offset = some (wordOfBytes (evmRead memory offset word)) := by
  have hcaptured : ¬ ((memory.isEmpty && decide (offset ≠ 0)) = true) := by
    rw [Bool.and_eq_true, List.isEmpty_iff, decide_eq_true_eq]
    rintro ⟨hempty, hoffset⟩
    exact h.elim (absurd hempty) hoffset
  rw [readWord, if_neg hcaptured, ← padded_eq_evmRead]
  by_cases hend : memory.length ≤ offset
  · rw [if_pos hend, List.drop_eq_nil_of_le hend]
    decide +kernel
  · rw [if_neg hend]

theorem storeWord_ne_nil (memory : List UInt8) (dest : Nat) (value : U256) :
    storeWord memory dest value ≠ [] := by
  intro hnil
  have hlen := congrArg List.length hnil
  rw [storeWord, replaceWord, List.length_append, List.length_append, length_wordBytes] at hlen
  simp at hlen

theorem readWord_storeWord_self (memory : List UInt8) (dest : Nat) (value : U256) :
    readWord (storeWord memory dest value) dest = some value := by
  rw [readWord_eq (.inl (storeWord_ne_nil memory dest value)), evmRead_storeWord_self,
    wordOfBytes_wordBytes]

/-- A word elsewhere is as before, if it was there. -/
theorem readWord_storeWord_of_disjoint {memory : List UInt8} {dest offset : Nat} {v : U256}
    (value : U256) (h : offset + word ≤ dest ∨ dest + word ≤ offset)
    (hv : readWord memory offset = some v) :
    readWord (storeWord memory dest value) offset = some v := by
  have hread : memory ≠ [] ∨ offset = 0 := by
    by_contra hnone
    rw [not_or, not_not] at hnone
    obtain ⟨rfl, hoffset⟩ := hnone
    rw [readWord, if_pos (by simp [hoffset])] at hv
    cases hv
  rw [← hv, readWord_eq hread, readWord_eq (.inl (storeWord_ne_nil memory dest value)),
    evmRead_storeWord_of_disjoint memory value h]

/-! ## §2  Names -/

namespace MemoryTracker

/-- A variable is registered once. -/
theorem nodup_trackerBefore (steps : List MemStep) : ∀ k, k ≤ steps.length →
    ((trackerBefore steps k).regions.map (·.name)).Nodup := by
  intro k
  induction k with
  | zero => exact fun _ => List.nodup_nil
  | succ k ih =>
      intro hk
      have hbefore := ih (Nat.le_of_lt hk)
      rw [trackerBefore_succ (List.getElem?_eq_getElem hk), regions_registering, List.map_append]
      cases hreg : (trackerBefore steps k).registration steps[k] with
      | none => rwa [Option.toList_none, List.map_nil, List.append_nil]
      | some r =>
          obtain ⟨value, v, -, -, -, hfresh, rfl⟩ := registration_eq_some_iff.mp hreg
          rw [Option.toList_some, List.map_singleton, List.nodup_append_comm, List.singleton_append,
            List.nodup_cons]
          refine ⟨fun hmem => ?_, hbefore⟩
          obtain ⟨r, hr, hname⟩ := List.mem_map.mp hmem
          rw [isAlreadyRegistered, List.any_eq_false] at hfresh
          exact hfresh r hr (decide_eq_true hname)

theorem name_of_region {self : MemoryTracker} {name : String} {r : MemRegion}
    (h : self.region name = some r) : r.name = name := by
  simpa using List.find?_some h

/-- The region of a name is the only one registered for it. -/
theorem region_eq_some_iff {self : MemoryTracker} (hnodup : (self.regions.map (·.name)).Nodup)
    {name : String} {r : MemRegion} :
    self.region name = some r ↔ r ∈ self.regions ∧ r.name = name := by
  constructor
  · intro h
    exact ⟨region_mem name h, name_of_region h⟩
  · rintro ⟨hr, rfl⟩
    cases hregion : self.region r.name with
    | none =>
        have hnone := List.find?_eq_none.mp hregion r (List.mem_reverse.mpr hr)
        exact absurd (decide_eq_true rfl) hnone
    | some r' =>
        rw [List.inj_on_of_nodup_map hnodup (region_mem _ hregion) hr (name_of_region hregion)]

/-- Registering a region leaves the other names theirs. -/
theorem region_trackerBefore_succ {steps : List MemStep} {k : Nat} (hk : k < steps.length)
    {name : String} {r : MemRegion} (h : (trackerBefore steps k).region name = some r) :
    (trackerBefore steps (k + 1)).region name = some r := by
  obtain ⟨hr, hname⟩ := (region_eq_some_iff (nodup_trackerBefore steps k hk.le)).mp h
  refine (region_eq_some_iff (nodup_trackerBefore steps (k + 1) hk)).mpr ⟨?_, hname⟩
  rw [trackerBefore_succ (List.getElem?_eq_getElem hk), regions_registering]
  exact List.mem_append_left _ hr

/-! ## §3  Stores and reads -/

theorem getFieldValue_eq {self : MemoryTracker} {name : String} {r : MemRegion}
    (hregion : self.region name = some r) (hrange : r.baseOffset + r.sizeInBytes < 2 ^ 64)
    {fieldOffset : Nat} (hfield : fieldOffset + word ≤ r.sizeInBytes) (memory : List UInt8) :
    self.getFieldValue name fieldOffset memory = readWord memory (r.baseOffset + fieldOffset) := by
  have hsum : addU64 fieldOffset word = fieldOffset + word := addU64_of_lt (by omega)
  have haddress : addU64 r.baseOffset fieldOffset = r.baseOffset + fieldOffset :=
    addU64_of_lt (by omega)
  simp only [getFieldValue, hregion, Option.bind_eq_bind, Option.bind_some, hsum, haddress]
  rw [if_neg (Nat.not_lt.mpr hfield)]

/-- A reported word store is in a region of the reported name. -/
theorem exists_region_of_report {self : MemoryTracker} (hrange : self.RegionsInRange)
    {s : MemStep} (hop : s.opcode = 0x52) {rest : List U256} {value dest : U256}
    (hstack : s.preStack = rest ++ [value, dest]) (hdest : dest.toNat + word < 2 ^ 64)
    {a : MemAssignment}
    (ha : a ∈ (self.processStep s.opcode s.sourceOffset s.varsInScope s.preStack s.preMemory).2) :
    a.memoryOffset = dest.toNat ∧
      ∃ r ∈ self.regions, r.name = a.name ∧ r.Contains dest.toNat word := by
  rw [processStep] at ha
  simp only [if_pos hop, handleMstore, hstack, List.reverse_append, List.reverse_cons,
    List.reverse_nil, List.nil_append, List.cons_append] at ha
  split at ha
  · cases ha
  · rw [regions_observeMemory, Option.mem_toList, Option.map_eq_some_iff] at ha
    obtain ⟨r, hfound, rfl⟩ := ha
    have hr := List.mem_of_find?_eq_some hfound
    have htest := List.find?_some hfound
    rw [Bool.and_eq_true, decide_eq_true_eq, decide_eq_true_eq] at htest
    exact ⟨saturating_of_lt (by omega), r, hr, rfl, (wordTest_iff dest (hrange r hr) hdest).mp htest⟩

/-- All values are those of the lookups, each name's once. -/
theorem mem_allVariableValues_iff {self : MemoryTracker}
    (hnodup : (self.regions.map (·.name)).Nodup) {memory : List UInt8} {name : String} {v : U256} :
    (name, v) ∈ self.allVariableValues memory ↔ self.getVariableValue name memory = some v := by
  simp only [allVariableValues, getVariableValue, List.mem_filterMap, Option.map_eq_some_iff,
    Option.bind_eq_bind, Option.bind_eq_some_iff, region_eq_some_iff hnodup]
  constructor
  · rintro ⟨r, hr, v', hv, heq⟩
    obtain ⟨rfl, rfl⟩ := Prod.mk.inj heq
    exact ⟨r, ⟨hr, rfl⟩, hv⟩
  · rintro ⟨r, ⟨hr, rfl⟩, hv⟩
    exact ⟨r, hr, v, hv, rfl⟩

theorem nodup_allVariableValues {self : MemoryTracker}
    (hnodup : (self.regions.map (·.name)).Nodup) (memory : List UInt8) :
    ((self.allVariableValues memory).map Prod.fst).Nodup := by
  refine List.Nodup.sublist ?_ hnodup
  rw [allVariableValues]
  generalize self.regions = regions
  induction regions with
  | nil => exact .slnil
  | cons r regions ih =>
      rw [List.filterMap_cons]
      cases readWord memory r.baseOffset with
      | none => exact ih.cons r.name
      | some v => exact ih.cons_cons r.name

/-- **What is reported can be read.** In every run, a word store that the tracker reports
is read back under the reported name from the memory after the store, which leaves every
field elsewhere its value; and the values of all variables are those read name by name. -/
theorem stores_read_back (steps : List MemStep) {k : Nat} {s : MemStep}
    (hs : steps[k]? = some s) (hop : s.opcode = 0x52) {rest : List U256} {value dest : U256}
    (hstack : s.preStack = rest ++ [value, dest]) (hdest : dest.toNat + word < 2 ^ 64) :
    let before := trackerBefore steps k
    let after := trackerBefore steps (k + 1)
    let memory := storeWord s.preMemory dest.toNat value
    (∀ a ∈ (before.processStep s.opcode s.sourceOffset s.varsInScope s.preStack s.preMemory).2,
      a.memoryOffset = dest.toNat ∧ ∃ r, after.region a.name = some r ∧
        r.baseOffset ≤ a.memoryOffset ∧
          after.getFieldValue a.name (a.memoryOffset - r.baseOffset) memory = some value) ∧
    (∀ name r fieldOffset v, before.region name = some r → fieldOffset + word ≤ r.sizeInBytes →
      (r.baseOffset + fieldOffset + word ≤ dest.toNat ∨
        dest.toNat + word ≤ r.baseOffset + fieldOffset) →
      before.getFieldValue name fieldOffset s.preMemory = some v →
        after.getFieldValue name fieldOffset memory = some v) ∧
    ((after.allVariableValues memory).map Prod.fst).Nodup ∧
      ∀ name v, (name, v) ∈ after.allVariableValues memory ↔
        after.getVariableValue name memory = some v := by
  intro before after memory
  have hk : k < steps.length := (List.getElem?_eq_some_iff.mp hs).1
  have hrange : before.RegionsInRange := regionsInRange_trackerBefore steps k hk.le
  have hnames := nodup_trackerBefore steps (k + 1) hk
  refine ⟨fun a ha => ?_, fun name r fieldOffset v hregion hfield hdisjoint hv => ?_,
    nodup_allVariableValues hnames memory, fun name v => mem_allVariableValues_iff hnames⟩
  · obtain ⟨hoffset, r, hr, hname, hbase, hend⟩ :=
      exists_region_of_report hrange hop hstack hdest ha
    have hregion : after.region a.name = some r := by
      apply region_trackerBefore_succ hk
      exact (region_eq_some_iff (nodup_trackerBefore steps k hk.le)).mpr ⟨hr, hname⟩
    refine ⟨hoffset, r, hregion, by rw [hoffset]; exact hbase, ?_⟩
    rw [getFieldValue_eq hregion (hrange r hr) (by omega), hoffset, Nat.add_sub_cancel' hbase]
    exact readWord_storeWord_self s.preMemory dest.toNat value
  · have hr := hrange r (region_mem name hregion)
    rw [getFieldValue_eq hregion hr hfield] at hv
    rw [getFieldValue_eq (region_trackerBefore_succ hk hregion) hr hfield]
    exact readWord_storeWord_of_disjoint value hdisjoint hv

/-- `a` is allocated, then its second field is stored. -/
def fieldStore : List MemStep :=
  [{ sampleStore (sampleVar "a" 10) 0xC0 0x80 with preStack := [9, 0xA0, 0xC0, 0x40] },
    { sampleStore (sampleVar "a" 10) 0 0xC0 with preStack := [9, 0xA0] }]

theorem stores_read_back_fieldStore :
    (trackerBefore fieldStore 2).getFieldValue "a" 0x20 (storeWord (sampleMemory 0xC0) 0xA0 9) =
      some 9 := by
  have hreported : (⟨"a", 0xA0, 32⟩ : MemAssignment) ∈ ((trackerBefore fieldStore 1).processStep 0x52
      (some 10) [sampleVar "a" 10] [9, 0xA0] (sampleMemory 0xC0)).2 := by
    decide +kernel
  have hregion : (trackerBefore fieldStore 2).region "a" =
      some ⟨"a", "struct S memory", 0x80, 0x40⟩ := by
    decide +kernel
  have hstack : ([9, 0xA0] : List U256) = [] ++ [9, 0xA0] := rfl
  have hread := (stores_read_back fieldStore (rfl : fieldStore[1]? = _) rfl hstack
    (by decide)).1 _ hreported
  obtain ⟨-, r, hr, -, hvalue⟩ := hread
  obtain rfl := Option.some.inj (hregion.symm.trans hr)
  exact hvalue

end MemoryTracker

end EvmRecorder
